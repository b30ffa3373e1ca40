/-
This file embeds two daemons with their clients and the pair of links that joins them.
-/

import Chappe.Construction.Link
import Chappe.Construction.Network
import Chappe.Construction.Relay

namespace Chappe
open Foundation

variable {Client : Type}

/-- One device of a pair. The network has its daemon and marks the frames on the way to each client.
The local loop has taken the given number of frames from the daemon and has written its list to the
peer, and the peer loop has read the given number of frames of the peer and has published its list.
A frame keeps its mark, which is the publish that it comes from. -/
structure Outpost (Client : Type) where
  network : Network Client Unit
  started : Bool
  link : Link
  taken : Nat
  localMark : Option (Client × Nat)
  written : List (Frame × Option (Client × Nat))
  read : Nat
  peerMark : Option (Client × Nat)
  crossed : List (Frame × Option (Client × Nat))

/-- The two devices. -/
abbrev Pair (Client : Type) := Side → Outpost Client

/-- A step of a daemon or of its clients, the constructor of a link, and the two halves of a turn of
each loop. -/
inductive PairAction (Client : Type) where
  | daemon (side : Side) (action : DaemonAction Client)
  | start (side : Side)
  | localRead (side : Side)
  | localSend (side : Side)
  | peerRead (side : Side)
  | peerSend (side : Side)

def Outpost.localSend (outpost : Outpost Client) : Outpost Client :=
  match outpost.link.localPending, outpost.link.alive with
  | some frame, true =>
      { outpost with
        link := outpost.link.localSend
        written := outpost.written ++ [(frame, outpost.localMark)] }
  | _, _ => outpost

/-- The read of `peer_loop` from what the link of the other device has written. -/
def Outpost.peerRead (config : LinkConfig) (outpost far : Outpost Client) : Outpost Client :=
  match outpost.link.peerPending, outpost.link.alive && outpost.started && far.started,
      far.written[outpost.read]? with
  | none, true, some (frame, mark) =>
      if frame.isBounded then
        { outpost with
          link := outpost.link.peerFrame config frame
          read := outpost.read + 1
          peerMark := mark }
      else { outpost with link := { outpost.link with alive := false } }
  | _, _, _ => outpost

variable [DecidableEq Client]

def Outpost.initial (config : LinkConfig) : Outpost Client where
  network := .initial
  started := false
  link := .start config
  taken := 0
  localMark := none
  written := [(config.hello, none)]
  read := 0
  peerMark := none
  crossed := []

/-- The steps of the daemon that the link does not make itself. A frame reaches it on an open
connection. -/
def Outpost.daemonStep (me : Client) (outpost : Outpost Client) :
    DaemonAction Client → Outpost Client
  | .arrive client frame =>
      if client = me then outpost
      else { outpost with network := outpost.network.write client frame }
  | action =>
      if action.isOf me then outpost
      else { outpost with network := outpost.network.daemonStep action }

/-- The constructor connects to the daemon and writes the subscriptions and the gets. -/
def Outpost.start (config : LinkConfig) (me : Client) (outpost : Outpost Client) :
    Outpost Client :=
  if outpost.started then outpost
  else
    { outpost with
      started := true
      network := config.startup.foldl (·.write me ·) (outpost.network.daemonStep (.connect me)) }

/-- The read of `local_loop`. -/
def Outpost.localRead (config : LinkConfig) (me : Client) (outpost : Outpost Client) :
    Outpost Client :=
  match outpost.link.localPending, outpost.link.alive && outpost.started,
      (outpost.network.wire me)[outpost.taken]? with
  | none, true, some (frame, mark) =>
      if frame.isBounded then
        { outpost with
          link := { outpost.link with fromDaemon := [(false, frame)] }.localRead config
          taken := outpost.taken + 1
          localMark := mark }
      else { outpost with link := { outpost.link with alive := false } }
  | _, _, _ => outpost

/-- The write of `peer_loop` to the daemon. -/
def Outpost.peerSend (me : Client) (outpost : Outpost Client) : Outpost Client :=
  match outpost.link.peerPending with
  | some frame =>
      { outpost with
        network := outpost.network.write me frame
        link := { outpost.link with peerPending := none }
        crossed := if frame.isPublish && (outpost.network.daemon.life me).connected then
          outpost.crossed ++ [(frame, outpost.peerMark)] else outpost.crossed }
  | none => outpost

def Pair.initial (config : Side → LinkConfig) : Pair Client := fun side => .initial (config side)

def Pair.step (config : Side → LinkConfig) (me : Side → Client) (pair : Pair Client) :
    PairAction Client → Pair Client
  | .daemon side action => Function.update pair side ((pair side).daemonStep (me side) action)
  | .start side => Function.update pair side ((pair side).start (config side) (me side))
  | .localRead side => Function.update pair side ((pair side).localRead (config side) (me side))
  | .localSend side => Function.update pair side (pair side).localSend
  | .peerRead side =>
      Function.update pair side ((pair side).peerRead (config side) (pair side.other))
  | .peerSend side => Function.update pair side ((pair side).peerSend (me side))

end Chappe
