/-
This file embeds one link with the daemon that it serves and a peer that may send any bytes.
-/

import Chappe.Construction.Daemon
import Chappe.Construction.Link
import Chappe.Foundation.Run

namespace Chappe
open Foundation

variable {Client : Type}

/-- The state of a link, of its daemon and of its sockets. The reader has the socket of the peer,
the socket of the daemon is connected until it is shut down, and `peer_loop` has ended when it has
returned. The local loop has taken the given number of the frames that the daemon sent, and
`peer_loop` has written the given frames to the daemon. -/
structure Relay (Client : Type) where
  daemon : Daemon Client
  started : Bool
  link : Link
  reader : FrameReader
  connected : Bool
  ended : Bool
  taken : Nat
  written : List Frame

/-- The steps of the daemon, the constructor, a step of each loop, and the ways in which a link
goes down. A stop also stands for the end of `local_loop`. -/
inductive RelayAction (Client : Type) where
  | daemon (action : DaemonAction Client)
  | start
  | localLoop
  | peerLoop
  | stop
  | disconnect

def Relay.initial (config : LinkConfig) (socket : Socket) : Relay Client where
  daemon := .initial
  started := false
  link := .start config
  reader := .open socket
  connected := true
  ended := false
  taken := 0
  written := []

/-- The end of `peer_loop` stops the link and shuts down the socket of the daemon. -/
def Relay.finish (relay : Relay Client) : Relay Client :=
  { relay with
    link := { relay.link with alive := false }
    connected := false
    ended := true }

/-- One turn of `peer_loop` up to its write. The first frame is read in any case. -/
def Relay.peerRead (config : LinkConfig) (relay : Relay Client) : Relay Client :=
  if relay.link.vetted && !relay.link.alive then relay.finish
  else
    match relay.reader.next with
    | (none, reader) => { relay with reader := reader }.finish
    | (some frame, reader) =>
        let read :=
          { relay with reader := reader, link := relay.link.peerFrame config frame }
        if read.link.vetted then read else read.finish

variable [DecidableEq Client]

/-- The client itself makes the step, by its connection or its frames. -/
def DaemonAction.isOf (client : Client) : DaemonAction Client → Bool
  | .connect other => other = client
  | .arrive other _ => other = client
  | .thread _ _ _ _ _ | .hangUp _ | .sweep _ _ => false

/-- The constructor connects to the daemon and writes the subscriptions and the gets. -/
def Relay.start (config : LinkConfig) (me : Client) (relay : Relay Client) : Relay Client :=
  if relay.started then relay
  else
    { relay with
      started := true
      daemon := run Daemon.step (relay.daemon.step (.connect me))
        (config.startup.map (.arrive me)) }

/-- The next read or write of `local_loop`. A frame over the bound makes the reader return
false. -/
def Relay.localLoop (config : LinkConfig) (me : Client) (relay : Relay Client) : Relay Client :=
  match relay.link.localPending, (relay.daemon.broker.sent me)[relay.taken]? with
  | some _, _ => { relay with link := relay.link.localSend }
  | none, none => relay
  | none, some frame =>
      if frame.name.length ≤ maxFrameBytes ∧ frame.payload.length ≤ maxFrameBytes then
        { relay with
          taken := relay.taken + 1
          link := { relay.link with fromDaemon := [(false, frame)] }.localRead config }
      else { relay with link := { relay.link with alive := false } }

/-- The write of `peer_loop` fails on a socket that is shut down, and the loop goes on. -/
def Relay.peerWrite (me : Client) (relay : Relay Client) (frame : Frame) : Relay Client :=
  if relay.connected then
    { relay with
      daemon := relay.daemon.step (.arrive me frame)
      link := { relay.link with peerPending := none }
      written := relay.written ++ [frame] }
  else { relay with link := { relay.link with peerPending := none } }

def Relay.peerLoop (config : LinkConfig) (me : Client) (relay : Relay Client) : Relay Client :=
  match relay.link.peerPending with
  | some frame => relay.peerWrite me frame
  | none => relay.peerRead config

def Relay.step (config : LinkConfig) (me : Client) (relay : Relay Client) :
    RelayAction Client → Relay Client
  | .daemon action =>
      if action.isOf me then relay else { relay with daemon := relay.daemon.step action }
  | .start => relay.start config me
  | .localLoop =>
      if relay.started && relay.link.alive then relay.localLoop config me else relay
  | .peerLoop =>
      if relay.started && !relay.ended then relay.peerLoop config me else relay
  | .stop => { relay with link := { relay.link with alive := false } }
  | .disconnect => { relay with connected := false }

end Chappe
