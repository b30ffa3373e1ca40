/-
This file embeds any number of devices, of which those that are neighbours in a graph are joined by
a pair of links.
-/

import Chappe.Construction.LinkPair
import Mathlib.Combinatorics.SimpleGraph.Basic

namespace Chappe
open Foundation

variable {Device User : Type}

/-- A client of a daemon is the link to another device or a user. -/
abbrev MeshClient (Device User : Type) := Device ⊕ User

/-- The process `chappe_link` of a device without the daemon that it serves. -/
structure Gate (Client : Type) where
  started : Bool
  link : Link
  taken : Nat
  localMark : Option (Client × Nat)
  written : List (Frame × Option (Client × Nat))
  read : Nat
  peerMark : Option (Client × Nat)
  crossed : List (Frame × Option (Client × Nat))

/-- The daemons of the devices, and the link of each device to each neighbour. -/
structure Mesh (Device User : Type) where
  network : Device → Network (MeshClient Device User) Unit
  gate : Device → Device → Gate (MeshClient Device User)

/-- The steps of the daemons with their users, and those of the links. -/
inductive MeshAction (Device User : Type) where
  | daemon (device : Device) (action : DaemonAction (MeshClient Device User))
  | start (near far : Device)
  | localRead (near far : Device)
  | localSend (near far : Device)
  | peerRead (near far : Device)
  | peerSend (near far : Device)

def Outpost.gate {Client : Type} (outpost : Outpost Client) : Gate Client where
  started := outpost.started
  link := outpost.link
  taken := outpost.taken
  localMark := outpost.localMark
  written := outpost.written
  read := outpost.read
  peerMark := outpost.peerMark
  crossed := outpost.crossed

def Gate.outpost {Client : Type} (gate : Gate Client) (network : Network Client Unit) :
    Outpost Client where
  network := network
  started := gate.started
  link := gate.link
  taken := gate.taken
  localMark := gate.localMark
  written := gate.written
  read := gate.read
  peerMark := gate.peerMark
  crossed := gate.crossed

/-- A link of a device with the daemon of the device. -/
def Mesh.outpost (mesh : Mesh Device User) (near far : Device) :
    Outpost (MeshClient Device User) := (mesh.gate near far).outpost (mesh.network near)

/-- The link itself makes the step. -/
def DaemonAction.isLink : DaemonAction (MeshClient Device User) → Bool
  | .connect client | .arrive client _ => client.isLeft
  | .thread _ _ _ _ _ | .hangUp _ | .sweep _ _ => false

variable [DecidableEq Device] [DecidableEq User]

def Mesh.initial (config : Device → Device → LinkConfig) : Mesh Device User where
  network := fun _ => .initial
  gate := fun near far => (Outpost.initial (config near far)).gate

/-- A frame reaches the daemon on an open connection. -/
def Network.serve {Client : Type} [DecidableEq Client] (network : Network Client Unit) :
    DaemonAction Client → Network Client Unit
  | .arrive client frame => network.write client frame
  | action => network.daemonStep action

def Mesh.serve (mesh : Mesh Device User) (device : Device)
    (action : DaemonAction (MeshClient Device User)) : Mesh Device User :=
  { mesh with
    network := Function.update mesh.network device ((mesh.network device).serve action) }

def Mesh.put (mesh : Mesh Device User) (near far : Device)
    (outpost : Outpost (MeshClient Device User)) : Mesh Device User where
  network := Function.update mesh.network near outpost.network
  gate := Function.update mesh.gate near (Function.update (mesh.gate near) far outpost.gate)

/-- A link takes a step with its own daemon. There is one to each neighbour. -/
def Mesh.move (graph : SimpleGraph Device) [DecidableRel graph.Adj] (mesh : Mesh Device User)
    (near far : Device) (moved : Outpost (MeshClient Device User)) : Mesh Device User :=
  if graph.Adj near far then mesh.put near far moved else mesh

def Mesh.step (graph : SimpleGraph Device) [DecidableRel graph.Adj]
    (config : Device → Device → LinkConfig) (mesh : Mesh Device User) :
    MeshAction Device User → Mesh Device User
  | .daemon device action =>
      if action.isLink then mesh else mesh.serve device action
  | .start near far =>
      mesh.move graph near far ((mesh.outpost near far).start (config near far) (.inl far))
  | .localRead near far =>
      mesh.move graph near far ((mesh.outpost near far).localRead (config near far) (.inl far))
  | .localSend near far => mesh.move graph near far (mesh.outpost near far).localSend
  | .peerRead near far =>
      mesh.move graph near far
        ((mesh.outpost near far).peerRead (config near far) (mesh.outpost far near))
  | .peerSend near far =>
      mesh.move graph near far ((mesh.outpost near far).peerSend (.inl far))

end Chappe
