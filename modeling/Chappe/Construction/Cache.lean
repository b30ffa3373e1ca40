/-
This file embeds the read-through cache of `node.hpp` and the bus of one daemon and its nodes.
-/

import Chappe.Construction.Kv

namespace Chappe
open Foundation

/-- The tables `kv_cache_`, `kv_watched_` and `pending_` of a node. -/
structure NodeKv where
  cache : Table Bytes Bytes
  watched : Finset Bytes
  pending : Finset Nat

def NodeKv.empty : NodeKv := ⟨.empty, ∅, ∅⟩

/-- The request that a frame completes and the value that its caller gets. -/
abbrev Fulfilled := Option (Nat × Option Bytes)

/-- Only a request that is still registered gets an answer. -/
def NodeKv.fulfill (node : NodeKv) (id : Nat) (value : Option Bytes) : NodeKv × Fulfilled :=
  if id ∈ node.pending then
    ({ node with pending := node.pending.erase id }, some (id, value))
  else (node, none)

/-- The value of an answer `[u32 id][u8 flag][value]`. -/
def answerValue (payload : Bytes) : Option Bytes :=
  if payload.getD 4 0 ≠ 0 then some (payload.drop 5) else none

/-- The request id at the start of an answer. -/
def answerId (payload : Bytes) : Nat := ofLittleEndian (payload.take 4)

def NodeKv.handleKvReply (node : NodeKv) (frame : Frame) : NodeKv × Fulfilled :=
  if frame.payload.length < 5 then (node, none)
  else
    let stored : NodeKv :=
      { node with
        watched := insert frame.name node.watched
        cache := match answerValue frame.payload with
          | some value => node.cache.insert frame.name value
          | none => node.cache.erase frame.name }
    stored.fulfill (answerId frame.payload) (answerValue frame.payload)

def NodeKv.handleKvUpdate (node : NodeKv) (frame : Frame) : NodeKv :=
  { node with
    watched := insert frame.name node.watched
    cache := node.cache.insert frame.name frame.payload }

/-- One frame of `read_until_closed`. A publish goes to the handlers and not to these tables. -/
def NodeKv.readFrame (node : NodeKv) (frame : Frame) : NodeKv × Fulfilled :=
  match frame.msg with
  | some .kvReply => node.handleKvReply frame
  | some .kvUpdate => (node.handleKvUpdate frame, none)
  | some .kvResult =>
      if frame.payload.length < 5 then (node, none)
      else node.fulfill (answerId frame.payload) (answerValue frame.payload)
  | some .kvDel => ({ node with cache := node.cache.erase frame.name }, none)
  | some .pong =>
      if frame.payload.length < 4 then (node, none)
      else node.fulfill (answerId frame.payload) none
  | some .info =>
      if frame.payload.length < 4 then (node, none)
      else node.fulfill (answerId frame.payload) (some (frame.payload.drop 4))
  | _ => (node, none)

/-- The first half of `get`. A watched key is answered from the cache, and any other key needs a
request to the daemon. -/
def NodeKv.get (node : NodeKv) (key : Bytes) : Option (Option Bytes) :=
  if key ∈ node.watched then some (node.cache key) else none

/-- The connection manager reads frames while the link is up, then closes the descriptor, then
clears the cache, and then connects again. -/
inductive LinkPhase where
  | down
  | up
  | closing
  deriving DecidableEq

/-- A connection of the daemon is open until a write to it fails, and removed at the end of its
reader loop. -/
inductive Served where
  | open
  | shut
  | removed
  deriving DecidableEq

/-- The daemon knows each connection of a node as a client of its own. -/
abbrev Peer (Node : Type) := Node × Nat

/-- One daemon and its nodes. The channels hold the frames that are written and not yet read. -/
structure Bus (Node : Type) where
  store : Store (Peer Node)
  uplink : Peer Node → List Frame
  wire : Peer Node → List Frame
  served : Peer Node → Served
  node : Node → NodeKv
  epoch : Node → Nat
  phase : Node → LinkPhase

/-- The kinds that the daemon sends for reasons outside the store. -/
def Msg.isForeign (msg : Msg) : Bool := msg = .publish || msg = .pong || msg = .info

inductive BusAction (Node : Type) where
  | send (node : Node) (frame : Frame)
  | register (node : Node) (id : Nat)
  | giveUp (node : Node) (id : Nat)
  | handle (client : Peer Node) (now later : Nat) (room : Peer Node → Nat)
  | sweep (order : List Bytes) (now : Nat) (room : Peer Node → Nat)
  | push (client : Peer Node) (msg : Msg) (name payload : Bytes) (room : Peer Node → Nat)
  | removeClient (client : Peer Node)
  | deliver (node : Node)
  | closeFd (node : Node)
  | clearCache (node : Node)
  | failPending (node : Node)
  | connect (node : Node)

variable {Node : Type}

/-- The client of the current connection of a node. -/
def Bus.current (bus : Bus Node) (node : Node) : Peer Node := (node, bus.epoch node)

def Bus.initial : Bus Node where
  store := .empty
  uplink := fun _ => []
  wire := fun _ => []
  served := fun _ => .open
  node := fun _ => .empty
  epoch := fun _ => 0
  phase := fun _ => .down

variable [DecidableEq Node]

/-- The writes of one step. The socket of each client takes the given number of whole frames, and
`send_to` shuts a connection down when a write fails. -/
def Bus.write (bus : Bus Node) (outbox : Outbox (Peer Node)) (room : Peer Node → Nat) :
    Bus Node :=
  { bus with
    wire := fun client => if bus.served client = .open then
      bus.wire client ++ (outbox client).take (room client) else bus.wire client
    served := fun client => if bus.served client = .open ∧ room client < (outbox client).length then
      .shut else bus.served client }

/-- A step of the daemon on its store, followed by its writes. -/
def Bus.serve (bus : Bus Node) (result : Store (Peer Node) × Outbox (Peer Node))
    (room : Peer Node → Nat) : Bus Node :=
  Bus.write { bus with store := result.1 } result.2 room

def Bus.step (bus : Bus Node) : BusAction Node → Bus Node
  | .send node frame =>
      if bus.phase node = .up then
        { bus with
          uplink := Function.update bus.uplink (bus.current node)
            (bus.uplink (bus.current node) ++ [frame]) }
      else bus
  | .register node id =>
      { bus with
        node := Function.update bus.node node
          { bus.node node with pending := insert id (bus.node node).pending } }
  | .giveUp node id =>
      { bus with node := Function.update bus.node node ((bus.node node).fulfill id none).1 }
  | .handle client now later room =>
      match bus.uplink client, bus.served client with
      | [], _ | _, .removed => bus
      | frame :: rest, _ =>
          Bus.serve { bus with uplink := Function.update bus.uplink client rest }
            (bus.store.handleFrame now later client frame) room
  | .sweep order now room => bus.serve (bus.store.sweep now order) room
  | .push client msg name payload room =>
      if msg.isForeign ∧ client.2 ≤ bus.epoch client.1 then
        bus.write (.sendTo client (msg.frame name payload)) room
      else bus
  | .removeClient client =>
      { bus with
        store := bus.store.removeClient client
        served := Function.update bus.served client .removed }
  | .deliver node =>
      match bus.wire (bus.current node), bus.phase node with
      | frame :: rest, .up =>
          { bus with
            wire := Function.update bus.wire (bus.current node) rest
            node := Function.update bus.node node ((bus.node node).readFrame frame).1 }
      | _, _ => bus
  | .closeFd node =>
      if bus.phase node = .up then
        { bus with phase := Function.update bus.phase node .closing }
      else bus
  | .clearCache node =>
      if bus.phase node = .closing then
        { bus with
          phase := Function.update bus.phase node .down
          node := Function.update bus.node node
            { bus.node node with cache := .empty, watched := ∅ } }
      else bus
  | .failPending node =>
      { bus with node := Function.update bus.node node { bus.node node with pending := ∅ } }
  | .connect node =>
      if bus.phase node = .down then
        { bus with
          phase := Function.update bus.phase node .up
          epoch := Function.update bus.epoch node (bus.epoch node + 1) }
      else bus

end Chappe
