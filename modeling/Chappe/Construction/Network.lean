/-
This file embeds a daemon with the nodes of `node.hpp` that are connected to it. A node without a
pool calls its handlers on the thread that reads from the daemon.
-/

import Chappe.Construction.Daemon
import Chappe.Construction.Subscription

namespace Chappe
open Foundation

variable {Client Handler : Type}

/-- A handler is given by its table, the name that it is registered under and its place there. -/
structure Registration where
  pattern : Bool
  name : Bytes
  place : Nat
  deriving DecidableEq

/-- A call of a handler with the topic and the bytes, and the publish that caused it. -/
structure Invocation (Client : Type) where
  handler : Registration
  topic : Bytes
  payload : Bytes
  cause : Option (Client × Nat)

/-- The pub/sub part of a node. The threads of the node are about to send the unsent frames, and the
reader has taken the given number of frames from the daemon. -/
structure Node (Client Handler : Type) where
  subs : Handlers Bytes Handler
  patternSubs : Handlers Bytes Handler
  unsent : List Frame
  taken : Nat
  calls : List (Invocation Client)

/-- A publish of a client, as `handle_frame` sees it. -/
def Frame.isPublish (frame : Frame) : Bool :=
  frame.msg = some .publish || frame.msg = some .publishRetain

/-- A daemon and its nodes. Each frame on the way to a node is marked with the publish that the
daemon routes by it: its client, and its number among the publishes of this client. The list
`routed` records the publishes of each client that the daemon has begun to route. -/
structure Network (Client Handler : Type) where
  daemon : Daemon Client
  node : Client → Node Client Handler
  wire : Client → List (Frame × Option (Client × Nat))
  routed : Client → List Frame

/-- The steps of the daemon, the two parts of each call on a node, its other frames, and the next
frame that a node reads. The order is the one in which the hash table of the node lists its
patterns. -/
inductive NetworkAction (Client Handler : Type) where
  | daemon (action : DaemonAction Client)
  | subscribe (client : Client) (topic : Bytes) (handler : Handler)
  | subscribePattern (client : Client) (pattern : Bytes) (handler : Handler)
  | unsubscribe (client : Client) (topic : Bytes)
  | unsubscribePattern (client : Client) (pattern : Bytes)
  | send (client : Client) (place : Nat)
  | publish (client : Client) (topic payload : Bytes) (retain : Bool)
  | request (client : Client) (frame : Frame)
  | read (client : Client) (order : List Bytes)

/-- The part of `dispatch` for the exact handlers of the topic, whose codec may refuse the bytes. -/
def Node.exactCalls (accepts : Handler → Bytes → Bool) (node : Node Client Handler)
    (topic payload : Bytes) (cause : Option (Client × Nat)) : List (Invocation Client) :=
  (((node.subs.lookup topic).getD []).zipIdx.filter fun entry => accepts entry.1 payload).map
    fun entry => ⟨⟨false, topic, entry.2⟩, topic, payload, cause⟩

/-- The part of `dispatch` for the handlers of one pattern. -/
def Node.patternCalls (node : Node Client Handler) (topic payload : Bytes)
    (cause : Option (Client × Nat)) (pattern : Bytes) : List (Invocation Client) :=
  if topicMatches pattern topic then
    ((node.patternSubs.lookup pattern).getD []).zipIdx.map
      fun entry => ⟨⟨true, pattern, entry.2⟩, topic, payload, cause⟩
  else []

def Node.dispatch (accepts : Handler → Bytes → Bool) (node : Node Client Handler)
    (order : List Bytes) (topic payload : Bytes) (cause : Option (Client × Nat)) :
    List (Invocation Client) :=
  node.exactCalls accepts topic payload cause ++
    order.flatMap (node.patternCalls topic payload cause)

/-- One frame of `read_until_closed`, as far as it concerns publishes. -/
def Node.read (accepts : Handler → Bytes → Bool) (node : Node Client Handler)
    (wire : List (Frame × Option (Client × Nat))) (order : List Bytes) : Node Client Handler :=
  match wire[node.taken]? with
  | none => node
  | some (frame, cause) =>
      if frame.msg = some .publish then
        if (order : Multiset Bytes) = node.patternSubs.keys.val then
          { node with
            taken := node.taken + 1
            calls := node.calls ++ node.dispatch accepts order frame.name frame.payload cause }
        else node
      else { node with taken := node.taken + 1 }

variable [DecidableEq Client]

def Network.initial : Network Client Handler where
  daemon := .initial
  node := fun _ => ⟨∅, ∅, [], 0, []⟩
  wire := fun _ => []
  routed := fun _ => []

/-- The publish that the daemon begins to route in a step. -/
def Daemon.begins (daemon : Daemon Client) (client : Client) : DaemonAction Client → List Frame
  | .thread actor _ _ _ _ =>
      if actor = client then
        match daemon.life client, daemon.broker.thread client, daemon.broker.inbox client with
        | .serving, .idle, frame :: _ => if frame.isPublish then [frame] else []
        | _, _, _ => []
      else []
  | _ => []

/-- The client whose publish the daemon routes by the write of a step. -/
def Daemon.router (daemon : Daemon Client) : DaemonAction Client → Option Client
  | .thread actor target _ _ _ =>
      match daemon.life actor, daemon.broker.thread actor with
      | .serving, .routing _ _ _ remaining => if target ∈ remaining then some actor else none
      | _, _ => none
  | _ => none

/-- The publish that the daemon routes by the write of a step. -/
def Network.origin (network : Network Client Handler) (action : DaemonAction Client) :
    Option (Client × Nat) :=
  (network.daemon.router action).map fun actor => (actor, (network.routed actor).length)

/-- A step of the daemon, whose writes go to the nodes. -/
def Network.daemonStep (network : Network Client Handler) (action : DaemonAction Client) :
    Network Client Handler :=
  let next := network.daemon.step action
  { network with
    daemon := next
    wire := fun client => network.wire client ++
      ((next.broker.sent client).drop (network.daemon.broker.sent client).length).map
        fun frame => (frame, network.origin action)
    routed := fun client => network.routed client ++ network.daemon.begins client action }

/-- The function `send` writes to a node's connection, which is up after it was made. -/
def Network.write (network : Network Client Handler) (client : Client) (frame : Frame) :
    Network Client Handler :=
  if (network.daemon.life client).connected then
    { network with daemon := network.daemon.step (.arrive client frame) }
  else network

def Network.become (network : Network Client Handler) (client : Client)
    (node : Node Client Handler) : Network Client Handler :=
  { network with node := Function.update network.node client node }

/-- The locked part of a call that registers a handler. The first handler of a name has the daemon
told. -/
def Node.subscribe (node : Node Client Handler) (topic : Bytes) (handler : Handler) :
    Node Client Handler :=
  { node with
    subs := (node.subs.register topic handler).1
    unsent := if (node.subs.register topic handler).2 then
      node.unsent ++ [Msg.subscribe.frame topic []] else node.unsent }

def Node.subscribePattern (node : Node Client Handler) (pattern : Bytes) (handler : Handler) :
    Node Client Handler :=
  { node with
    patternSubs := (node.patternSubs.register pattern handler).1
    unsent := if (node.patternSubs.register pattern handler).2 then
      node.unsent ++ [Msg.subscribe.frame pattern []] else node.unsent }

/-- The locked part of a call that drops every handler of a name. -/
def Node.unsubscribe (node : Node Client Handler) (topic : Bytes) : Node Client Handler :=
  if topic ∈ node.subs then
    { node with
      subs := node.subs.erase topic
      unsent := node.unsent ++ [Msg.unsubscribe.frame topic []] }
  else node

def Node.unsubscribePattern (node : Node Client Handler) (pattern : Bytes) :
    Node Client Handler :=
  if pattern ∈ node.patternSubs then
    { node with
      patternSubs := node.patternSubs.erase pattern
      unsent := node.unsent ++ [Msg.unsubscribe.frame pattern []] }
  else node

/-- The frame of a publish or of `clear_retained`. -/
def publishFrame (topic payload : Bytes) (retain : Bool) : Frame :=
  if retain then Msg.publishRetain.frame topic payload else Msg.publish.frame topic payload

/-- The frame is about a subscription. -/
def Frame.isSubscription (frame : Frame) : Bool :=
  frame.msg = some .subscribe || frame.msg = some .unsubscribe

/-- One step of the daemon or of a node. The frames of the nodes are not sent by the daemon, and the
other requests are neither publishes nor subscriptions. -/
def Network.step (accepts : Handler → Bytes → Bool) (network : Network Client Handler) :
    NetworkAction Client Handler → Network Client Handler
  | .daemon (.arrive _ _) => network
  | .daemon action => network.daemonStep action
  | .subscribe client topic handler =>
      network.become client ((network.node client).subscribe topic handler)
  | .subscribePattern client pattern handler =>
      network.become client ((network.node client).subscribePattern pattern handler)
  | .unsubscribe client topic =>
      network.become client ((network.node client).unsubscribe topic)
  | .unsubscribePattern client pattern =>
      network.become client ((network.node client).unsubscribePattern pattern)
  | .send client place =>
      match (network.node client).unsent[place]? with
      | some frame =>
          (network.become client { network.node client with
            unsent := (network.node client).unsent.eraseIdx place }).write client frame
      | none => network
  | .publish client topic payload retain =>
      network.write client (publishFrame topic payload retain)
  | .request client frame =>
      if frame.isPublish || frame.isSubscription then network else network.write client frame
  | .read client order =>
      network.become client ((network.node client).read accepts (network.wire client) order)

end Chappe
