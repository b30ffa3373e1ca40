/-
This file embeds a daemon and its nodes with a record of the frames that the daemon has handled, of
the answers that it has written and of the changes that it has performed. It says when the `sync` of
a node has returned.
-/

import Chappe.Construction.Cache
import Chappe.Construction.Network
import Chappe.Construction.Performed

namespace Chappe
open Foundation

variable {Client Handler : Type}

/-- A change of the store with the frame that performs it, which is given by its client and its
number among the frames of this client. A sweep has no frame. -/
structure Recorded (Client : Type) where
  change : Change
  cause : Option (Client × Nat)

/-- A network with the frames of each client that the daemon has taken, with the frame that each
frame on the way to a client answers, and with the changes of the store. -/
structure Fleet (Client Handler : Type) where
  network : Network Client Handler
  handled : Client → List Frame
  answers : Client → List (Option Nat)
  changes : List (Recorded Client)

/-- The frame that `client_loop` passes to `handle_frame` in a step. -/
def Daemon.takes (daemon : Daemon Client) : DaemonAction Client → Option (Client × Frame)
  | .thread client _ _ _ _ =>
      match daemon.life client, daemon.broker.thread client, daemon.broker.inbox client with
      | .serving, .idle, frame :: _ => some (client, frame)
      | _, _, _ => none
  | _ => none

/-- The client waits for its status report. -/
def Life.reports : Life → Bool
  | .reporting _ _ => true
  | _ => false

/-- The thread is between two critical sections of a publish or a subscription. -/
def Thread.working : Thread Client → Bool
  | .idle => false
  | _ => true

/-- The thread of the client is still in `handle_frame`. -/
def Daemon.busy (daemon : Daemon Client) (client : Client) : Bool :=
  (daemon.life client).reports || (daemon.broker.thread client).working

def Network.takes (network : Network Client Handler) :
    NetworkAction Client Handler → Option (Client × Frame)
  | .daemon action => network.daemon.takes action
  | _ => none

/-- The frames that the client has written, in order. -/
def Fleet.sent (fleet : Fleet Client Handler) (client : Client) : List Frame :=
  fleet.handled client ++ fleet.network.daemon.broker.inbox client

/-- The number of frames of the client that the daemon has handled to the end. -/
def Fleet.finished (fleet : Fleet Client Handler) (client : Client) : Nat :=
  (fleet.handled client).length - if fleet.network.daemon.busy client then 1 else 0

/-- The tables of a node whose reader has passed the given frames to `read_until_closed`. -/
def NodeKv.readFrames (node : NodeKv) (frames : List Frame) : NodeKv :=
  frames.foldl (fun node frame => (node.readFrame frame).1) node

/-- The key and value tables of a node, which its reader fills with the frames that it takes. -/
def Fleet.kv (fleet : Fleet Client Handler) (client : Client) : NodeKv :=
  NodeKv.empty.readFrames
    (((fleet.network.wire client).take (fleet.network.node client).taken).map Prod.fst)

/-- The `sync` of a node whose PING is the frame of the given number has its PONG: the reader has
taken what the daemon wrote to answer this frame. -/
def Fleet.Synced (fleet : Fleet Client Handler) (client : Client) (number : Nat) : Prop :=
  ∃ ping place, (fleet.sent client)[number]? = some ping ∧ ping.msg = some .ping ∧
    (fleet.answers client)[place]? = some (some number) ∧
    place < (fleet.network.node client).taken

/-- The `get` of a node whose KV_GET is the frame of the given number has its KV_REPLY, which
carries the value. -/
def Fleet.Replied (fleet : Fleet Client Handler) (client : Client) (number : Nat) (key : Bytes)
    (found : Option Bytes) : Prop :=
  ∃ request reply place cause, (fleet.sent client)[number]? = some request ∧
    request.msg = some .kvGet ∧ request.name = key ∧
    (fleet.answers client)[place]? = some (some number) ∧
    place < (fleet.network.node client).taken ∧
    (fleet.network.wire client)[place]? = some (reply, cause) ∧ reply.msg = some .kvReply ∧
    found = answerValue reply.payload

/-- The publishes that the client has written before its frame of the given number. Those that the
daemon had taken at the start are left out. -/
def Fleet.published (fleet start : Fleet Client Handler) (client : Client) (number : Nat) :
    List Frame :=
  (((fleet.sent client).take number).drop (start.handled client).length).filter Frame.isPublish

/-- The value that a `set` with or without a time to live gives to its key. -/
def Frame.stores (frame : Frame) : Option Bytes :=
  match KvRequest.ofFrame frame with
  | some (.set value) | some (.setex _ value) => some value
  | _ => none

/-- The value is the one that was set, or one that a later write, deletion or expiry has left. -/
def Left (key value : Bytes) (later : List (Recorded Client)) (found : Option Bytes) : Prop :=
  found = some value ∨ ∃ entry ∈ later, entry.change.key = key ∧ found = entry.change.apply none

/-- The handler in its table. -/
def Node.registered (node : Node Client Handler) (handler : Registration) : Option Handler :=
  (((if handler.pattern then node.patternSubs else node.subs).lookup handler.name).getD [])[
    handler.place]?

/-- The calls of a client that drop the handlers of the name. -/
def NetworkAction.Drops (client : Client) (name : Bytes) :
    NetworkAction Client Handler → Prop
  | .unsubscribe actor topic => actor = client ∧ topic = name
  | .unsubscribePattern actor pattern => actor = client ∧ pattern = name
  | _ => False

variable [DecidableEq Client]

/-- The frame that is taken, if the client has written it. -/
def takenFrom (client : Client) : Option (Client × Frame) → List Frame
  | some (actor, frame) => if actor = client then [frame] else []
  | none => []

/-- The changes of the store that the daemon performs in a step. -/
def Daemon.performs (daemon : Daemon Client) : DaemonAction Client → List Change
  | .thread client target order now later =>
      match daemon.takes (.thread client target order now later) with
      | some (_, frame) => daemon.store.performed now frame
      | none => []
  | .sweep order read =>
      daemon.store.sweepPerformed read (order.filter fun key => daemon.store.expired key read)
  | _ => []

def Network.performs (network : Network Client Handler) :
    NetworkAction Client Handler → List Change
  | .daemon action => network.daemon.performs action
  | _ => []

def Fleet.initial : Fleet Client Handler where
  network := .initial
  handled := fun _ => []
  answers := fun _ => []
  changes := []

/-- The frame that is handled in a step, with its number. -/
def Fleet.cause (fleet : Fleet Client Handler) (action : NetworkAction Client Handler) :
    Option (Client × Nat) :=
  (fleet.network.takes action).map fun taken => (taken.1, (fleet.handled taken.1).length)

/-- The frame of the client that is handled in a step. -/
def Fleet.taken (fleet : Fleet Client Handler) (client : Client)
    (action : NetworkAction Client Handler) : List Frame :=
  takenFrom client (fleet.network.takes action)

/-- The frame of the client that the frames of a step to this client answer. -/
def Fleet.answering (fleet : Fleet Client Handler) (client : Client)
    (action : NetworkAction Client Handler) : Option Nat :=
  if fleet.taken client action = [] then none else some (fleet.handled client).length

/-- A step of the network, which is recorded. -/
def Fleet.step (accepts : Handler → Bytes → Bool) (fleet : Fleet Client Handler)
    (action : NetworkAction Client Handler) : Fleet Client Handler :=
  let next := fleet.network.step accepts action
  { network := next
    handled := fun client => fleet.handled client ++ fleet.taken client action
    answers := fun client => fleet.answers client ++
      List.replicate ((next.wire client).length - (fleet.network.wire client).length)
        (fleet.answering client action)
    changes := fleet.changes ++
      (fleet.network.performs action).map fun change => ⟨change, fleet.cause action⟩ }

/-- The fleet after a run in which every client begins without a connection. -/
def Fleet.after (accepts : Handler → Bytes → Bool)
    (actions : List (NetworkAction Client Handler)) : Fleet Client Handler :=
  run (Fleet.step accepts) .initial actions

end Chappe
