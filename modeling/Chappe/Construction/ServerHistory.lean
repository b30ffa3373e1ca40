/-
This file says what the threads of a daemon do to its store and which frames they take from a
connection, step by step, and what the store alone would send to each client for it.
-/

import Chappe.Construction.Server

namespace Chappe
open Foundation

/-- What a step of a thread takes from a connection, or does to the store under `kv_mu_`. -/
inductive Deed (Client : Type) where
  | take (client : Client) (frame : Frame)
  | request (client : Client) (frame : Frame) (now later : Nat)
  | sweep (order : List Bytes) (read : Nat)
  | forget (client : Client)

variable {Client : Type}

/-- The store takes each of its steps at once, with everything that it sends. -/
def Store.deed [DecidableEq Client] (store : Store Client) :
    Deed Client → Store Client × Outbox Client
  | .take _ _ => (store, .silent)
  | .request client frame now later => store.handleFrame now later client frame
  | .sweep order read => store.sweep read order
  | .forget client => (store.removeClient client, .silent)

/-- What the store sends to a client over a history. -/
def outputs [DecidableEq Client] (client : Client) (deeds : List (Deed Client)) : List Frame :=
  (trace Store.deed .empty deeds).flatMap fun outbox => outbox client

/-- The frames that the reader of a client takes. -/
def taken [DecidableEq Client] (client : Client) (deeds : List (Deed Client)) : List Frame :=
  deeds.filterMap fun
    | .take source frame => if source = client then some frame else none
    | _ => none

/-- The frames of a client that the store runs. -/
def requested [DecidableEq Client] (client : Client) (deeds : List (Deed Client)) : List Frame :=
  deeds.filterMap fun
    | .request source frame _ _ => if source = client then some frame else none
    | _ => none

/-- The kinds of frames that only the store sends. -/
def Frame.ofStore (frame : Frame) : Bool :=
  frame.msg = some .kvReply || frame.msg = some .kvUpdate || frame.msg = some .kvResult ||
    frame.msg = some .kvDel

/-- The frame is a request to the store. -/
def Frame.isRequest (frame : Frame) : Bool := (KvRequest.ofFrame frame).isSome

/-- An answer by its kind, its name and the identifier that it repeats. -/
abbrev Ticket := Msg × Bytes × Bytes

/-- The answer to a request to the store. -/
def KvRequest.ticket (key : Bytes) : KvRequest → Option Ticket
  | .get id => some (.kvReply, key, littleEndian 4 id)
  | .incr id _ | .setnx id _ _ => some (.kvResult, key, littleEndian 4 id)
  | .set _ | .setex _ _ | .del => none

/-- The answer that a client may expect of a frame. -/
def Frame.asks (frame : Frame) : Option Ticket :=
  match frame.msg with
  | some .ping => some (.pong, frame.name, frame.payload)
  | some .info =>
      if frame.payload.length < 4 then none else some (.info, [], frame.payload.take 4)
  | _ => (KvRequest.ofFrame frame).bind fun request => request.ticket frame.name

/-- The answer that a frame of the daemon is. -/
def Frame.answers (frame : Frame) : Option Ticket :=
  match frame.msg with
  | some .pong => some (.pong, frame.name, frame.payload)
  | some .info => some (.info, frame.name, frame.payload.take 4)
  | some .kvReply => some (.kvReply, frame.name, frame.payload.take 4)
  | some .kvResult => some (.kvResult, frame.name, frame.payload.take 4)
  | _ => none

/-- The client has subscribed to the topic of a publish, or has asked for the key of a change. -/
def Frame.Wanted (frame : Frame) (taken : List Frame) : Prop :=
  (frame.msg = some .publish ∧ ∃ earlier ∈ taken, earlier.msg = some .subscribe ∧
    topicMatches earlier.name frame.name = true) ∨
  ((frame.msg = some .kvUpdate ∨ frame.msg = some .kvDel) ∧ ∃ earlier ∈ taken,
    earlier.msg = some .kvGet ∧ earlier.name = frame.name)

namespace Server

/-- What the next operation of a thread does. -/
def State.deed (state : State Client) (choice : Choice) : Code Client → List (Deed Client)
  | .next _ number :: _ =>
      match state.sockets number with
      | none => []
      | some peer =>
          match state.inbox peer with
          | [] => []
          | frame :: _ =>
              if choice.failed ∨ frame.isBounded = false then [] else [.take peer frame]
  | .request client frame :: _ => [.request client frame choice.now choice.later]
  | .sweepKeys read :: _ => [.sweep choice.order read]
  | .leaveKeys client :: _ => [.forget client]
  | _ => []

def System.deeds (system : System Client) : Action Client → List (Deed Client)
  | .outside _ => []
  | .go worker choice => system.data.deed choice (system.code worker)

/-- The frame that a step of a peer sends over its connection. -/
def System.arrivals [DecidableEq Client] (client : Client) (system : System Client) :
    Action Client → List Frame
  | .outside (.arrive source frame) =>
      if source = client ∧ system.data.shut source = false then [frame] else []
  | _ => []

/-- The frames of the store that have been written to the connection of a client. -/
def State.stored (state : State Client) (client : Client) : List Frame :=
  ((state.sent client).map Prod.snd).filter fun frame => frame.ofStore

/-- The answers that have been written to the connection of a client. -/
def State.answered (state : State Client) (client : Client) : List Ticket :=
  (state.sent client).filterMap fun write => write.2.answers

end Server

end Chappe
