/-
This file embeds `_request`, `_fulfill` and `_fail_pending` of `chappe/__init__.py` for one Python
node: its application threads and its reader thread. The frames of the daemon are arbitrary.
-/

import Chappe.Construction.PythonNode
import Chappe.Construction.Requests
import Mathlib.Data.Finmap

namespace Chappe.PythonRequests
open Foundation

/-- The table `_pending` has the call whose future is parked under an identifier. -/
abbrev Pending := Finmap fun _ : Nat => Nat

/-- The identifier and the value that a frame is passed to `_fulfill` with. -/
def fulfills (frame : PythonFrame) : Fulfilled :=
  match frame.msg with
  | some .kvReply | some .kvResult =>
      if frame.payload.length < 5 then none
      else some (ofLittleEndian (frame.payload.take 4),
        if frame.payload.getD 4 0 ≠ 0 then some (frame.payload.drop 5) else none)
  | some .pong =>
      if frame.payload.length < 4 then none
      else some (ofLittleEndian (frame.payload.take 4), none)
  | some .info =>
      if frame.payload.length < 4 then none
      else some (ofLittleEndian (frame.payload.take 4), some (frame.payload.drop 4))
  | _ => none

/-- The exceptions that leave `_request`: `Future.result` raises after its timeout, and
`struct.pack` for a length that four bytes cannot hold. -/
inductive Error where
  | timeoutError
  | structError
  deriving DecidableEq

/-- The place of an application thread in `_request`. -/
inductive Caller where
  | idle
  | numbered (request : Request) (call : Nat)
  | parked (request : Request) (call : Nat)
  | releasing (call : Nat)
  | setting (taken call : Nat)
  | waiting (call : Nat)

/-- The call that the thread is in. -/
def Caller.call : Caller → Option Nat
  | .idle => none
  | .numbered _ call | .parked _ call | .releasing call | .setting _ call | .waiting call =>
      some call

/-- The place of the reader thread in `_run`. -/
inductive Reader where
  | reading
  | fulfilling (id : Nat) (value : Option Bytes)
  | setting (taken : Nat) (value : Option Bytes)
  | closing
  | clearing
  | failing (left : Pending)
  | dialing
  | dialed
  | opened
  | stopped

/-- One node. The field `registered` lists the calls of `_register`, the newest first. -/
structure Node (Thread : Type) where
  ids : Nat
  pending : Pending
  result : Table Nat (Option Bytes)
  caller : Thread → Caller
  reader : Reader
  connected : Bool
  running : Bool
  registered : List Nat
  outcome : Table Nat (Except Error (Option Bytes))

/-- A frame whose exception has no handler crashes the reader thread. -/
inductive Action (Thread : Type) where
  | call (thread : Thread) (request : Request)
  | thread (thread : Thread) (written timeout : Bool)
  | receive (frame : PythonFrame)
  | hangUp
  | crash
  | reader (chosen : Nat) (dialed : Bool)
  | close
  | closed

variable {Thread : Type}

/-- The node has just connected. -/
def initial : Node Thread where
  ids := 1
  pending := ∅
  result := .empty
  caller := fun _ => .idle
  reader := .reading
  connected := true
  running := true
  registered := []
  outcome := .empty

/-- The payload is the identifier and the rest of the request. -/
def requestFrame (request : Request) (call : Nat) : Option Bytes :=
  pythonSend request.msg.toByte request.name (littleEndian 4 (wireId call) ++ request.extra)

/-- The table drops the identifier. -/
def Node.pop (node : Node Thread) (id : Nat) : Node Thread :=
  { node with pending := node.pending.erase id }

/-- A future that is done keeps its result. -/
def Node.setResult (node : Node Thread) (call : Nat) (value : Option Bytes) : Node Thread :=
  match node.result call with
  | none => { node with result := node.result.insert call value }
  | some _ => node

variable [DecidableEq Thread]

def Node.goto (node : Node Thread) (thread : Thread) (place : Caller) : Node Thread :=
  { node with caller := Function.update node.caller thread place }

def Node.finish (node : Node Thread) (thread : Thread) (call : Nat)
    (outcome : Except Error (Option Bytes)) : Node Thread :=
  { node with outcome := node.outcome.insert call outcome }.goto thread .idle

/-- The next step of `_request`. The socket can refuse the frame, and the wait can time out. -/
def Node.threadStep (node : Node Thread) (thread : Thread) (written timeout : Bool) :
    Node Thread :=
  match node.caller thread with
  | .idle => node
  | .numbered request call =>
      { node with
        pending := node.pending.insert (wireId call) call
        registered := call :: node.registered }.goto thread (.parked request call)
  | .parked request call =>
      match requestFrame request call with
      | none => node.finish thread call (.error .structError)
      | some _ =>
          node.goto thread
            (if node.connected = true ∧ written = true then .waiting call else .releasing call)
  | .releasing call =>
      match node.pending.lookup (wireId call) with
      | some taken => (node.pop (wireId call)).goto thread (.setting taken call)
      | none => node.goto thread (.waiting call)
  | .setting taken call => (node.setResult taken none).goto thread (.waiting call)
  | .waiting call =>
      match node.result call with
      | some value => node.finish thread call (.ok value)
      | none => if timeout then node.finish thread call (.error .timeoutError) else node

/-- The next step of `_run` outside of a read. The futures that `_fail_pending` took are set one
after the other. -/
def Node.readerStep (node : Node Thread) (chosen : Nat) (dialed : Bool) : Node Thread :=
  match node.reader with
  | .reading | .stopped => node
  | .fulfilling id value =>
      match node.pending.lookup id with
      | some taken => { node.pop id with reader := .setting taken value }
      | none => { node with reader := .reading }
  | .setting taken value => { node.setResult taken value with reader := .reading }
  | .closing => { node with connected := false, reader := .clearing }
  | .clearing => { node with pending := ∅, reader := .failing node.pending }
  | .failing left =>
      match left.lookup chosen with
      | some taken => { node.setResult taken none with reader := .failing (left.erase chosen) }
      | none =>
          if left.keys = ∅ then
            { node with reader := if node.running then .dialing else .stopped }
          else node
  | .dialing =>
      { node with
        reader := if node.running then (if dialed then .dialed else .dialing) else .stopped }
  | .dialed => { node with connected := true, reader := .opened }
  | .opened => { node with reader := if node.running then .reading else .stopped }

def step (node : Node Thread) : Action Thread → Node Thread
  | .call thread request =>
      match node.caller thread with
      | .idle => { node with ids := node.ids + 1 }.goto thread (.numbered request node.ids)
      | _ => node
  | .thread thread written timeout => node.threadStep thread written timeout
  | .receive frame =>
      match node.reader, fulfills frame with
      | .reading, some (id, value) => { node with reader := .fulfilling id value }
      | _, _ => node
  | .hangUp =>
      match node.reader with
      | .reading => { node with reader := .closing }
      | _ => node
  | .crash =>
      match node.reader with
      | .reading => { node with reader := .stopped }
      | _ => node
  | .reader chosen dialed => node.readerStep chosen dialed
  | .close => { node with running := false }
  | .closed =>
      match node.reader with
      | .stopped => { node with connected := false }
      | _ => node

end Chappe.PythonRequests
