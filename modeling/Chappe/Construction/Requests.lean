/-
This file embeds `request`, `fulfill` and `fail_pending` of `node.hpp` for one node: its application
threads, its reader thread and the daemon that answers on the connections of the node.
-/

import Chappe.Construction.Cache

namespace Chappe
open Foundation

/-- What an application asks of the daemon. -/
structure Request where
  msg : Msg
  name : Bytes
  extra : Bytes

/-- The counter `next_req_` has 32 bits. -/
def wireId (call : Nat) : Nat := call % 2 ^ 32

/-- The frame of a request has its identifier first. -/
def Request.frame (request : Request) (call : Nat) : Frame :=
  request.msg.frame request.name (appendU32 [] (wireId call) ++ request.extra)

/-- The identifier and the value that a frame of the daemon is passed to `fulfill` with. -/
def Frame.fulfills (frame : Frame) : Option (Nat × Option Bytes) :=
  match frame.msg with
  | some .kvReply | some .kvResult =>
      if frame.payload.length < 5 then none
      else some (answerId frame.payload, answerValue frame.payload)
  | some .pong =>
      if frame.payload.length < 4 then none else some (answerId frame.payload, none)
  | some .info =>
      if frame.payload.length < 4 then none
      else some (answerId frame.payload, some (frame.payload.drop 4))
  | _ => none

/-- The kinds that a node sends and does not wait for. -/
def Msg.isPost : Msg → Bool
  | .subscribe | .unsubscribe | .publish | .publishRetain | .kvSet | .kvSetex | .kvDel => true
  | _ => false

/-- The place of an application thread in `request`. A thread that releases its promise is about to
look it up in `fulfill`, and one that sets it has taken it out of the table. Each does so to give
up, or because its frame was not sent. -/
inductive Caller where
  | idle
  | numbered (request : Request) (call : Nat)
  | parked (request : Request) (call : Nat)
  | releasing (call : Nat) (gaveUp : Bool)
  | setting (taken call : Nat) (gaveUp : Bool)
  | waiting (call : Nat)

/-- The place of the reader thread. The tag of an answer is the call that it was written for. -/
inductive ReaderPlace where
  | reading (connection : Nat)
  | answering (connection : Nat) (tag : Option Nat) (id : Nat) (value : Option Bytes)
  | setting (connection taken : Nat) (value : Option Bytes)
  | closing (connection : Nat)
  | clearing (connection : Nat)
  | failing (connection : Nat)
  | dialing

/-- One node with its daemon. Each call has its number, and its promise has the values that were
set. A frame has the call that it belongs to. -/
structure Exchange (Thread Client : Type) where
  store : Store (Nat ⊕ Client)
  nextReq : Nat
  pending : Table Nat Nat
  promise : Nat → List (Option Bytes)
  caller : Thread → Caller
  reader : ReaderPlace
  fd : Option Nat
  connections : Nat
  uplink : Nat → List (Option Nat × Frame)
  written : Nat → List (Option Nat × Frame)
  unread : Nat → List (Option Nat × Frame)
  sentOn : Table Nat Nat
  returned : Table Nat (Option Bytes)

inductive ExchangeAction (Thread Client : Type) where
  | call (thread : Thread) (request : Request)
  | thread (thread : Thread) (written timeout : Bool)
  | post (msg : Msg) (name payload : Bytes)
  | reader
  | drop
  | serve (connection now later : Nat) (text : Bytes)
  | client (client : Client) (frame : Frame) (now later : Nat)
  | sweep (order : List Bytes) (now : Nat)
  | publish (connection : Nat) (name payload : Bytes)
  | removeClient (connection : Nat)

variable {Thread Client : Type}

/-- The node has just connected. -/
def Exchange.initial (store : Store (Nat ⊕ Client)) : Exchange Thread Client where
  store := store
  nextReq := 0
  pending := .empty
  promise := fun _ => []
  caller := fun _ => .idle
  reader := .reading 0
  fd := some 0
  connections := 1
  uplink := fun _ => []
  written := fun _ => []
  unread := fun _ => []
  sentOn := .empty
  returned := .empty

/-- The frames of one step of the daemon. Those to the connection that asked belong to its call. -/
def Exchange.write [DecidableEq Client] (exchange : Exchange Thread Client)
    (result : Store (Nat ⊕ Client) × Outbox (Nat ⊕ Client)) (source : Option Nat)
    (tag : Option Nat) : Exchange Thread Client :=
  let tagged (connection : Nat) : List (Option Nat × Frame) :=
    (result.2 (.inl connection)).map fun frame =>
      (if source = some connection then tag else none, frame)
  { exchange with
    store := result.1
    written := fun connection => exchange.written connection ++ tagged connection
    unread := fun connection => exchange.unread connection ++ tagged connection }

/-- The cases of `handle_frame` that answer a node. The status text is an argument. -/
def answerFrame [DecidableEq Client] (store : Store (Nat ⊕ Client)) (connection now later : Nat)
    (text : Bytes) (frame : Frame) : Store (Nat ⊕ Client) × Outbox (Nat ⊕ Client) :=
  match frame.msg with
  | some .ping =>
      (store, .sendTo (.inl connection) (Msg.pong.frame frame.name frame.payload))
  | some .info =>
      (store, if frame.payload.length < 4 then .silent
        else .sendTo (.inl connection) (Msg.info.frame [] (frame.payload.take 4 ++ text)))
  | _ => store.handleFrame now later (.inl connection) frame

def Exchange.send (exchange : Exchange Thread Client) (connection : Nat)
    (entry : Option Nat × Frame) : Exchange Thread Client :=
  { exchange with
    uplink := Function.update exchange.uplink connection (exchange.uplink connection ++ [entry]) }

/-- The value is set once more on the promise of the call. -/
def Exchange.setValue (exchange : Exchange Thread Client) (call : Nat) (value : Option Bytes) :
    Exchange Thread Client :=
  { exchange with
    promise := Function.update exchange.promise call (exchange.promise call ++ [value]) }

def Exchange.goto [DecidableEq Thread] (exchange : Exchange Thread Client) (thread : Thread)
    (place : Caller) : Exchange Thread Client :=
  { exchange with caller := Function.update exchange.caller thread place }

/-- The end of a request. -/
def Exchange.ret [DecidableEq Thread] (exchange : Exchange Thread Client) (thread : Thread)
    (call : Nat) (value : Option Bytes) : Exchange Thread Client :=
  { exchange with returned := exchange.returned.insert call value }.goto thread .idle

/-- After `fulfill` a thread that gave up returns, and one whose frame was not sent waits. -/
def Exchange.fulfilled [DecidableEq Thread] (exchange : Exchange Thread Client) (thread : Thread)
    (call : Nat) (gaveUp : Bool) : Exchange Thread Client :=
  if gaveUp then exchange.ret thread call none else exchange.goto thread (.waiting call)

/-- The next step of an application thread. A write can fail, and a wait ends with a value or with a
timeout. -/
def Exchange.threadStep [DecidableEq Thread] (exchange : Exchange Thread Client) (thread : Thread)
    (written timeout : Bool) : Exchange Thread Client :=
  match exchange.caller thread with
  | .idle => exchange
  | .numbered request call =>
      { exchange with pending := exchange.pending.insert (wireId call) call }.goto thread
        (.parked request call)
  | .parked request call =>
      match exchange.fd, written with
      | some connection, true =>
          { exchange.send connection (some call, request.frame call) with
            sentOn := exchange.sentOn.insert call connection }.goto thread (.waiting call)
      | _, _ => exchange.goto thread (.releasing call false)
  | .releasing call gaveUp =>
      match exchange.pending (wireId call) with
      | some taken =>
          { exchange with pending := exchange.pending.erase (wireId call) }.goto thread
            (.setting taken call gaveUp)
      | none => exchange.fulfilled thread call gaveUp
  | .setting taken call gaveUp => (exchange.setValue taken none).fulfilled thread call gaveUp
  | .waiting call =>
      match exchange.promise call with
      | value :: _ => exchange.ret thread call value
      | [] => if timeout then exchange.goto thread (.releasing call true) else exchange

/-- The next step of the reader thread: the frames of a connection, then the critical sections that
take a lost link down, and the next connection. -/
def Exchange.readerStep (exchange : Exchange Thread Client) : Exchange Thread Client :=
  match exchange.reader with
  | .reading connection =>
      match exchange.unread connection with
      | [] => exchange
      | (tag, frame) :: rest =>
          { exchange with
            unread := Function.update exchange.unread connection rest
            reader := match frame.fulfills with
              | some (id, value) => .answering connection tag id value
              | none => .reading connection }
  | .answering connection _ id value =>
      match exchange.pending id with
      | some taken =>
          { exchange with
            pending := exchange.pending.erase id
            reader := .setting connection taken value }
      | none => { exchange with reader := .reading connection }
  | .setting connection taken value =>
      { exchange.setValue taken value with reader := .reading connection }
  | .closing connection => { exchange with fd := none, reader := .clearing connection }
  | .clearing connection => { exchange with reader := .failing connection }
  | .failing _ =>
      { exchange with
        pending := .empty
        promise := fun call =>
          if exchange.pending (wireId call) = some call then exchange.promise call ++ [none]
          else exchange.promise call
        reader := .dialing }
  | .dialing =>
      { exchange with
        fd := some exchange.connections
        connections := exchange.connections + 1
        reader := .reading exchange.connections }

variable [DecidableEq Thread] [DecidableEq Client]

def Exchange.step (exchange : Exchange Thread Client) :
    ExchangeAction Thread Client → Exchange Thread Client
  | .call thread request =>
      match exchange.caller thread with
      | .idle =>
          { exchange with nextReq := exchange.nextReq + 1 }.goto thread
            (.numbered request exchange.nextReq)
      | _ => exchange
  | .thread thread written timeout => exchange.threadStep thread written timeout
  | .post msg name payload =>
      match exchange.fd, msg.isPost with
      | some connection, true => exchange.send connection (none, msg.frame name payload)
      | _, _ => exchange
  | .reader => exchange.readerStep
  | .drop =>
      match exchange.reader with
      | .reading connection => { exchange with reader := .closing connection }
      | _ => exchange
  | .serve connection now later text =>
      match exchange.uplink connection with
      | [] => exchange
      | (tag, frame) :: rest =>
          Exchange.write
            { exchange with uplink := Function.update exchange.uplink connection rest }
            (answerFrame exchange.store connection now later text frame) (some connection) tag
  | .client client frame now later =>
      exchange.write (exchange.store.handleFrame now later (.inr client) frame) none none
  | .sweep order now => exchange.write (exchange.store.sweep now order) none none
  | .publish connection name payload =>
      exchange.write (exchange.store, .sendTo (.inl connection) (Msg.publish.frame name payload))
        none none
  | .removeClient connection =>
      { exchange with store := exchange.store.removeClient (.inl connection) }

end Chappe
