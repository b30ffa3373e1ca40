/-
This file lists what a step of a node, its threads and its daemon can do.
-/

import Chappe.Proof.Requests.Answers

namespace Chappe
open Foundation

variable {Thread Client : Type} [DecidableEq Thread] [DecidableEq Client]

/-- The possible steps, each with the place that it starts from and the state after it. -/
inductive Exchange.Move (exchange : Exchange Thread Client) : Exchange Thread Client → Prop where
  | stay : Move exchange exchange
  | call (thread : Thread) (request : Request) (here : exchange.caller thread = .idle) :
      Move exchange ({ exchange with nextReq := exchange.nextReq + 1 }.goto thread
        (.numbered request exchange.nextReq))
  | register (thread : Thread) (request : Request) (call : Nat)
      (here : exchange.caller thread = .numbered request call) :
      Move exchange ({ exchange with
        pending := exchange.pending.insert (wireId call) call }.goto thread (.parked request call))
  | send (thread : Thread) (request : Request) (call connection : Nat)
      (here : exchange.caller thread = .parked request call)
      (open_ : exchange.fd = some connection) :
      Move exchange ({ exchange.send connection (some call, request.frame call) with
        sentOn := exchange.sentOn.insert call connection }.goto thread (.waiting call))
  | refuse (thread : Thread) (request : Request) (call : Nat)
      (here : exchange.caller thread = .parked request call) :
      Move exchange (exchange.goto thread (.releasing call false))
  | take (thread : Thread) (call taken : Nat) (gaveUp : Bool)
      (here : exchange.caller thread = .releasing call gaveUp)
      (found : exchange.pending (wireId call) = some taken) :
      Move exchange ({ exchange with pending := exchange.pending.erase (wireId call) }.goto thread
        (.setting taken call gaveUp))
  | missed (thread : Thread) (call : Nat) (gaveUp : Bool)
      (here : exchange.caller thread = .releasing call gaveUp)
      (absent : exchange.pending (wireId call) = none) :
      Move exchange (exchange.fulfilled thread call gaveUp)
  | set (thread : Thread) (taken call : Nat) (gaveUp : Bool)
      (here : exchange.caller thread = .setting taken call gaveUp) :
      Move exchange ((exchange.setValue taken none).fulfilled thread call gaveUp)
  | ready (thread : Thread) (call : Nat) (value : Option Bytes)
      (here : exchange.caller thread = .waiting call) (known : value ∈ exchange.promise call) :
      Move exchange (exchange.ret thread call value)
  | timeout (thread : Thread) (call : Nat) (here : exchange.caller thread = .waiting call) :
      Move exchange (exchange.goto thread (.releasing call true))
  | post (connection : Nat) (msg : Msg) (name payload : Bytes)
      (open_ : exchange.fd = some connection) (kind : msg.isPost = true) :
      Move exchange (exchange.send connection (none, msg.frame name payload))
  | read (connection : Nat) (tag : Option Nat) (frame : Frame) (rest : List (Option Nat × Frame))
      (id : Nat) (value : Option Bytes) (here : exchange.reader = .reading connection)
      (next : exchange.unread connection = (tag, frame) :: rest)
      (fulfills : frame.fulfills = some (id, value)) :
      Move exchange { exchange with
        unread := Function.update exchange.unread connection rest
        reader := .answering connection tag id value }
  | skip (connection : Nat) (tag : Option Nat) (frame : Frame) (rest : List (Option Nat × Frame))
      (here : exchange.reader = .reading connection)
      (next : exchange.unread connection = (tag, frame) :: rest) :
      Move exchange { exchange with
        unread := Function.update exchange.unread connection rest
        reader := .reading connection }
  | claim (connection : Nat) (tag : Option Nat) (id taken : Nat) (value : Option Bytes)
      (here : exchange.reader = .answering connection tag id value)
      (found : exchange.pending id = some taken) :
      Move exchange { exchange with
        pending := exchange.pending.erase id
        reader := .setting connection taken value }
  | ignore (connection : Nat) (tag : Option Nat) (id : Nat) (value : Option Bytes)
      (here : exchange.reader = .answering connection tag id value) :
      Move exchange { exchange with reader := .reading connection }
  | settle (connection taken : Nat) (value : Option Bytes)
      (here : exchange.reader = .setting connection taken value) :
      Move exchange { exchange.setValue taken value with reader := .reading connection }
  | drop (connection : Nat) (here : exchange.reader = .reading connection) :
      Move exchange { exchange with reader := .closing connection }
  | close (connection : Nat) (here : exchange.reader = .closing connection) :
      Move exchange { exchange with fd := none, reader := .clearing connection }
  | clear (connection : Nat) (here : exchange.reader = .clearing connection) :
      Move exchange { exchange with reader := .failing connection }
  | fail (connection : Nat) (here : exchange.reader = .failing connection) :
      Move exchange { exchange with
        pending := .empty
        promise := fun call =>
          if exchange.pending (wireId call) = some call then exchange.promise call ++ [none]
          else exchange.promise call
        reader := .dialing }
  | dial (here : exchange.reader = .dialing) :
      Move exchange { exchange with
        fd := some exchange.connections
        connections := exchange.connections + 1
        reader := .reading exchange.connections }
  | serve (connection : Nat) (tag : Option Nat) (frame : Frame) (rest : List (Option Nat × Frame))
      (now later : Nat) (text : Bytes)
      (next : exchange.uplink connection = (tag, frame) :: rest) :
      Move exchange (Exchange.write
        { exchange with uplink := Function.update exchange.uplink connection rest }
        (answerFrame exchange.store connection now later text frame) (some connection) tag)
  | push (result : Store (Nat ⊕ Client) × Outbox (Nat ⊕ Client))
      (quiet : ∀ connection, ∀ frame ∈ result.2 (.inl connection), frame.fulfills = none) :
      Move exchange (exchange.write result none none)
  | remove (store : Store (Nat ⊕ Client)) : Move exchange { exchange with store := store }

variable {exchange : Exchange Thread Client}

theorem threadStep_move (thread : Thread) (written timeout : Bool) :
    exchange.Move (exchange.threadStep thread written timeout) := by
  unfold Exchange.threadStep
  cases here : exchange.caller thread with
  | idle => exact .stay
  | numbered request call => exact .register thread request call here
  | parked request call =>
      dsimp only
      split
      · rename_i connection open_
        exact .send thread request call connection here open_
      · exact .refuse thread request call here
  | releasing call gaveUp =>
      dsimp only
      split
      · rename_i taken found
        exact .take thread call taken gaveUp here found
      · rename_i absent
        exact .missed thread call gaveUp here absent
  | setting taken call gaveUp => exact .set thread taken call gaveUp here
  | waiting call =>
      dsimp only
      split
      · rename_i value rest known
        exact .ready thread call value here (known ▸ List.mem_cons_self)
      · split
        · exact .timeout thread call here
        · exact .stay

theorem readerStep_move : exchange.Move exchange.readerStep := by
  unfold Exchange.readerStep
  cases here : exchange.reader with
  | reading connection =>
      dsimp only
      split
      · exact .stay
      · rename_i tag frame rest next
        cases fulfills : frame.fulfills with
        | none => exact .skip connection tag frame rest here next
        | some answer => exact .read connection tag frame rest answer.1 answer.2 here next fulfills
  | answering connection tag id value =>
      dsimp only
      split
      · rename_i taken found
        exact .claim connection tag id taken value here found
      · exact .ignore connection tag id value here
  | setting connection taken value => exact .settle connection taken value here
  | closing connection => exact .close connection here
  | clearing connection => exact .clear connection here
  | failing connection => exact .fail connection here
  | dialing => exact .dial here

theorem step_move (action : ExchangeAction Thread Client) :
    exchange.Move (exchange.step action) := by
  cases action with
  | call thread request =>
      simp only [Exchange.step]
      split
      · exact .call thread request ‹_›
      · exact .stay
  | thread thread written timeout => exact threadStep_move thread written timeout
  | post msg name payload =>
      simp only [Exchange.step]
      split
      · rename_i connection open_ kind
        exact .post connection msg name payload open_ kind
      · exact .stay
  | reader => exact readerStep_move
  | drop =>
      simp only [Exchange.step]
      split
      · exact .drop _ ‹_›
      · exact .stay
  | serve connection now later text =>
      simp only [Exchange.step]
      split
      · exact .stay
      · rename_i tag frame rest next
        exact .serve connection tag frame rest now later text next
  | client client frame now later =>
      refine .push _ ?_
      intro connection sent member
      by_contra completes
      obtain ⟨answer, fulfills⟩ := Option.ne_none_iff_exists'.mp completes
      cases (handleFrame_fulfills member fulfills).1
  | sweep order now =>
      refine .push _ ?_
      intro connection sent member
      obtain ⟨_, pushed⟩ := sweep_frames member
      exact pushed.not_fulfills
  | publish connection name payload =>
      refine .push _ ?_
      intro other sent member
      rw [(mem_sendTo member).1]
      rfl
  | removeClient connection => exact .remove _

end Chappe
