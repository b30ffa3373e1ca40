/-
This file proves that the threads of a daemon take its mutexes in one order.
-/

import Chappe.Construction.Server

namespace Chappe.Server
open Foundation

variable {Client : Type}

/-- The mutex of the sweep comes first and the `send_mu` of the clients last. -/
def Mutex.rank : Mutex Client → Nat
  | .sweep => 0
  | .clients | .subs | .retained | .kv => 1
  | .send _ => 2

/-- The mutexes that a thread holds, the last one first. -/
abbrev Stack (Client : Type) := List (Mutex Client × Mode)

/-- The mutexes that a thread holds at an operation. -/
def Op.Fits (held : Stack Client) : Op Client → Prop
  | .lock mutex _ => ∀ other ∈ held, other.1.rank < mutex.rank
  | .unlock mutex => ∃ mode rest, held = (mutex, mode) :: rest
  | .write client _ | .closeFd client | .shutFd client =>
      ∃ rest, held = (.send client, .exclusive) :: rest
  | .subscribe _ _ | .unsubscribe _ _ | .leaveTopics _ => held = [(.subs, .exclusive)]
  | .snapshot _ _ => held = [(.subs, .shared)]
  | .replay _ _ | .retain _ => held = [(.retained, .exclusive)]
  | .request _ _ | .leaveKeys _ => held = [(.kv, .exclusive)]
  | .sweepKeys _ => held = [(.kv, .exclusive), (.sweep, .exclusive)]
  | .inquire _ _ inquiry => held = [inquiryLock inquiry]
  | .eraseClient _ | .enlist _ | .shutClients => held = [(.clients, .exclusive)]
  | .sweepLoop | .recheck | .notify => held = [(.sweep, .exclusive)]
  | _ => held = []

/-- The mutexes that are still held where the code goes on. Some operations go on to an unlock of
their own. -/
def Op.after (held : Stack Client) : Op Client → Stack Client
  | .lock mutex mode => (mutex, mode) :: held
  | .unlock _ | .replay _ _ | .snapshot _ _ | .inquire _ _ _ | .sweepLoop | .recheck => held.tail
  | _ => held

/-- The thread whose code has the operation. -/
def Op.role : Op Client → Option (Worker Client)
  | .start client | .loop client _ | .next client _ | .subscribe client _ | .unsubscribe client _
  | .replay client _ | .snapshot client _ | .request client _ | .inquire client _ _
  | .leaveTopics client | .leaveKeys client | .closeFd client | .eraseClient client =>
      some (.reader client)
  | .acceptLoop | .accept | .reap | .enlist _ => some .accept
  | .sweepLoop | .doze | .recheck | .sweepKeys _ => some .sweep
  | .destroyed | .stop | .notify | .join _ | .shutListen | .closeListen | .shutClients | .shutFd _
  | .clearReaders | .unlink => some .owner
  | .finish worker => some worker
  | .lock _ _ | .unlock _ | .retain _ | .write _ _ => none

/-- The code takes and releases the mutexes in order, from those that the thread holds. -/
def Follows (worker : Worker Client) : Stack Client → Code Client → Prop
  | held, [] => held = []
  | held, op :: rest =>
      op.Fits held ∧ (∀ role ∈ op.role, worker = role) ∧ Follows worker (op.after held) rest

variable {worker : Worker Client} {held : Stack Client} {rest : Code Client} {client : Client}

/-- The writes of a thread lock and unlock the clients one after the other. -/
theorem follows_sends (low : ∀ other ∈ held, other.1.rank < 2)
    (goesOn : Follows worker held rest) (writes : List (Client × Frame)) :
    Follows worker held (sends writes ++ rest) := by
  induction writes with
  | nil => exact goesOn
  | cons write writes ih =>
      refine ⟨low, by simp [Op.role], ⟨held, rfl⟩, by simp [Op.role], ⟨.exclusive, held, rfl⟩, ?_⟩
      exact ⟨by simp [Op.role], ih⟩

theorem follows_removeClient (goesOn : Follows (.reader client) [] rest) :
    Follows (.reader client) [] (removeClient client ++ rest) := by
  simp [removeClient, Follows, Op.Fits, Op.after, Op.role, Mutex.rank, goesOn]

theorem follows_handleFrame (frame : Frame) (goesOn : Follows (.reader client) [] rest) :
    Follows (.reader client) [] (handleFrame client frame ++ rest) := by
  unfold handleFrame
  split
  · split
    · simp [Follows, Op.Fits, Op.after, Op.role, goesOn]
    · simp [Follows, Op.Fits, Op.after, Op.role, goesOn]
  · simp [Follows, Op.Fits, Op.after, Op.role, goesOn]
  · simp [Follows, Op.Fits, Op.after, Op.role, goesOn]
  · simp [Follows, Op.Fits, Op.after, Op.role, goesOn]
  · exact follows_sends (by simp) goesOn _
  · split
    · exact goesOn
    · simp [Follows, Op.Fits, Op.after, Op.role, goesOn, inquiryLock]
  · split
    · simp [Follows, Op.Fits, Op.after, Op.role, goesOn]
    · exact goesOn

theorem follows_afterInquiry (result : Report × Inquiry)
    (goesOn : Follows (.reader client) [] rest) :
    Follows (.reader client) [] (afterInquiry client result ++ rest) := by
  obtain ⟨report, inquiry⟩ := result
  unfold afterInquiry
  cases inquiry with
  | reply => exact follows_sends (by simp) goesOn _
  | clients => simp [Follows, Op.Fits, Op.after, Op.role, goesOn, inquiryLock]
  | topics => simp [Follows, Op.Fits, Op.after, Op.role, goesOn, inquiryLock]
  | retained => simp [Follows, Op.Fits, Op.after, Op.role, goesOn, inquiryLock]
  | keys => simp [Follows, Op.Fits, Op.after, Op.role, goesOn, inquiryLock]

theorem follows_joins (goesOn : Follows .owner [] rest) (clients : List Client) :
    Follows .owner [] (joins clients ++ rest) := by
  induction clients with
  | nil => exact goesOn
  | cons first others ih => exact ⟨rfl, by simp [Op.role], ih⟩

theorem follows_shutdowns (goesOn : Follows .owner [(.clients, .exclusive)] rest)
    (clients : List Client) :
    Follows .owner [(.clients, .exclusive)] (shutdowns clients ++ rest) := by
  induction clients with
  | nil => exact goesOn
  | cons first others ih =>
      refine ⟨by simp [Op.Fits, Mutex.rank], by simp [Op.role], ⟨_, rfl⟩, by simp [Op.role],
        ⟨.exclusive, _, rfl⟩, ?_⟩
      exact ⟨by simp [Op.role], ih⟩

variable [LinearOrder Client] {config : Config} {choice : Choice} {state : State Client}

/-- What may follow at a step of the code. -/
def Sequel (worker : Worker Client) (held : Stack Client) :
    Instr (Mutex Client) (State Client) (Code Client) → Prop
  | .halt | .await => held = []
  | .lock mutex mode next =>
      (∀ other ∈ held, other.1.rank < mutex.rank) ∧ Follows worker ((mutex, mode) :: held) next
  | .unlock mutex next => ∃ mode rest, held = (mutex, mode) :: rest ∧ Follows worker rest next
  | .act _ next => Follows worker held next

theorem follows_next {number : Nat} {failed : Bool} (goesOn : Follows (.reader client) [] rest) :
    Sequel (.reader client) [] (state.next client number failed rest) := by
  unfold State.next
  split
  · exact follows_removeClient goesOn
  · split
    · split
      · exact follows_removeClient goesOn
      · rfl
    · split
      · exact follows_removeClient goesOn
      · exact follows_handleFrame _ ⟨rfl, by simp [Op.role], goesOn⟩

theorem follows_accept (goesOn : Follows .accept [] rest) :
    Sequel .accept [] (state.accept config choice rest) := by
  have again : Follows .accept [] (.acceptLoop :: rest) := ⟨rfl, by simp [Op.role], goesOn⟩
  unfold State.accept
  split
  · exact again
  · exact again
  · split
    · rfl
    · split
      · exact again
      · split
        · simp [Sequel, admission, Follows, Op.Fits, Op.after, Op.role, goesOn]
        · exact again

/-- Every step of code that takes the mutexes in order leaves such code. -/
theorem follows_decode {code : Code Client} (follows : Follows worker held code) :
    Sequel worker held (decode config choice state code) := by
  cases code with
  | nil => exact follows
  | cons op rest =>
      obtain ⟨fits, role, goesOn⟩ := follows
      cases op with
      | lock mutex mode => exact ⟨fits, goesOn⟩
      | unlock mutex =>
          obtain ⟨mode, lower, rfl⟩ := fits
          exact ⟨mode, lower, rfl, goesOn⟩
      | finish _ => exact goesOn
      | start client =>
          obtain rfl : held = [] := fits
          simp only [decode]
          split
          · exact ⟨rfl, role, goesOn⟩
          · rfl
      | loop client number =>
          obtain rfl : held = [] := fits
          obtain rfl := role _ rfl
          simp only [decode]
          split
          · exact ⟨rfl, role, goesOn⟩
          · exact follows_removeClient goesOn
      | next client number =>
          obtain rfl : held = [] := fits
          obtain rfl := role _ rfl
          exact follows_next goesOn
      | replay client topic =>
          obtain rfl : held = [(.retained, .exclusive)] := fits
          exact ⟨⟨_, _, rfl⟩, by simp [Op.role], follows_sends (by simp [Op.after]) goesOn _⟩
      | snapshot client frame =>
          obtain rfl : held = [(.subs, .shared)] := fits
          exact ⟨⟨_, _, rfl⟩, by simp [Op.role], follows_sends (by simp [Op.after]) goesOn _⟩
      | request client frame =>
          obtain rfl : held = [(.kv, .exclusive)] := fits
          exact follows_sends (by simp [Op.after, Mutex.rank]) goesOn _
      | inquire client report inquiry =>
          obtain rfl : held = [inquiryLock inquiry] := fits
          obtain rfl := role _ rfl
          exact ⟨⟨_, _, rfl⟩, by simp [Op.role], follows_afterInquiry _ goesOn⟩
      | sweepKeys read =>
          obtain rfl : held = [(.kv, .exclusive), (.sweep, .exclusive)] := fits
          exact follows_sends (by simp [Op.after, Mutex.rank]) goesOn _
      | acceptLoop =>
          obtain rfl : held = [] := fits
          obtain rfl := role _ rfl
          simp only [decode]
          split
          · exact ⟨rfl, by simp [Op.role], goesOn⟩
          · exact ⟨rfl, by simp [Op.role], goesOn⟩
      | accept =>
          obtain rfl : held = [] := fits
          obtain rfl := role _ rfl
          exact follows_accept goesOn
      | sweepLoop =>
          obtain rfl : held = [(.sweep, .exclusive)] := fits
          obtain rfl := role _ rfl
          simp only [decode]
          split
          · simpa [Sequel, Follows, Op.Fits, Op.after, Op.role] using goesOn
          · simpa [Sequel, Follows, Op.Fits, Op.after, Op.role] using goesOn
      | recheck =>
          obtain rfl : held = [(.sweep, .exclusive)] := fits
          obtain rfl := role _ rfl
          simp only [decode]
          split
          · simpa [Sequel, Follows, Op.Fits, Op.after, Op.role, Mutex.rank] using goesOn
          · simpa [Sequel, Follows, Op.Fits, Op.after, Op.role] using goesOn
      | destroyed =>
          obtain rfl : held = [] := fits
          simp only [decode]
          split
          · exact goesOn
          · rfl
      | join other =>
          obtain rfl : held = [] := fits
          simp only [decode]
          split
          · exact goesOn
          · rfl
      | shutClients =>
          obtain rfl : held = [(.clients, .exclusive)] := fits
          obtain rfl := role _ rfl
          exact follows_shutdowns goesOn _
      | clearReaders =>
          obtain rfl : held = [] := fits
          obtain rfl := role _ rfl
          exact follows_joins goesOn _
      | subscribe _ _ | unsubscribe _ _ | retain _ | write _ _ | leaveTopics _ | leaveKeys _
      | closeFd _ | eraseClient _ | reap | enlist _ | doze | stop | notify | shutListen
      | closeListen | shutFd _ | unlink => exact goesOn

theorem sequel_of_decode {code : Code Client}
    {instr : Instr (Mutex Client) (State Client) (Code Client)}
    (decoded : (machine config).decode choice state code = instr)
    (follows : Follows worker held code) : Sequel worker held instr := by
  rw [← decoded]
  exact follows_decode follows

/-- The threads of the daemon follow the order of their mutexes. -/
theorem server_discipline : Discipline (machine config) Mutex.rank
    (Follows : Worker Client → Stack Client → Code Client → Prop) where
  halt := sequel_of_decode
  await := sequel_of_decode
  lock := sequel_of_decode
  unlock := sequel_of_decode
  act := sequel_of_decode

omit [LinearOrder Client] in
/-- When the constructor returns, no thread holds a mutex. -/
theorem initial_follows (worker : Worker Client) : Follows worker [] (initialCode worker) := by
  cases worker with
  | owner => simp [initialCode, destructor, Follows, Op.Fits, Op.after, Op.role]
  | accept => simp [initialCode, Follows, Op.Fits, Op.after, Op.role]
  | sweep => simp [initialCode, Follows, Op.Fits, Op.after, Op.role]
  | reader client => simp [initialCode, Follows, Op.Fits, Op.after, Op.role]

/-- In every run the threads stay in order. -/
theorem server_orderly (config : Config) (actions : List (Action Client)) :
    Orderly Mutex.rank Follows (run (System.step config) System.initial actions) := by
  refine run_invariant (fun _ action orderly => orderly.step server_discipline action) actions _ ?_
  refine ⟨fun worker => ⟨[], initial_follows worker, by simp [System.initial], .nil⟩, ?_⟩
  intro lock first member
  cases member

omit [LinearOrder Client] in
theorem rank_le (mutex : Mutex Client) : mutex.rank ≤ 2 := by
  cases mutex with
  | sweep | clients | subs | retained | kv | send => simp [Mutex.rank]

/-- In every state of every run, whatever the system calls return next, no thread waits for itself
over the mutexes of other threads. A thread that waits for a mutex waits, over some others, for a
thread that holds a mutex and can take its next step. A thread that waits for a peer, for another
thread or for its owner holds no mutex. -/
theorem server_never_deadlocks (config : Config) (actions : List (Action Client))
    (choice : Worker Client → Choice) (worker : Worker Client) :
    let system := run (System.step config) System.initial actions
    let blocks := (machine config).Blocks choice system
    ¬ Relation.TransGen blocks worker worker ∧
    (∀ mutex, (machine config).Wants choice system worker mutex →
      ¬ (machine config).Enabled system worker (choice worker) →
      ∃ other, Relation.TransGen blocks other worker ∧
        (machine config).Enabled system other (choice other) ∧
        ∃ held mode, (other, mode) ∈ system.holders held ∧ mutex.rank ≤ held.rank) ∧
    (decode config (choice worker) system.data (system.code worker) = .await →
      ∀ mutex mode, (worker, mode) ∉ system.holders mutex) := by
  intro system blocks
  have orderly := server_orderly config actions
  refine ⟨orderly.acyclic server_discipline, ?_, orderly.awaits_free server_discipline⟩
  intro mutex wanted refused
  exact orderly.waits_for_mover server_discipline rank_le wanted refused

end Chappe.Server
