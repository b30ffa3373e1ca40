/-
This file proves when a node that is disconnected has nothing in its cache.
-/

import Chappe.Construction.Outage
import Chappe.Foundation.Run
import Chappe.Proof.Requests.Wires

namespace Chappe
open Foundation

variable {Thread Client : Type}

/-- The counter is above the number of every call that a promise, a table or a thread has. -/
structure Exchange.Issued (exchange : Exchange Thread Client) : Prop where
  pending : ∀ id call, exchange.pending id = some call → call < exchange.nextReq
  promise : ∀ call, exchange.promise call ≠ [] → call < exchange.nextReq
  caller : ∀ thread taken call gaveUp, exchange.caller thread = .setting taken call gaveUp →
    taken < exchange.nextReq
  reader : ∀ connection taken value, exchange.reader = .setting connection taken value →
    taken < exchange.nextReq

variable {exchange next : Exchange Thread Client}

theorem Exchange.Issued.initial (store : Store (Nat ⊕ Client)) :
    (Exchange.initial store : Exchange Thread Client).Issued where
  pending := by simp [Exchange.initial]
  promise := by simp [Exchange.initial]
  caller := by simp [Exchange.initial]
  reader := by simp [Exchange.initial]

/-- A step that issues no number and takes no promise. -/
theorem Exchange.Issued.mono (issued : exchange.Issued) (number : next.nextReq = exchange.nextReq)
    (pending : ∀ id call, next.pending id = some call → exchange.pending id = some call)
    (promise : ∀ call, next.promise call ≠ [] →
      exchange.promise call ≠ [] ∨ call < exchange.nextReq)
    (caller : ∀ thread taken call gaveUp, next.caller thread = .setting taken call gaveUp →
      taken < exchange.nextReq)
    (reader : ∀ connection taken value, next.reader = .setting connection taken value →
      taken < exchange.nextReq) : next.Issued where
  pending := fun id call found => number ▸ issued.pending id call (pending id call found)
  promise := fun call set => number ▸ (promise call set).elim (issued.promise call) id
  caller := fun thread taken call gaveUp here => number ▸ caller thread taken call gaveUp here
  reader := fun connection taken value here => number ▸ reader connection taken value here

theorem setValue_promise (exchange : Exchange Thread Client) (taken : Nat) (value : Option Bytes)
    (call : Nat) : (exchange.setValue taken value).promise call = exchange.promise call ∨
      call = taken ∧
        (exchange.setValue taken value).promise call = exchange.promise call ++ [value] := by
  by_cases here : call = taken
  · subst taken
    exact .inr ⟨rfl, Function.update_self ..⟩
  · exact .inl (Function.update_of_ne here ..)

theorem Exchange.Issued.setValue (issued : exchange.Issued) {taken : Nat}
    (below : taken < exchange.nextReq) (value : Option Bytes) :
    (exchange.setValue taken value).Issued := by
  refine issued.mono rfl (fun _ _ => id) ?_ issued.caller issued.reader
  intro call set
  rcases setValue_promise exchange taken value call with same | ⟨rfl, -⟩
  · exact .inl (same ▸ set)
  · exact .inr below

variable [DecidableEq Thread]

/-- A thread that goes to another place than the last part of `fulfill`. -/
theorem goto_setting (issued : exchange.Issued) (thread : Thread) {place : Caller}
    (other : ∀ taken call gaveUp, place = .setting taken call gaveUp → taken < exchange.nextReq)
    (actor : Thread) (taken call : Nat) (gaveUp : Bool)
    (here : (exchange.goto thread place).caller actor = .setting taken call gaveUp) :
    taken < exchange.nextReq := by
  by_cases mine : actor = thread
  · subst actor
    dsimp only [Exchange.goto] at here
    rw [Function.update_self] at here
    exact other taken call gaveUp here
  · dsimp only [Exchange.goto] at here
    rw [Function.update_of_ne mine] at here
    exact issued.caller actor taken call gaveUp here

theorem Exchange.Issued.goto (issued : exchange.Issued) (thread : Thread) {place : Caller}
    (other : ∀ taken call gaveUp, place = .setting taken call gaveUp →
      taken < exchange.nextReq) : (exchange.goto thread place).Issued :=
  issued.mono rfl (fun _ _ => id) (fun _ => .inl) (goto_setting issued thread other)
    issued.reader

theorem Exchange.Issued.fulfilled (issued : exchange.Issued) (thread : Thread) (call : Nat)
    (gaveUp : Bool) : (exchange.fulfilled thread call gaveUp).Issued := by
  unfold Exchange.fulfilled Exchange.ret
  split
  · have kept : { exchange with returned := exchange.returned.insert call none }.Issued :=
      ⟨issued.pending, issued.promise, issued.caller, issued.reader⟩
    exact kept.goto thread (by simp)
  · exact issued.goto thread (by simp)

variable [DecidableEq Client]

theorem Exchange.Issued.move (issued : exchange.Issued) (numbered : exchange.Numbered)
    (move : exchange.Move next) : next.Issued := by
  cases move with
  | stay => exact issued
  | call thread request here =>
      have later : { exchange with nextReq := exchange.nextReq + 1 }.Issued :=
        ⟨fun id call found => Nat.lt_succ_of_lt (issued.pending id call found),
          fun call set => Nat.lt_succ_of_lt (issued.promise call set),
          fun thread taken call gaveUp here =>
            Nat.lt_succ_of_lt (issued.caller thread taken call gaveUp here),
          fun connection taken value here =>
            Nat.lt_succ_of_lt (issued.reader connection taken value here)⟩
      exact later.goto thread (by simp)
  | register thread request call here =>
      have below := numbered.issued thread call (by rw [here]; rfl)
      have added : { exchange with
          pending := exchange.pending.insert (wireId call) call }.Issued := by
        refine ⟨?_, issued.promise, issued.caller, issued.reader⟩
        intro id other found
        dsimp only at found ⊢
        by_cases same : id = wireId call
        · subst id
          rw [Table.insert_self] at found
          cases found
          exact below
        · rw [Table.insert_of_ne _ _ same] at found
          exact issued.pending id other found
      exact added.goto thread (by simp)
  | send thread request call connection here open_ =>
      have sent : { exchange.send connection (some call, request.frame call) with
          sentOn := exchange.sentOn.insert call connection }.Issued :=
        ⟨issued.pending, issued.promise, issued.caller, issued.reader⟩
      exact sent.goto thread (by simp)
  | refuse thread request call here => exact issued.goto thread (by simp)
  | take thread call taken gaveUp here found =>
      have erased : { exchange with
          pending := exchange.pending.erase (wireId call) }.Issued :=
        issued.mono rfl (fun _ _ => Table.of_erase) (fun _ => .inl) issued.caller issued.reader
      apply erased.goto thread
      rintro _ _ _ ⟨⟩
      exact issued.pending _ _ found
  | missed thread call gaveUp here absent => exact issued.fulfilled thread call gaveUp
  | set thread taken call gaveUp here =>
      exact (issued.setValue (issued.caller thread taken call gaveUp here) none).fulfilled thread
        call gaveUp
  | ready thread call value here known =>
      have kept : { exchange with returned := exchange.returned.insert call value }.Issued :=
        ⟨issued.pending, issued.promise, issued.caller, issued.reader⟩
      exact kept.goto thread (by simp)
  | timeout thread call here => exact issued.goto thread (by simp)
  | post connection msg name payload open_ kind =>
      exact ⟨issued.pending, issued.promise, issued.caller, issued.reader⟩
  | read connection tag frame rest id value here next fulfills =>
      exact ⟨issued.pending, issued.promise, issued.caller, by simp⟩
  | skip connection tag frame rest here next =>
      exact ⟨issued.pending, issued.promise, issued.caller, by simp⟩
  | claim connection tag id taken value here found =>
      refine issued.mono rfl (fun _ _ => Table.of_erase) (fun _ => .inl) issued.caller ?_
      rintro _ _ _ ⟨⟩
      exact issued.pending id _ found
  | ignore connection tag id value here =>
      exact ⟨issued.pending, issued.promise, issued.caller, by simp⟩
  | settle connection taken value here =>
      have set := issued.setValue (issued.reader connection taken value here) value
      exact ⟨set.pending, set.promise, set.caller, by simp⟩
  | drop connection here => exact ⟨issued.pending, issued.promise, issued.caller, by simp⟩
  | close connection here => exact ⟨issued.pending, issued.promise, issued.caller, by simp⟩
  | clear connection here => exact ⟨issued.pending, issued.promise, issued.caller, by simp⟩
  | fail connection here =>
      refine issued.mono rfl (by simp) ?_ issued.caller (by simp)
      intro call set
      dsimp only at set
      split at set
      · rename_i found
        exact .inr (issued.pending _ _ found)
      · exact .inl set
  | dial here => exact ⟨issued.pending, issued.promise, issued.caller, by simp⟩
  | serve connection tag frame rest now later text next =>
      exact ⟨issued.pending, issued.promise, issued.caller, issued.reader⟩
  | push result quiet => exact ⟨issued.pending, issued.promise, issued.caller, issued.reader⟩
  | remove store => exact ⟨issued.pending, issued.promise, issued.caller, issued.reader⟩

omit [DecidableEq Client] in
/-- The end of `fulfill` concerns the thread alone. -/
theorem fulfilled_same (exchange : Exchange Thread Client) (thread : Thread) (call : Nat)
    (gaveUp : Bool) : (exchange.fulfilled thread call gaveUp).fd = exchange.fd ∧
      (exchange.fulfilled thread call gaveUp).reader = exchange.reader ∧
      (exchange.fulfilled thread call gaveUp).connections = exchange.connections ∧
      (exchange.fulfilled thread call gaveUp).promise = exchange.promise := by
  unfold Exchange.fulfilled
  split <;> exact ⟨rfl, rfl, rfl, rfl⟩

/-- The descriptor is the one of the connection that the reader is at. -/
theorem descriptor_move (follows : exchange.fd = exchange.reader.descriptor)
    (move : exchange.Move next) : next.fd = next.reader.descriptor := by
  have through {before after : ReaderPlace} (here : exchange.reader = before)
      (same : after.descriptor = before.descriptor) : exchange.fd = after.descriptor := by
    rw [follows, here, same]
  cases move with
  | missed thread call gaveUp here absent =>
      obtain ⟨fd, reader, -⟩ := fulfilled_same exchange thread call gaveUp
      rw [fd, reader]
      exact follows
  | set thread taken call gaveUp here =>
      obtain ⟨fd, reader, -⟩ := fulfilled_same (exchange.setValue taken none) thread call gaveUp
      rw [fd, reader]
      exact follows
  | read connection tag frame rest id value here next fulfills => exact through here rfl
  | skip connection tag frame rest here next => exact through here rfl
  | claim connection tag id taken value here found => exact through here rfl
  | ignore connection tag id value here => exact through here rfl
  | settle connection taken value here => exact through here rfl
  | drop connection here => exact through here rfl
  | close connection here => rfl
  | clear connection here => exact through here rfl
  | fail connection here => exact through here rfl
  | dial here => rfl
  | _ => exact follows

/-- A step makes a new connection, or a node without a descriptor stays without one. -/
theorem down_move (move : exchange.Move next) :
    next.connections = exchange.connections + 1 ∨
      next.connections = exchange.connections ∧ (exchange.fd = none → next.fd = none) := by
  cases move with
  | missed thread call gaveUp here absent =>
      obtain ⟨fd, -, connections, -⟩ := fulfilled_same exchange thread call gaveUp
      rw [fd, connections]
      exact .inr ⟨rfl, id⟩
  | set thread taken call gaveUp here =>
      obtain ⟨fd, -, connections, -⟩ :=
        fulfilled_same (exchange.setValue taken none) thread call gaveUp
      rw [fd, connections]
      exact .inr ⟨rfl, id⟩
  | close connection here => exact .inr ⟨rfl, fun _ => rfl⟩
  | dial here => exact .inl rfl
  | _ => exact .inr ⟨rfl, id⟩

/-- The promise has no value but the empty one. -/
def Exchange.Dark (exchange : Exchange Thread Client) (call : Nat) : Prop :=
  ∀ value ∈ exchange.promise call, value = none

omit [DecidableEq Thread] [DecidableEq Client] in
theorem Exchange.Dark.append {call : Nat} (dark : exchange.Dark call)
    (promise : next.promise call = exchange.promise call ∨
      next.promise call = exchange.promise call ++ [none]) : next.Dark call := by
  intro value member
  rcases promise with same | grown
  · exact dark value (same ▸ member)
  · rw [grown, List.mem_append] at member
    exact member.elim (dark value) List.mem_singleton.mp

/-- Nobody sets a value while the node has no descriptor. -/
theorem Exchange.Dark.move {call : Nat} (dark : exchange.Dark call)
    (follows : exchange.fd = exchange.reader.descriptor) (down : exchange.fd = none)
    (move : exchange.Move next) : next.Dark call := by
  cases move with
  | missed thread own gaveUp here absent =>
      obtain ⟨-, -, -, promise⟩ := fulfilled_same exchange thread own gaveUp
      exact dark.append (.inl (congrFun promise call))
  | set thread taken own gaveUp here =>
      obtain ⟨-, -, -, promise⟩ := fulfilled_same (exchange.setValue taken none) thread own gaveUp
      apply dark.append
      rw [promise]
      exact (setValue_promise exchange taken none call).imp_right And.right
  | settle connection taken value here =>
      rw [follows, here] at down
      cases down
  | fail connection here =>
      apply dark.append
      dsimp only
      split
      · exact .inr rfl
      · exact .inl rfl
  | _ => exact dark

omit [DecidableEq Client] in
theorem goto_caller_of_ne {thread other : Thread} (different : other ≠ thread)
    (exchange : Exchange Thread Client) (place : Caller) :
    (exchange.goto thread place).caller other = exchange.caller other :=
  Function.update_of_ne different ..

omit [DecidableEq Client] in
theorem goto_caller_self (exchange : Exchange Thread Client) (thread : Thread) (place : Caller) :
    (exchange.goto thread place).caller thread = place := Function.update_self ..

omit [DecidableEq Client] in
/-- A step of one thread leaves the others at their places. -/
theorem threadStep_caller_of_ne {thread other : Thread} (different : other ≠ thread)
    (exchange : Exchange Thread Client) (written timeout : Bool) :
    (exchange.threadStep thread written timeout).caller other = exchange.caller other := by
  have fulfilled (state : Exchange Thread Client) (call : Nat) (gaveUp : Bool) :
      (state.fulfilled thread call gaveUp).caller other = state.caller other := by
    unfold Exchange.fulfilled
    split <;> exact goto_caller_of_ne different ..
  unfold Exchange.threadStep
  split
  · rfl
  · exact goto_caller_of_ne different ..
  · split <;> exact goto_caller_of_ne different ..
  · split
    · exact goto_caller_of_ne different ..
    · exact fulfilled exchange _ _
  · exact fulfilled _ _ _
  · split
    · exact goto_caller_of_ne different ..
    · split
      · exact goto_caller_of_ne different ..
      · rfl

omit [DecidableEq Client] in
/-- A thread goes on with its call, or it returns a value of its promise or none. -/
theorem threadStep_call {thread : Thread} {call : Nat}
    (working : (exchange.caller thread).call = some call) (written timeout : Bool) :
    ((exchange.threadStep thread written timeout).caller thread).call = some call ∨
      (exchange.threadStep thread written timeout).caller thread = .idle ∧
        ∃ value, (exchange.threadStep thread written timeout).returned call = some value ∧
          (value = none ∨ value ∈ exchange.promise call) := by
  have fulfilled (state : Exchange Thread Client) (gaveUp : Bool) :
      ((state.fulfilled thread call gaveUp).caller thread).call = some call ∨
        (state.fulfilled thread call gaveUp).caller thread = .idle ∧
          ∃ value, (state.fulfilled thread call gaveUp).returned call = some value ∧
            (value = none ∨ value ∈ exchange.promise call) := by
    unfold Exchange.fulfilled
    split
    · exact .inr ⟨goto_caller_self .., none, Table.insert_self .., .inl rfl⟩
    · rw [goto_caller_self]
      exact .inl rfl
  unfold Exchange.threadStep
  cases place : exchange.caller thread with
  | idle =>
      rw [place] at working
      cases working
  | numbered request own =>
      rw [place] at working
      cases working
      dsimp only
      rw [goto_caller_self]
      exact .inl rfl
  | parked request own =>
      rw [place] at working
      cases working
      dsimp only
      split
      · rw [goto_caller_self]
        exact .inl rfl
      · rw [goto_caller_self]
        exact .inl rfl
  | releasing own gaveUp =>
      rw [place] at working
      cases working
      dsimp only
      split
      · rw [goto_caller_self]
        exact .inl rfl
      · exact fulfilled exchange gaveUp
  | setting taken own gaveUp =>
      rw [place] at working
      cases working
      exact fulfilled _ gaveUp
  | waiting own =>
      rw [place] at working
      cases working
      dsimp only
      split
      · rename_i value rest known
        refine .inr ⟨goto_caller_self .., value, Table.insert_self .., .inr ?_⟩
        rw [known]
        exact List.mem_cons_self
      · split
        · rw [goto_caller_self]
          exact .inl rfl
        · rw [place]
          exact .inl rfl

/-- The other steps leave a thread in its call. -/
theorem step_call {thread : Thread} {call : Nat}
    (working : (exchange.caller thread).call = some call) {action : ExchangeAction Thread Client}
    (other : ∀ written timeout, action ≠ .thread thread written timeout) :
    ((exchange.step action).caller thread).call = some call := by
  cases action with
  | call actor request =>
      simp only [Exchange.step]
      split
      · rename_i idle
        have different : thread ≠ actor := by
          rintro rfl
          rw [idle] at working
          cases working
        rw [goto_caller_of_ne different]
        exact working
      · exact working
  | thread actor written timeout =>
      have different : thread ≠ actor := by
        rintro rfl
        exact other written timeout rfl
      simp only [Exchange.step]
      rw [threadStep_caller_of_ne different]
      exact working
  | post msg name payload =>
      simp only [Exchange.step]
      split <;> exact working
  | reader =>
      simp only [Exchange.step, Exchange.readerStep]
      split
      · split <;> exact working
      · split <;> exact working
      all_goals exact working
  | drop =>
      simp only [Exchange.step]
      split <;> exact working
  | serve connection now later text =>
      simp only [Exchange.step]
      split <;> exact working
  | client client frame now later => exact working
  | sweep order now => exact working
  | publish connection name payload => exact working
  | removeClient connection => exact working

/-- Only the reader opens and closes the descriptor. -/
theorem step_fd {action : ExchangeAction Thread Client} (other : action ≠ .reader) :
    (exchange.step action).fd = exchange.fd := by
  cases action with
  | reader => exact absurd rfl other
  | call actor request =>
      simp only [Exchange.step]
      split <;> rfl
  | thread actor written timeout =>
      simp only [Exchange.step, Exchange.threadStep]
      split
      · rfl
      · rfl
      · split <;> rfl
      · split
        · rfl
        · exact (fulfilled_same exchange actor _ _).1
      · exact (fulfilled_same (exchange.setValue _ none) actor _ _).1
      · split
        · rfl
        · split <;> rfl
  | post msg name payload =>
      simp only [Exchange.step]
      split <;> rfl
  | drop =>
      simp only [Exchange.step]
      split <;> rfl
  | serve connection now later text =>
      simp only [Exchange.step]
      split <;> rfl
  | client client frame now later => rfl
  | sweep order now => rfl
  | publish connection name payload => rfl
  | removeClient connection => rfl

/-- The cache and the watched set are empty while the node is disconnected. -/
def CachedNode.Silent (node : CachedNode Thread Client) : Prop :=
  node.connected = false → node.cache = .empty ∧ node.watched = ∅

/-- The cache and the watched set are empty already when the reader marks the node
disconnected. -/
def CachedNode.DropsEmpty (node : CachedNode Thread Client) (action : CachedAction Thread Client) :
    Prop :=
  ∀ connection, action = .exchange .reader → node.exchange.reader = .closing connection →
    node.cache = .empty ∧ node.watched = ∅

/-- What holds of a node that always drops an empty cache. -/
structure CachedNode.Quiet (node : CachedNode Thread Client) : Prop where
  numbered : node.exchange.Numbered
  issued : node.exchange.Issued
  follows : node.exchange.fd = node.exchange.reader.descriptor
  silent : node.Silent
  getting : ∀ thread call outage, node.getting thread = some (call, outage) →
    (node.exchange.caller thread).call = some call ∧ outage ≤ node.exchange.connections ∧
      (outage = node.exchange.connections →
        node.exchange.fd = none ∧ node.exchange.Dark call)
  reports : ∀ report ∈ node.reports, report = none

variable {node : CachedNode Thread Client}

/-- An outage that a get began in goes on without a value for it. -/
theorem CachedNode.Quiet.outage (quiet : node.Quiet) (move : node.exchange.Move next) {call
    outage : Nat} (began : outage ≤ node.exchange.connections ∧
      (outage = node.exchange.connections → node.exchange.fd = none ∧ node.exchange.Dark call)) :
    outage ≤ next.connections ∧
      (outage = next.connections → next.fd = none ∧ next.Dark call) := by
  obtain ⟨below, during⟩ := began
  rcases down_move move with new | ⟨same, stays⟩
  · refine ⟨by omega, ?_⟩
    intro now
    omega
  · refine ⟨by omega, ?_⟩
    intro now
    obtain ⟨down, dark⟩ := during (now.trans same)
    exact ⟨stays down, dark.move quiet.follows down move⟩

/-- A step of the exchange under the cache. The thread of a get goes on with it. -/
theorem CachedNode.Quiet.under (quiet : node.Quiet) (action : ExchangeAction Thread Client)
    (silent : { node with exchange := node.exchange.step action }.Silent)
    (going : ∀ thread call outage, node.getting thread = some (call, outage) →
      ((node.exchange.step action).caller thread).call = some call) :
    { node with exchange := node.exchange.step action }.Quiet := by
  have move : node.exchange.Move (node.exchange.step action) := step_move action
  refine ⟨quiet.numbered.move move, quiet.issued.move quiet.numbered move,
    descriptor_move quiet.follows move, silent, ?_, quiet.reports⟩
  intro thread call outage began
  obtain ⟨-, during⟩ := quiet.getting thread call outage began
  exact ⟨going thread call outage began, quiet.outage move during⟩

omit [DecidableEq Thread] [DecidableEq Client] in
theorem CachedNode.Quiet.silent_of_fd (quiet : node.Quiet)
    (fd : next.fd = node.exchange.fd) : { node with exchange := next }.Silent := by
  intro down
  apply quiet.silent
  rw [CachedNode.connected, ← fd]
  exact down

/-- A get that the step of its thread ends reports none. -/
theorem CachedNode.Quiet.thread (quiet : node.Quiet) (thread : Thread) (written timeout : Bool) :
    (node.step (.exchange (.thread thread written timeout))).Quiet := by
  have move : node.exchange.Move (node.exchange.step (.thread thread written timeout)) :=
    step_move _
  have silent : { node with
      exchange := node.exchange.step (.thread thread written timeout) }.Silent :=
    quiet.silent_of_fd (step_fd (by simp))
  have others (actor : Thread) (different : actor ≠ thread) (call outage : Nat)
      (began : node.getting actor = some (call, outage)) :
      ((node.exchange.step (.thread thread written timeout)).caller actor).call = some call := by
    apply step_call (quiet.getting actor call outage began).1
    intro _ _ same
    cases same
    exact different rfl
  simp only [CachedNode.step, CachedNode.finish]
  split
  · rename_i call outage began idle
    obtain ⟨working, during⟩ := quiet.getting thread call outage began
    refine ⟨quiet.numbered.move move, quiet.issued.move quiet.numbered move,
      descriptor_move quiet.follows move, silent, ?_, ?_⟩
    · intro actor other since still
      by_cases mine : actor = thread
      · subst actor
        dsimp only at still
        rw [Function.update_self] at still
        cases still
      · dsimp only at still
        rw [Function.update_of_ne mine] at still
        exact ⟨others actor mine other since still,
          quiet.outage move (quiet.getting actor other since still).2⟩
    · intro report member
      dsimp only at member
      split at member
      · rename_i down
        rcases List.mem_append.mp member with before | now
        · exact quiet.reports report before
        · rcases threadStep_call working written timeout with going | ⟨-, value, returned, from_⟩
          · rw [show (node.exchange.threadStep thread written timeout).caller thread = .idle from
              idle] at going
            cases going
          · rw [show (node.exchange.step (.thread thread written timeout)).returned call = _ from
              returned, Option.toList_some, List.mem_singleton] at now
            subst report
            rcases from_ with none | known
            · exact none
            · have same : outage = node.exchange.connections := by
                rcases down_move move with new | ⟨same, -⟩
                · have bound := during.1
                  have now := down.2
                  omega
                · exact down.2.symm.trans same
              exact (during.2 same).2 value known
      · exact quiet.reports report member
  · rename_i apart
    apply quiet.under _ silent
    intro actor call outage began
    by_cases mine : actor = thread
    · subst actor
      obtain ⟨working, -⟩ := quiet.getting thread call outage began
      rcases threadStep_call working written timeout with going | ⟨idle, -⟩
      · exact going
      · exact absurd idle (apart call outage began)
    · exact others actor mine call outage began

/-- The reader fills the cache while it has a descriptor and clears it after it closed it. -/
theorem CachedNode.Quiet.reader (quiet : node.Quiet)
    (drops : node.DropsEmpty (.exchange .reader)) :
    (node.step (.exchange .reader)).Quiet := by
  have move : node.exchange.Move (node.exchange.step .reader) := step_move _
  have kept : node.reads.getting = node.getting ∧ node.reads.reports = node.reports := by
    unfold CachedNode.reads
    split
    · split <;> exact ⟨rfl, rfl⟩
    · exact ⟨rfl, rfl⟩
    · exact ⟨rfl, rfl⟩
  have silent : (node.step (.exchange .reader)).Silent := by
    intro down
    have after : (node.exchange.step .reader).fd = none :=
      Option.isNone_iff_eq_none.mp (Option.isSome_eq_false_iff.mp down)
    have opened (connection : Nat) (here : node.exchange.reader.descriptor = some connection) :
        (node.exchange.step .reader).fd ≠ node.exchange.fd := by
      rw [after, quiet.follows, here]
      simp
    simp only [CachedNode.step, CachedNode.reads]
    cases place : node.exchange.reader with
    | reading connection =>
        refine absurd ?_ (opened connection (by rw [place]; rfl))
        simp only [Exchange.step, Exchange.readerStep, place]
        split <;> rfl
    | answering connection tag id value =>
        refine absurd ?_ (opened connection (by rw [place]; rfl))
        simp only [Exchange.step, Exchange.readerStep, place]
        split <;> rfl
    | setting connection taken value =>
        refine absurd ?_ (opened connection (by rw [place]; rfl))
        simp only [Exchange.step, Exchange.readerStep, place]
        rfl
    | closing connection => exact drops connection rfl place
    | clearing connection => exact ⟨rfl, rfl⟩
    | failing connection =>
        apply quiet.silent
        rw [CachedNode.connected, quiet.follows, place]
        rfl
    | dialing =>
        simp only [Exchange.step, Exchange.readerStep, place] at after
        cases after
  refine ⟨quiet.numbered.move move, quiet.issued.move quiet.numbered move,
    descriptor_move quiet.follows move, silent, ?_, ?_⟩
  · intro thread call outage began
    rw [show (node.step (.exchange .reader)).getting = node.getting from kept.1] at began
    obtain ⟨working, during⟩ := quiet.getting thread call outage began
    exact ⟨step_call working (by simp), quiet.outage move during⟩
  · rw [show (node.step (.exchange .reader)).reports = node.reports from kept.2]
    exact quiet.reports

/-- A get of a disconnected node finds nothing and starts a request that nobody answers. -/
theorem CachedNode.Quiet.get (quiet : node.Quiet) (thread : Thread) (key : Bytes) :
    (node.step (.get thread key)).Quiet := by
  simp only [CachedNode.step]
  split
  · rename_i idle
    split
    · rename_i watched
      cases link : node.connected with
      | true =>
          simp only [if_true]
          exact quiet
      | false =>
          rw [(quiet.silent link).2] at watched
          exact absurd watched (Finset.notMem_empty key)
    · have move : node.exchange.Move
          (node.exchange.step (.call thread ⟨.kvGet, key, []⟩)) := step_move _
      refine ⟨quiet.numbered.move move, quiet.issued.move quiet.numbered move,
        descriptor_move quiet.follows move, quiet.silent_of_fd (step_fd (by simp)), ?_,
        quiet.reports⟩
      intro actor call outage began
      dsimp only at began ⊢
      by_cases mine : actor = thread
      · subst actor
        rw [Function.update_self] at began
        split at began
        · cases began
        · rename_i down
          cases began
          have fresh : node.exchange.promise node.exchange.nextReq = [] := by
            by_contra set
            exact absurd (quiet.issued.promise _ set) (Nat.lt_irrefl _)
          simp only [Exchange.step, idle]
          refine ⟨by rw [goto_caller_self]; rfl, le_rfl, fun _ => ⟨?_, ?_⟩⟩
          · exact Option.not_isSome_iff_eq_none.mp down
          · intro value member
            have known : value ∈ node.exchange.promise node.exchange.nextReq := member
            rw [fresh] at known
            cases known
      · rw [Function.update_of_ne mine] at began
        obtain ⟨working, during⟩ := quiet.getting actor call outage began
        exact ⟨step_call working (by simp), quiet.outage move during⟩
  · exact quiet

theorem CachedNode.Quiet.step (node : CachedNode Thread Client)
    (action : CachedAction Thread Client) (quiet : node.Quiet) (drops : node.DropsEmpty action) :
    (node.step action).Quiet := by
  cases action with
  | exchange action =>
      have other (apart : action ≠ .reader)
          (own : ∀ thread written timeout, action ≠ .thread thread written timeout) :
          { node with exchange := node.exchange.step action }.Quiet := by
        apply quiet.under action (quiet.silent_of_fd (step_fd apart))
        intro thread call outage began
        exact step_call (quiet.getting thread call outage began).1 (own thread)
      cases action with
      | thread actor written timeout => exact quiet.thread actor written timeout
      | reader => exact quiet.reader drops
      | _ => exact other (by simp) (by simp)
  | get thread key => exact quiet.get thread key

omit [DecidableEq Thread] [DecidableEq Client] in
theorem CachedNode.Quiet.initial (store : Store (Nat ⊕ Client)) :
    (CachedNode.initial store : CachedNode Thread Client).Quiet where
  numbered := .initial store
  issued := .initial store
  follows := rfl
  silent := fun _ => ⟨rfl, rfl⟩
  getting := by simp [CachedNode.initial]
  reports := by simp [CachedNode.initial]

/-- What the reader does when it marks the node disconnected. -/
theorem CachedNode.dropsEmpty_of_silent {action : CachedAction Thread Client}
    (silent : (node.step action).Silent) : node.DropsEmpty action := by
  rintro connection rfl place
  have down : (node.step (.exchange .reader)).connected = false := by
    simp only [CachedNode.step, CachedNode.connected, Exchange.step, Exchange.readerStep, place]
    rfl
  have kept : node.reads = node := by
    simp only [CachedNode.reads, place]
  have empty := silent down
  simp only [CachedNode.step, kept] at empty
  exact empty

/-- Each state in which the node is disconnected has an empty cache, and so each get that starts
and ends during an outage reports none, exactly when the cache is empty each time the reader marks
the node disconnected. -/
theorem disconnected_serves_nothing (store : Store (Nat ⊕ Client))
    (actions : List (CachedAction Thread Client)) :
    (Along CachedNode.step CachedNode.Silent (.initial store) actions ∧
      ∀ report ∈ (run CachedNode.step (.initial store) actions).reports, report = none) ↔
    Meets CachedNode.step CachedNode.DropsEmpty (.initial store) actions := by
  constructor
  · rintro ⟨along, -⟩
    exact along.mono fun _ _ silent => CachedNode.dropsEmpty_of_silent silent
  · intro drops
    have quiet := Along.of_meets CachedNode.Quiet.step actions _ (.initial store) drops
    have final := run_invariant_of_meets CachedNode.Quiet.step actions _ (.initial store) drops
    exact ⟨quiet.mono fun _ _ held => held.silent, final.reports⟩

/-- Another client sets a key, the node gets it, and the link drops. The next get runs before the
reader has cleared the cache. -/
def staleOutage : List (CachedAction Unit Unit) :=
  [.exchange (.client () (Msg.kvSet.frame [107] [118]) 0 0), .get () [107],
    .exchange (.thread () true false), .exchange (.thread () true false),
    .exchange (.serve 0 0 0 []), .exchange .reader, .exchange .reader, .exchange .reader,
    .exchange (.thread () true false), .exchange .drop, .exchange .reader, .get () [107]]

theorem staleOutage_reports :
    (run CachedNode.step (.initial .empty) staleOutage).reports = [some [118]] := by
  decide +kernel

/-- A get that starts after the node is disconnected returns the value of the dead connection. -/
theorem disconnected_serves_stale :
    ¬ (Along CachedNode.step CachedNode.Silent (.initial .empty) staleOutage ∧
      ∀ report ∈ (run CachedNode.step (.initial .empty) staleOutage).reports, report = none) := by
  rintro ⟨-, absent⟩
  rw [staleOutage_reports] at absent
  exact absurd (absent _ (List.mem_singleton.mpr rfl)) (by simp)

end Chappe
