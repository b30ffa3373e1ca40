/-
This file proves that the promise of a call is in one place at a time and is set at most once.
-/

import Chappe.Proof.Requests.Wires

namespace Chappe
open Foundation

variable {Thread Client : Type}

/-- The promise of the call can be in the table. -/
def Caller.Awaits (call : Nat) : Caller → Prop
  | .parked _ own | .releasing own _ | .waiting own => own = call
  | _ => False

/-- A frame of the call is on the connection that the reader reads from. -/
def Exchange.Carries (exchange : Exchange Thread Client) (call : Nat) : Prop :=
  ∃ connection frame, exchange.reader.connection = some connection ∧
    ((some call, frame) ∈ exchange.uplink connection ∨
      (some call, frame) ∈ exchange.unread connection)

/-- A thread works on the call, or a frame of the call can still reach the reader. -/
def Exchange.Live (exchange : Exchange Thread Client) (call : Nat) : Prop :=
  (∃ thread, (exchange.caller thread).call = some call) ∨ exchange.Carries call ∨
    ∃ connection id value, exchange.reader = .answering connection (some call) id value

/-- Every live call is one of the last `2 ^ 32` calls. -/
def Exchange.Recent (exchange : Exchange Thread Client) : Prop :=
  ∀ call, exchange.Live call → call < exchange.nextReq ∧ exchange.nextReq ≤ call + 2 ^ 32

/-- The promise of the call is with the thread alone. -/
def Caller.Owns (call : Nat) : Caller → Prop
  | .numbered _ own | .setting own _ _ => own = call
  | _ => False

/-- The daemon wrote the value in answer to the call, on the connection that the call was sent
on. -/
def Exchange.Proven (exchange : Exchange Thread Client) (call : Nat) (value : Bytes) : Prop :=
  ∃ connection frame, exchange.sentOn call = some connection ∧
    (some call, frame) ∈ exchange.written connection ∧
    frame.fulfills = some (wireId call, some value)

/-- A promise is in the table, with the reader, or with its thread, or it is set. -/
structure Exchange.Promised (exchange : Exchange Thread Client) : Prop where
  pending : ∀ id call, exchange.pending id = some call →
    wireId call = id ∧ exchange.promise call = [] ∧ ∃ thread, (exchange.caller thread).Awaits call
  taken : ∀ thread taken call gaveUp, exchange.caller thread = .setting taken call gaveUp →
    taken = call
  owned : ∀ thread call, (exchange.caller thread).Owns call → exchange.promise call = []
  reader : ∀ connection call value, exchange.reader = .setting connection call value →
    exchange.promise call = [] ∧ call < exchange.nextReq ∧ (∀ id, exchange.pending id ≠ some call) ∧
      (∀ thread, ¬ (exchange.caller thread).Owns call) ∧
      ∀ found, value = some found → exchange.Proven call found
  unissued : ∀ call, exchange.nextReq ≤ call → exchange.promise call = []
  once : ∀ call, (exchange.promise call).length ≤ 1
  proven : ∀ call value, some value ∈ exchange.promise call → exchange.Proven call value

variable {exchange next : Exchange Thread Client}

theorem Caller.Awaits.call {place : Caller} {call : Nat} (awaits : place.Awaits call) :
    place.call = some call := by
  cases place with
  | parked request own => exact congrArg some awaits
  | releasing own gaveUp => exact congrArg some awaits
  | waiting own => exact congrArg some awaits
  | idle | numbered | setting => exact awaits.elim

theorem Caller.Awaits.not_owns {place : Caller} {call other : Nat} (awaits : place.Awaits call) :
    ¬ place.Owns other := by
  cases place with
  | parked | releasing | waiting => exact id
  | idle | numbered | setting => exact awaits.elim

/-- Two live calls with the same identifier are the same. -/
theorem Exchange.Recent.eq (recent : exchange.Recent) {first second : Nat}
    (one : exchange.Live first) (two : exchange.Live second)
    (same : wireId first = wireId second) : first = second := by
  have early := recent first one
  have late := recent second two
  unfold wireId at same
  omega

theorem Exchange.Promised.initial (store : Store (Nat ⊕ Client)) :
    (Exchange.initial store : Exchange Thread Client).Promised :=
  ⟨nofun, nofun, fun _ _ => False.elim, nofun, fun _ _ => rfl, fun _ => Nat.zero_le _, nofun⟩

theorem Exchange.Recent.initial (store : Store (Nat ⊕ Client)) :
    (Exchange.initial store : Exchange Thread Client).Recent := by
  rintro call (⟨_, works⟩ | ⟨_, _, _, asked | unread⟩ | ⟨_, _, _, answering⟩)
  · cases works
  · cases asked
  · cases unread
  · cases answering

/-- A step that takes no promise and sets none. -/
theorem Exchange.Promised.mono (promised : exchange.Promised)
    (pending : next.pending = exchange.pending) (promise : next.promise = exchange.promise)
    (count : next.nextReq = exchange.nextReq)
    (awaits : ∀ id call, exchange.pending id = some call → ∀ thread,
      (exchange.caller thread).Awaits call → ∃ thread, (next.caller thread).Awaits call)
    (taken : ∀ thread taken call gaveUp, next.caller thread = .setting taken call gaveUp →
      exchange.caller thread = .setting taken call gaveUp)
    (owns : ∀ thread call, (next.caller thread).Owns call → (exchange.caller thread).Owns call)
    (reader : ∀ connection call value, next.reader = .setting connection call value →
      exchange.reader = .setting connection call value)
    (proven : ∀ call value, exchange.Proven call value → next.Proven call value) :
    next.Promised := by
  refine ⟨?_, ?_, ?_, ?_, ?_, ?_, ?_⟩
  · intro id call waits
    rw [pending] at waits
    obtain ⟨same, unset, thread, here⟩ := promised.pending id call waits
    rw [promise]
    exact ⟨same, unset, awaits id call waits thread here⟩
  · intro thread own call gaveUp here
    exact promised.taken thread own call gaveUp (taken thread own call gaveUp here)
  · intro thread call here
    rw [promise]
    exact promised.owned thread call (owns thread call here)
  · intro connection call value here
    obtain ⟨unset, issued, absent, alone, known⟩ :=
      promised.reader connection call value (reader connection call value here)
    rw [promise, count, pending]
    exact ⟨unset, issued, absent, fun thread mine => alone thread (owns thread call mine),
      fun found same => proven call found (known found same)⟩
  · rw [promise, count]
    exact promised.unissued
  · rw [promise]
    exact promised.once
  · rw [promise]
    exact fun call value member => proven call value (promised.proven call value member)

theorem Exchange.Promised.owns_call (promised : exchange.Promised) {thread : Thread} {call : Nat}
    (owns : (exchange.caller thread).Owns call) : (exchange.caller thread).call = some call := by
  cases here : exchange.caller thread with
  | numbered request own =>
      rw [here] at owns
      exact congrArg some owns
  | setting taken own gaveUp =>
      rw [here] at owns
      rw [← promised.taken thread taken own gaveUp here]
      exact congrArg some owns
  | idle | parked | releasing | waiting =>
      rw [here] at owns
      exact owns.elim

/-- A pending call is not one whose promise a thread has for itself. -/
theorem Exchange.Promised.not_owned (promised : exchange.Promised) (numbered : exchange.Numbered)
    {id call : Nat} (waits : exchange.pending id = some call) (thread : Thread) :
    ¬ (exchange.caller thread).Owns call := by
  obtain ⟨_, _, other, awaits⟩ := promised.pending id call waits
  intro owns
  have same := numbered.unique thread other call (promised.owns_call owns) awaits.call
  rw [same] at owns
  exact awaits.not_owns owns

theorem Exchange.Promised.issued (promised : exchange.Promised) (numbered : exchange.Numbered)
    {id call : Nat} (waits : exchange.pending id = some call) : call < exchange.nextReq := by
  obtain ⟨_, _, other, awaits⟩ := promised.pending id call waits
  exact numbered.issued other call awaits.call

theorem Exchange.Promised.live (promised : exchange.Promised) {id call : Nat}
    (waits : exchange.pending id = some call) : exchange.Live call := by
  obtain ⟨_, _, other, awaits⟩ := promised.pending id call waits
  exact .inl ⟨other, awaits.call⟩

/-- The reader takes the promise that an answer completes. -/
theorem Exchange.Promised.claim (promised : exchange.Promised) (numbered : exchange.Numbered)
    (wired : exchange.Wired) (recent : exchange.Recent) {connection id taken : Nat}
    {tag : Option Nat} {value : Option Bytes}
    (here : exchange.reader = .answering connection tag id value)
    (found : exchange.pending id = some taken) :
    ({ exchange with
      pending := exchange.pending.erase id
      reader := .setting connection taken value } : Exchange Thread Client).Promised := by
  obtain ⟨same, unset, _⟩ := promised.pending id taken found
  refine ⟨?_, promised.taken, promised.owned, ?_, promised.unissued, promised.once,
    promised.proven⟩
  · intro other call waits
    exact promised.pending other call (Table.of_erase waits)
  · intro other call answer sets
    cases sets
    refine ⟨unset, promised.issued numbered found, ?_, promised.not_owned numbered found, ?_⟩
    · intro other waits
      have erased : exchange.pending.erase id other = some taken := waits
      have before := Table.of_erase erased
      rw [← (promised.pending other taken before).1, same, Table.erase_self] at erased
      cases erased
    · intro answer some_
      subst value
      obtain ⟨frame, written, fulfills⟩ := wired.answering connection tag id (some answer) here
      obtain ⟨call, rfl, asked⟩ := wired.answers connection tag frame written _ fulfills
      have mine : taken = call :=
        recent.eq (promised.live found) (.inr (.inr ⟨connection, id, _, here⟩)) (same.trans asked)
      subst taken
      exact ⟨connection, frame, wired.tagged connection call frame written, written,
        same ▸ fulfills⟩

/-- The reader sets the promise that it has taken. -/
theorem Exchange.Promised.settle (promised : exchange.Promised) {connection call : Nat}
    {value : Option Bytes} (here : exchange.reader = .setting connection call value) :
    ({ exchange.setValue call value with reader := .reading connection } :
      Exchange Thread Client).Promised := by
  obtain ⟨unset, issued, absent, alone, known⟩ := promised.reader connection call value here
  have apart {own : Nat} (different : own ≠ call) :
      (exchange.setValue call value).promise own = exchange.promise own :=
    Function.update_of_ne different ..
  have set : (exchange.setValue call value).promise call = [value] := by
    simp only [Exchange.setValue, Function.update_self, unset, List.nil_append]
  refine ⟨?_, promised.taken, ?_, nofun, ?_, ?_, ?_⟩
  · intro id own waits
    obtain ⟨same, empty, other, awaits⟩ := promised.pending id own waits
    refine ⟨same, (apart ?_).trans empty, other, awaits⟩
    rintro rfl
    exact absent id waits
  · intro other own owns
    refine (apart ?_).trans (promised.owned other own owns)
    rintro rfl
    exact alone other owns
  · intro own later
    have later : exchange.nextReq ≤ own := later
    exact (apart (by omega)).trans (promised.unissued own later)
  · intro own
    by_cases mine : own = call
    · simp only [mine, set]
      exact le_rfl
    · simp only [apart mine]
      exact promised.once own
  · intro own answer member
    by_cases mine : own = call
    · simp only [mine, set, List.mem_singleton] at member
      rw [mine]
      exact known answer member.symm
    · simp only [apart mine] at member
      exact promised.proven own answer member

/-- The reader fails every call whose promise is in the table. -/
theorem Exchange.Promised.fail (promised : exchange.Promised) (numbered : exchange.Numbered) :
    ({ exchange with
      pending := .empty
      promise := fun call =>
        if exchange.pending (wireId call) = some call then exchange.promise call ++ [none]
        else exchange.promise call
      reader := .dialing } : Exchange Thread Client).Promised := by
  refine ⟨nofun, promised.taken, ?_, nofun, ?_, ?_, ?_⟩
  · intro thread call owns
    have absent : exchange.pending (wireId call) ≠ some call :=
      fun waits => promised.not_owned numbered waits thread owns
    simp only [if_neg absent]
    exact promised.owned thread call owns
  · intro call later
    have absent : exchange.pending (wireId call) ≠ some call :=
      fun waits => absurd (promised.issued numbered waits) (Nat.not_lt.mpr later)
    simp only [if_neg absent]
    exact promised.unissued call later
  · intro call
    dsimp only
    split
    · rename_i waits
      rw [(promised.pending _ call waits).2.1]
      exact le_rfl
    · exact promised.once call
  · intro call value member
    dsimp only at member
    split at member
    · rename_i waits
      rw [(promised.pending _ call waits).2.1] at member
      simp at member
    · exact promised.proven call value member

variable [DecidableEq Thread]

/-- A thread moves on without taking or setting a promise. -/
theorem Exchange.Promised.goto (promised : exchange.Promised) (thread : Thread) (place : Caller)
    (plain : ∀ call, ¬ place.Owns call)
    (awaits : ∀ id call, exchange.pending id = some call →
      (exchange.caller thread).Awaits call → place.Awaits call)
    (moved : next.caller = Function.update exchange.caller thread place)
    (pending : next.pending = exchange.pending) (promise : next.promise = exchange.promise)
    (count : next.nextReq = exchange.nextReq) (reader : next.reader = exchange.reader)
    (proven : ∀ call value, exchange.Proven call value → next.Proven call value) :
    next.Promised := by
  refine promised.mono pending promise count ?_ ?_ ?_ ?_ proven
  · intro id call waits other here
    refine ⟨other, ?_⟩
    rw [moved]
    by_cases mine : other = thread
    · rw [mine] at here ⊢
      rw [Function.update_self]
      exact awaits id call waits here
    · rwa [Function.update_of_ne mine]
  · intro other taken call gaveUp here
    rw [moved] at here
    by_cases mine : other = thread
    · rw [mine, Function.update_self] at here
      exact absurd (here ▸ rfl) (plain taken)
    · rwa [Function.update_of_ne mine] at here
  · intro other call owns
    rw [moved] at owns
    by_cases mine : other = thread
    · rw [mine, Function.update_self] at owns
      exact absurd owns (plain call)
    · rwa [Function.update_of_ne mine] at owns
  · intro connection call value here
    rwa [reader] at here

/-- A thread starts a call. -/
theorem Exchange.Promised.callNext (promised : exchange.Promised) {thread : Thread}
    (request : Request) (here : exchange.caller thread = .idle) :
    ({ exchange with nextReq := exchange.nextReq + 1 }.goto thread
      (.numbered request exchange.nextReq)).Promised := by
  refine ⟨?_, ?_, ?_, ?_, ?_, promised.once, promised.proven⟩
  · intro id call waits
    obtain ⟨same, unset, other, awaits⟩ := promised.pending id call waits
    refine ⟨same, unset, other, ?_⟩
    have different : other ≠ thread := by
      rintro rfl
      rw [here] at awaits
      exact awaits
    simpa only [Exchange.goto, Function.update_of_ne different] using awaits
  · intro other taken call gaveUp sets
    by_cases mine : other = thread
    · simp only [Exchange.goto, mine, Function.update_self] at sets
      cases sets
    · simp only [Exchange.goto, Function.update_of_ne mine] at sets
      exact promised.taken other taken call gaveUp sets
  · intro other call owns
    by_cases mine : other = thread
    · simp only [Exchange.goto, mine, Function.update_self] at owns
      exact promised.unissued call owns.le
    · simp only [Exchange.goto, Function.update_of_ne mine] at owns
      exact promised.owned other call owns
  · intro connection call value sets
    obtain ⟨unset, issued, absent, alone, known⟩ := promised.reader connection call value sets
    refine ⟨unset, Nat.lt_succ_of_lt issued, absent, ?_, known⟩
    intro other owns
    by_cases mine : other = thread
    · simp only [Exchange.goto, mine, Function.update_self] at owns
      exact absurd owns issued.ne'
    · simp only [Exchange.goto, Function.update_of_ne mine] at owns
      exact alone other owns
  · intro call later
    exact promised.unissued call (Nat.le_of_succ_le later)

/-- A thread puts the promise of its call into the table. -/
theorem Exchange.Promised.register (promised : exchange.Promised) {thread : Thread}
    {request : Request} {call : Nat} (here : exchange.caller thread = .numbered request call) :
    ({ exchange with pending := exchange.pending.insert (wireId call) call }.goto thread
      (.parked request call)).Promised := by
  have owned : (exchange.caller thread).Owns call := by rw [here]; exact rfl
  have split {id own : Nat} (waits : exchange.pending.insert (wireId call) call id = some own) :
      (id = wireId call ∧ own = call) ∨ exchange.pending id = some own := by
    by_cases mine : id = wireId call
    · rw [mine, Table.insert_self] at waits
      exact .inl ⟨mine, (Option.some.inj waits).symm⟩
    · exact .inr ((Table.insert_of_ne _ _ mine).symm.trans waits)
  have others {other : Thread} {own : Nat}
      (owns : (({ exchange with pending := exchange.pending.insert (wireId call) call }.goto thread
        (.parked request call)).caller other).Owns own) : (exchange.caller other).Owns own := by
    by_cases mine : other = thread
    · simp only [Exchange.goto, mine, Function.update_self] at owns
      exact owns.elim
    · simpa only [Exchange.goto, Function.update_of_ne mine] using owns
  refine ⟨?_, ?_, ?_, ?_, promised.unissued, promised.once, promised.proven⟩
  · intro id own waits
    rcases split waits with ⟨rfl, rfl⟩ | before
    · refine ⟨rfl, promised.owned thread own owned, thread, ?_⟩
      simp only [Exchange.goto, Function.update_self]
      exact rfl
    · obtain ⟨same, unset, other, awaits⟩ := promised.pending id own before
      refine ⟨same, unset, other, ?_⟩
      have different : other ≠ thread := by
        rintro rfl
        rw [here] at awaits
        exact awaits
      simpa only [Exchange.goto, Function.update_of_ne different] using awaits
  · intro other taken own gaveUp sets
    by_cases mine : other = thread
    · simp only [Exchange.goto, mine, Function.update_self] at sets
      cases sets
    · simp only [Exchange.goto, Function.update_of_ne mine] at sets
      exact promised.taken other taken own gaveUp sets
  · intro other own owns
    exact promised.owned other own (others owns)
  · intro connection own value sets
    obtain ⟨unset, issued, absent, alone, known⟩ := promised.reader connection own value sets
    refine ⟨unset, issued, ?_, fun other owns => alone other (others owns), known⟩
    intro id waits
    rcases split waits with ⟨_, rfl⟩ | before
    · exact alone thread owned
    · exact absent id before

/-- A thread takes the promise of its own call out of the table. -/
theorem Exchange.Promised.take (promised : exchange.Promised) {thread : Thread} {call : Nat}
    {gaveUp : Bool} (here : exchange.caller thread = .releasing call gaveUp)
    (found : exchange.pending (wireId call) = some call) :
    ({ exchange with pending := exchange.pending.erase (wireId call) }.goto thread
      (.setting call call gaveUp)).Promised := by
  have others {other : Thread} {own : Nat}
      (owns : (({ exchange with pending := exchange.pending.erase (wireId call) }.goto thread
        (.setting call call gaveUp)).caller other).Owns own) :
      own = call ∨ (exchange.caller other).Owns own := by
    by_cases mine : other = thread
    · simp only [Exchange.goto, mine, Function.update_self] at owns
      exact .inl (Eq.symm owns)
    · simp only [Exchange.goto, Function.update_of_ne mine] at owns
      exact .inr owns
  refine ⟨?_, ?_, ?_, ?_, promised.unissued, promised.once, promised.proven⟩
  · intro id own waits
    have before : exchange.pending id = some own := Table.of_erase waits
    obtain ⟨same, unset, other, awaits⟩ := promised.pending id own before
    refine ⟨same, unset, other, ?_⟩
    have different : other ≠ thread := by
      rintro rfl
      rw [here] at awaits
      cases awaits
      have erased : exchange.pending.erase (wireId call) id = some call := waits
      rw [← same, Table.erase_self] at erased
      cases erased
    simpa only [Exchange.goto, Function.update_of_ne different] using awaits
  · intro other taken own gave sets
    by_cases mine : other = thread
    · simp only [Exchange.goto, mine, Function.update_self] at sets
      cases sets
      rfl
    · simp only [Exchange.goto, Function.update_of_ne mine] at sets
      exact promised.taken other taken own gave sets
  · intro other own owns
    rcases others owns with rfl | before
    · exact (promised.pending _ own found).2.1
    · exact promised.owned other own before
  · intro connection own value sets
    obtain ⟨unset, issued, absent, alone, known⟩ := promised.reader connection own value sets
    refine ⟨unset, issued, fun id waits => absent id (Table.of_erase waits), ?_, known⟩
    intro other owns
    rcases others owns with rfl | before
    · exact absent _ found
    · exact alone other before

/-- A thread sets the promise that it has taken. -/
theorem Exchange.Promised.setOwn (promised : exchange.Promised) (numbered : exchange.Numbered)
    {thread : Thread} {call : Nat} {gaveUp : Bool}
    (here : exchange.caller thread = .setting call call gaveUp) (place : Caller)
    (plain : ∀ own, ¬ place.Owns own)
    (moved : next.caller = Function.update exchange.caller thread place)
    (pending : next.pending = exchange.pending)
    (promise : next.promise =
      Function.update exchange.promise call (exchange.promise call ++ [none]))
    (count : next.nextReq = exchange.nextReq) (reader : next.reader = exchange.reader)
    (proven : ∀ own value, exchange.Proven own value → next.Proven own value) :
    next.Promised := by
  have owned : (exchange.caller thread).Owns call := by rw [here]; exact rfl
  have others {other : Thread} {own : Nat} (owns : (next.caller other).Owns own) :
      other ≠ thread ∧ (exchange.caller other).Owns own := by
    rw [moved] at owns
    by_cases mine : other = thread
    · rw [mine, Function.update_self] at owns
      exact absurd owns (plain own)
    · rw [Function.update_of_ne mine] at owns
      exact ⟨mine, owns⟩
  have apart {own : Nat} (different : own ≠ call) : next.promise own = exchange.promise own := by
    rw [promise, Function.update_of_ne different]
  have set : next.promise call = [none] := by
    rw [promise, Function.update_self, promised.owned thread call owned]
    rfl
  refine ⟨?_, ?_, ?_, ?_, ?_, ?_, ?_⟩
  · intro id own waits
    rw [pending] at waits
    obtain ⟨same, unset, other, awaits⟩ := promised.pending id own waits
    have different : own ≠ call := by
      rintro rfl
      exact promised.not_owned numbered waits thread owned
    refine ⟨same, (apart different).trans unset, other, ?_⟩
    rw [moved, Function.update_of_ne]
    · exact awaits
    · rintro rfl
      exact awaits.not_owns owned
  · intro other taken own gave sets
    rw [moved] at sets
    by_cases mine : other = thread
    · rw [mine, Function.update_self] at sets
      exact absurd (sets ▸ rfl) (plain taken)
    · rw [Function.update_of_ne mine] at sets
      exact promised.taken other taken own gave sets
  · intro other own owns
    obtain ⟨away, before⟩ := others owns
    have different : own ≠ call := by
      rintro rfl
      exact away (numbered.unique other thread own (promised.owns_call before)
        (promised.owns_call owned))
    exact (apart different).trans (promised.owned other own before)
  · intro connection own value sets
    rw [reader] at sets
    obtain ⟨unset, issued, absent, alone, known⟩ := promised.reader connection own value sets
    have different : own ≠ call := by
      rintro rfl
      exact alone thread owned
    rw [pending, count]
    exact ⟨(apart different).trans unset, issued, absent,
      fun other owns => alone other (others owns).2,
      fun found same => proven own found (known found same)⟩
  · intro own later
    rw [count] at later
    have issued := numbered.issued thread call (promised.owns_call owned)
    exact (apart (by omega)).trans (promised.unissued own later)
  · intro own
    by_cases mine : own = call
    · rw [mine, set]
      exact le_rfl
    · rw [apart mine]
      exact promised.once own
  · intro own value member
    by_cases mine : own = call
    · rw [mine, set] at member
      simp at member
    · rw [apart mine] at member
      exact proven own value (promised.proven own value member)

variable [DecidableEq Client]

/-- A frame that the reader can still meet was there before, or its call is the one just sent. -/
theorem carries_move (wired : exchange.Wired) (linked : exchange.Linked)
    (move : exchange.Move next) {call : Nat} (carries : next.Carries call) :
    exchange.Live call := by
  obtain ⟨connection, frame, reads, member⟩ := carries
  have kept (place : exchange.reader.connection = some connection)
      (before : (some call, frame) ∈ exchange.uplink connection ∨
        (some call, frame) ∈ exchange.unread connection) : exchange.Live call :=
    .inr (.inl ⟨connection, frame, place, before⟩)
  cases move with
  | stay | call | register | refuse | take | ready | timeout | remove => exact kept reads member
  | missed thread own gaveUp here absent =>
      unfold Exchange.fulfilled at reads member
      split at reads <;> split at member <;> exact kept reads member
  | set thread taken own gaveUp here =>
      unfold Exchange.fulfilled at reads member
      split at reads <;> split at member <;> exact kept reads member
  | send thread request own target here open_ =>
      rcases member with asked | unread
      · rcases mem_enqueue asked with before | ⟨_, same⟩
        · exact kept reads (.inl before)
        · cases same
          exact .inl ⟨thread, by rw [here]; rfl⟩
      · exact kept reads (.inr unread)
  | post target msg name payload open_ kind =>
      rcases member with asked | unread
      · rcases mem_enqueue asked with before | ⟨_, same⟩
        · exact kept reads (.inl before)
        · cases same
      · exact kept reads (.inr unread)
  | read target tag head rest asked value here queue fulfills =>
      exact kept (here ▸ reads) (member.imp_right (mem_dequeue queue))
  | skip target tag head rest here queue =>
      exact kept (here ▸ reads) (member.imp_right (mem_dequeue queue))
  | claim target tag asked taken value here found => exact kept (here ▸ reads) member
  | ignore target tag asked value here => exact kept (here ▸ reads) member
  | settle target taken value here => exact kept (here ▸ reads) member
  | drop | close | clear | fail => cases reads
  | dial here =>
      have sent : exchange.sentOn call = some connection := by
        rcases member with asked | unread
        · exact (wired.asked connection call frame asked).2
        · exact wired.tagged connection call frame (wired.unread connection _ unread)
      cases reads
      exact absurd (linked.used call exchange.connections sent) (Nat.lt_irrefl _)
  | serve target tag head rest now later text queue =>
      rcases member with asked | unread
      · exact kept reads (.inl (mem_dequeue queue asked))
      · rcases List.mem_append.mp unread with before | new
        · exact kept reads (.inr before)
        · obtain ⟨sent, _, same⟩ := List.mem_map.mp new
          by_cases mine : some target = some connection
          · rw [if_pos mine] at same
            cases mine
            obtain ⟨rfl, _⟩ := Prod.mk.inj same
            refine .inr (.inl ⟨connection, head, reads, .inl ?_⟩)
            rw [queue]
            exact List.mem_cons_self
          · rw [if_neg mine] at same
            cases same
  | push result quiet =>
      refine kept reads (member.imp_right fun unread => ?_)
      rcases List.mem_append.mp unread with before | new
      · exact before
      · obtain ⟨sent, _, same⟩ := List.mem_map.mp new
        rw [if_neg nofun] at same
        cases same

/-- A step makes no call live but the one that it starts. -/
theorem live_move (wired : exchange.Wired) (linked : exchange.Linked)
    (move : exchange.Move next) {call : Nat} (live : next.Live call) :
    exchange.Live call ∨ (call = exchange.nextReq ∧ next.nextReq = exchange.nextReq + 1) := by
  rcases live with ⟨thread, works⟩ | carries | ⟨connection, asked, value, answering⟩
  · rcases move_calls move with ⟨starter, request, idle, rfl⟩ | ⟨_, same⟩
    · by_cases mine : thread = starter
      · simp only [Exchange.goto, mine, Function.update_self, Caller.call,
          Option.some.injEq] at works
        exact .inr ⟨works.symm, rfl⟩
      · simp only [Exchange.goto, Function.update_of_ne mine] at works
        exact .inl (.inl ⟨thread, works⟩)
    · exact .inl (.inl ⟨thread, same thread call works⟩)
  · exact .inl (carries_move wired linked move carries)
  · left
    have kept (before : exchange.reader = .answering connection (some call) asked value) :
        exchange.Live call := .inr (.inr ⟨connection, asked, value, before⟩)
    cases move with
    | stay | call | register | send | refuse | take | ready | timeout | post | serve | push
    | remove => exact kept answering
    | missed thread own gaveUp here absent | set thread taken own gaveUp here =>
        unfold Exchange.fulfilled at answering
        split at answering <;> exact kept answering
    | read target tag head rest id found here queue fulfills =>
        cases answering
        refine .inr (.inl ⟨connection, head, by rw [here]; rfl, .inr ?_⟩)
        rw [queue]
        exact List.mem_cons_self
    | skip | claim | ignore | settle | drop | close | clear | fail | dial => cases answering

/-- A step that takes a new number finds every live call less than `2 ^ 32` numbers old. -/
def Exchange.Windowed (exchange : Exchange Thread Client)
    (action : ExchangeAction Thread Client) : Prop :=
  (exchange.step action).nextReq ≠ exchange.nextReq →
    ∀ call, exchange.Live call → exchange.nextReq < call + 2 ^ 32

theorem Exchange.Recent.move (recent : exchange.Recent) (wired : exchange.Wired)
    (linked : exchange.Linked) (move : exchange.Move next)
    (windowed : next.nextReq ≠ exchange.nextReq →
      ∀ call, exchange.Live call → exchange.nextReq < call + 2 ^ 32) : next.Recent := by
  intro call live
  have grows : next.nextReq = exchange.nextReq ∨ next.nextReq = exchange.nextReq + 1 := by
    rcases move_calls move with ⟨_, _, _, rfl⟩ | ⟨same, _⟩
    · exact .inr rfl
    · exact .inl same
  rcases live_move wired linked move live with before | ⟨rfl, taken⟩
  · have bounds := recent call before
    rcases grows with same | taken
    · rw [same]
      exact bounds
    · have room := windowed (by omega) call before
      omega
  · omega

/-- What the daemon has written stays written. -/
theorem Exchange.Proven.move (wired : exchange.Wired) (move : exchange.Move next) {call : Nat}
    {value : Bytes} (proven : exchange.Proven call value) : next.Proven call value := by
  obtain ⟨connection, frame, sent, written, fulfills⟩ := proven
  cases move with
  | send thread request own target here open_ =>
      refine ⟨connection, frame, ?_, written, fulfills⟩
      refine (Table.insert_of_ne _ _ ?_).trans sent
      rintro rfl
      have unsent := wired.unsent call (.inr ⟨thread, by rw [here]; exact rfl⟩)
      rw [sent] at unsent
      cases unsent
  | serve | push =>
      exact ⟨connection, frame, sent, List.mem_append_left _ written, fulfills⟩
  | missed thread own gaveUp here absent | set thread taken own gaveUp here =>
      unfold Exchange.fulfilled
      split <;> exact ⟨connection, frame, sent, written, fulfills⟩
  | stay | call | register | refuse | take | ready | timeout | post | read | skip | claim | ignore
  | settle | drop | close | clear | fail | dial | remove =>
      exact ⟨connection, frame, sent, written, fulfills⟩

theorem Exchange.Promised.move (promised : exchange.Promised) (numbered : exchange.Numbered)
    (wired : exchange.Wired) (recent : exchange.Recent) (move : exchange.Move next) :
    next.Promised := by
  have proven (call : Nat) (value : Bytes) (known : exchange.Proven call value) :
      next.Proven call value := known.move wired move
  have reads (place : ReaderPlace) (other : ∀ connection call value,
      place ≠ .setting connection call value) (same : next.reader = place)
      (pending : next.pending = exchange.pending) (promise : next.promise = exchange.promise)
      (count : next.nextReq = exchange.nextReq) (caller : next.caller = exchange.caller) :
      next.Promised := by
    refine promised.mono pending promise count ?_ ?_ ?_ ?_ proven
    · rw [caller]
      exact fun _ _ _ thread here => ⟨thread, here⟩
    · rw [caller]
      exact fun _ _ _ _ => id
    · rw [caller]
      exact fun _ _ => id
    · intro connection call value here
      exact absurd (same.symm.trans here) (other connection call value)
  cases move with
  | stay => exact promised
  | call thread request here => exact promised.callNext request here
  | register thread request call here => exact promised.register here
  | send thread request call connection here open_ =>
      refine promised.goto thread (.waiting call) (fun _ => id) ?_ rfl rfl rfl rfl rfl proven
      intro id own _ awaits
      rw [here] at awaits
      exact awaits
  | refuse thread request call here =>
      refine promised.goto thread (.releasing call false) (fun _ => id) ?_ rfl rfl rfl rfl rfl
        proven
      intro id own _ awaits
      rw [here] at awaits
      exact awaits
  | take thread call taken gaveUp here found =>
      have mine : exchange.Live call := .inl ⟨thread, by rw [here]; rfl⟩
      have same : taken = call :=
        recent.eq (promised.live found) mine (promised.pending _ taken found).1
      subst taken
      exact promised.take here found
  | missed thread call gaveUp here absent =>
      have gone (id own : Nat) (waits : exchange.pending id = some own) :
          ¬ (exchange.caller thread).Awaits own := by
        rw [here]
        rintro rfl
        rw [← (promised.pending id call waits).1, absent] at waits
        cases waits
      unfold Exchange.fulfilled at proven ⊢
      split at proven
      · rw [if_pos ‹_›]
        exact promised.goto thread .idle (fun _ => id)
          (fun id own waits awaits => absurd awaits (gone id own waits)) rfl rfl rfl rfl rfl proven
      · rw [if_neg ‹_›]
        exact promised.goto thread (.waiting call) (fun _ => id)
          (fun id own waits awaits => absurd awaits (gone id own waits)) rfl rfl rfl rfl rfl proven
  | set thread taken call gaveUp here =>
      have same : taken = call := promised.taken thread taken call gaveUp here
      subst taken
      unfold Exchange.fulfilled at proven ⊢
      split at proven
      · rw [if_pos ‹_›]
        exact promised.setOwn numbered here .idle (fun _ => id) rfl rfl rfl rfl rfl proven
      · rw [if_neg ‹_›]
        exact promised.setOwn numbered here (.waiting call) (fun _ => id) rfl rfl rfl rfl rfl proven
  | ready thread call value here known =>
      refine promised.goto thread .idle (fun _ => id) ?_ rfl rfl rfl rfl rfl proven
      intro id own waits awaits
      rw [here] at awaits
      cases awaits
      rw [(promised.pending id call waits).2.1] at known
      cases known
  | timeout thread call here =>
      refine promised.goto thread (.releasing call true) (fun _ => id) ?_ rfl rfl rfl rfl rfl proven
      intro id own _ awaits
      rw [here] at awaits
      exact awaits
  | post | serve | push | remove =>
      exact promised.mono rfl rfl rfl (fun _ _ _ thread here => ⟨thread, here⟩)
        (fun _ _ _ _ => id) (fun _ _ => id) (fun _ _ _ => id) proven
  | read connection tag frame rest asked value here queue fulfills =>
      exact reads (.answering connection tag asked value) nofun rfl rfl rfl rfl rfl
  | skip connection tag frame rest here queue =>
      exact reads (.reading connection) nofun rfl rfl rfl rfl rfl
  | claim connection tag asked taken value here found =>
      exact promised.claim numbered wired recent here found
  | ignore connection tag asked value here =>
      exact reads (.reading connection) nofun rfl rfl rfl rfl rfl
  | settle connection taken value here => exact promised.settle here
  | drop connection here => exact reads (.closing connection) nofun rfl rfl rfl rfl rfl
  | close connection here => exact reads (.clearing connection) nofun rfl rfl rfl rfl rfl
  | clear connection here => exact reads (.failing connection) nofun rfl rfl rfl rfl rfl
  | fail connection here => exact promised.fail numbered
  | dial here =>
      exact reads (.reading exchange.connections) nofun rfl rfl rfl rfl rfl

end Chappe
