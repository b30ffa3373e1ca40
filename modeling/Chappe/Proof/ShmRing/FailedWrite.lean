/-
This file proves which calls of `Ring.write` leave a slot in the state `SLOT_WRITING`.
-/

import Chappe.Construction.RingWrite
import Chappe.Foundation.LittleEndian
import Chappe.Proof.ShmRing.Starvation

namespace Chappe.RingWrite
open Foundation ShmRing

variable {Party : Type} {geometry : Geometry}

/-- The attempts that a scan makes when it rejects each slot. The counter wraps after
`2 ^ 32 - 1`. -/
def Visited (geometry : Geometry) (attempt : Nat) : Prop :=
  attempt ≤ geometry.numSlots ∧ ∃ count ≤ geometry.numSlots, attempt = word (count + 1)

/-- The slot is not offered, not held and not being written. -/
def Usable (state : State Party geometry) (idx : geometry.Index) : Prop :=
  idx.val ≠ state.lastReady ∧ state.refcount idx = 0 ∧ state.slotState idx ≠ .writing

/-- The scan finds the slot usable at one of its attempts, and no slot at those before. -/
def Takes (state : State Party geometry) (idx : geometry.Index) : Prop :=
  ∃ count, Visited geometry (word (count + 1)) ∧
    idx = candidate geometry state.writeCursor (word (count + 1)) ∧ Usable state idx ∧
    ∀ earlier < count, ¬ Usable state (candidate geometry state.writeCursor (word (earlier + 1)))

/-- A running scan has changed nothing yet. -/
def scanning (state : State Party geometry) (attempt : Nat) : State Party geometry :=
  { state with producer := .scan state.lastReady attempt }

/-- The scan has claimed the slot. -/
def grabbed (state : State Party geometry) (idx : geometry.Index) : State Party geometry :=
  { state with
    slotState := Function.update state.slotState idx .writing
    writeCursor := idx.val
    producer := .owned idx
    draft := state.payload idx }

variable {state : State Party geometry}

theorem Takes.unique {first second : geometry.Index} (takes : Takes state first)
    (other : Takes state second) : first = second := by
  obtain ⟨count, -, rfl, usable, before⟩ := takes
  obtain ⟨last, -, rfl, found, earlier⟩ := other
  rcases Nat.lt_trichotomy count last with below | same | above
  · exact absurd usable (earlier count below)
  · rw [same]
  · exact absurd found (before last above)

/-- A slot that is not usable is rejected without a store. -/
theorem scan_reject {attempt : Nat} (inside : attempt ≤ geometry.numSlots)
    (unusable : ¬ Usable state (candidate geometry state.writeCursor attempt)) :
    ∃ steps ≤ 3, producerStep^[steps] (scanning state attempt) =
      scanning state (nextAttempt attempt) := by
  by_cases offered : (candidate geometry state.writeCursor attempt).val = state.lastReady
  · refine ⟨1, by omega, ?_⟩
    simp [scanning, producerStep, inside, offered]
  · by_cases held : state.refcount (candidate geometry state.writeCursor attempt) = 0
    · have busy : state.slotState (candidate geometry state.writeCursor attempt) = .writing := by
        by_contra idle
        exact unusable ⟨offered, held, idle⟩
      refine ⟨3, le_rfl, ?_⟩
      simp [scanning, producerStep, inside, offered, held, busy]
    · refine ⟨2, by omega, ?_⟩
      simp [scanning, producerStep, inside, offered, held]

/-- A usable slot is claimed. -/
theorem scan_accept {attempt : Nat} (inside : attempt ≤ geometry.numSlots)
    (usable : Usable state (candidate geometry state.writeCursor attempt)) :
    producerStep^[5] (scanning state attempt) =
      grabbed state (candidate geometry state.writeCursor attempt) := by
  obtain ⟨other, free, idle⟩ := usable
  simp [scanning, producerStep, grabbed, inside, other, free, idle]

theorem iterate_grabbed (steps : Nat) (idx : geometry.Index) :
    producerStep^[steps] (grabbed state idx) = grabbed state idx :=
  Function.iterate_fixed rfl steps

/-- The scan comes to an attempt after it has rejected those before. -/
theorem scan_reach (count : Nat) (within : count ≤ geometry.numSlots)
    (unusable : ∀ earlier, earlier < count →
      ¬ Usable state (candidate geometry state.writeCursor (word (earlier + 1)))) :
    ∃ steps ≤ 3 * count, producerStep^[steps] (scanning state 1) =
      scanning state (word (count + 1)) := by
  induction count with
  | zero => exact ⟨0, le_rfl, rfl⟩
  | succ count ih =>
      obtain ⟨steps, few, reached⟩ := ih (by omega) fun earlier below =>
        unusable earlier (by omega)
      have fits := geometry.fitsWord
      have same : word (count + 1) = count + 1 := Nat.mod_eq_of_lt (by omega)
      have inside : word (count + 1) ≤ geometry.numSlots := by omega
      obtain ⟨more, three, rejected⟩ := scan_reject inside (unusable count (by omega))
      refine ⟨more + steps, by omega, ?_⟩
      rw [Function.iterate_add_apply, reached, rejected, nextAttempt, same]

/-- The scan claims a slot when one of its attempts finds a usable one. -/
theorem acquireSlot_found {attempt : Nat} (visited : Visited geometry attempt)
    (usable : Usable state (candidate geometry state.writeCursor attempt)) :
    ∃ idx, Takes state idx ∧ acquireSlot state = grabbed state idx := by
  classical
  obtain ⟨inside, last, within, rfl⟩ := visited
  have some : ∃ count, Usable state (candidate geometry state.writeCursor (word (count + 1))) :=
    ⟨last, usable⟩
  have first := Nat.find_min' some usable
  obtain ⟨steps, few, reached⟩ := scan_reach (Nat.find some) (by omega) fun _ => Nat.find_min some
  have fits := geometry.fitsWord
  have here : word (Nat.find some + 1) ≤ geometry.numSlots := by
    rcases first.eq_or_lt with same | earlier
    · rw [same]
      exact inside
    · have same : word (Nat.find some + 1) = Nat.find some + 1 := Nat.mod_eq_of_lt (by omega)
      omega
  have enough := geometry.twoSlots
  refine ⟨_, ⟨Nat.find some, ⟨here, Nat.find some, by omega, rfl⟩, rfl, Nat.find_spec some,
    fun _ => Nat.find_min some⟩, ?_⟩
  obtain ⟨rest, total⟩ : ∃ rest, scanSteps geometry = rest + (5 + steps) :=
    ⟨scanSteps geometry - (5 + steps), by simp only [scanSteps]; omega⟩
  rw [acquireSlot, total, Function.iterate_add_apply, Function.iterate_add_apply]
  change producerStep^[rest] (producerStep^[5] (producerStep^[steps] (scanning state 1))) = _
  rw [reached, scan_accept here (Nat.find_spec some), iterate_grabbed]

/-- The places of a scan that has not claimed a slot. -/
def Searching (state : State Party geometry) : Producer geometry → Prop
  | .idle => True
  | .scan published attempt => published = state.lastReady ∧
      (attempt ≤ geometry.numSlots → Visited geometry attempt)
  | .prefilter published attempt idx => published = state.lastReady ∧ Visited geometry attempt ∧
      idx = candidate geometry state.writeCursor attempt ∧ idx.val ≠ state.lastReady
  | .loadState published attempt idx => published = state.lastReady ∧ Visited geometry attempt ∧
      idx = candidate geometry state.writeCursor attempt ∧ idx.val ≠ state.lastReady ∧
      state.refcount idx = 0
  | _ => False

theorem Visited.next {attempt : Nat} (visited : Visited geometry attempt)
    (inside : nextAttempt attempt ≤ geometry.numSlots) :
    Visited geometry (nextAttempt attempt) := by
  obtain ⟨below, count, within, rfl⟩ := visited
  exact ⟨inside, word (count + 1), below, rfl⟩

theorem searching_step {producer : Producer geometry} (searching : Searching state producer)
    (unusable : ∀ attempt, Visited geometry attempt →
      ¬ Usable state (candidate geometry state.writeCursor attempt)) :
    ∃ next, producerStep { state with producer := producer } =
      { state with producer := next } ∧ Searching state next := by
  cases producer with
  | idle => exact ⟨.idle, rfl, True.intro⟩
  | scan published attempt =>
      obtain ⟨rfl, visited⟩ := searching
      by_cases inside : attempt ≤ geometry.numSlots
      · by_cases offered : (candidate geometry state.writeCursor attempt).val = state.lastReady
        · refine ⟨.scan state.lastReady (nextAttempt attempt), ?_, rfl, (visited inside).next⟩
          simp [producerStep, inside, offered]
        · refine ⟨.prefilter state.lastReady attempt (candidate geometry state.writeCursor attempt),
            ?_, rfl, visited inside, rfl, offered⟩
          simp [producerStep, inside, offered]
      · refine ⟨.idle, ?_, True.intro⟩
        simp [producerStep, inside]
  | prefilter published attempt idx =>
      obtain ⟨rfl, visited, rfl, other⟩ := searching
      by_cases held : state.refcount (candidate geometry state.writeCursor attempt) = 0
      · refine ⟨.loadState state.lastReady attempt (candidate geometry state.writeCursor attempt),
          ?_, rfl, visited, rfl, other, held⟩
        simp [producerStep, held]
      · refine ⟨.scan state.lastReady (nextAttempt attempt), ?_, rfl, visited.next⟩
        simp [producerStep, held]
  | loadState published attempt idx =>
      obtain ⟨rfl, visited, rfl, other, free⟩ := searching
      by_cases busy : state.slotState (candidate geometry state.writeCursor attempt) = .writing
      · refine ⟨.scan state.lastReady (nextAttempt attempt), ?_, rfl, visited.next⟩
        simp [producerStep, busy]
      · exact absurd ⟨other, free, busy⟩ (unusable attempt visited)
  | claim _ _ _ _ | recheck _ _ _ _ | rollback _ _ _ _ | owned _ | advertise _ =>
      exact searching.elim

/-- The scan stores nothing when none of its attempts finds a usable slot. -/
theorem acquireSlot_starved (unusable : ∀ attempt, Visited geometry attempt →
      ¬ Usable state (candidate geometry state.writeCursor attempt)) :
    ∃ next, acquireSlot state = { state with producer := next } ∧ Searching state next := by
  have all (steps : Nat) : ∃ next, producerStep^[steps] (scanning state 1) =
      { state with producer := next } ∧ Searching state next := by
    induction steps with
    | zero =>
        refine ⟨.scan state.lastReady 1, rfl, rfl, ?_⟩
        exact fun inside => ⟨inside, 0, Nat.zero_le _, rfl⟩
    | succ steps ih =>
        obtain ⟨next, same, searching⟩ := ih
        rw [Function.iterate_succ_apply', same]
        exact searching_step searching unusable
  exact all _

/-- The object has a length that fits the slot, and the scan finds a slot that `ctypes.memmove` does
not fill or that `s32` has no number for. -/
def Leaks (state : State Party geometry) (object : Object) : Prop :=
  (∃ length, object.length = some length ∧ length ≤ geometry.slotSize) ∧
    ∃ idx, Takes state idx ∧ (object.memory = none ∨ 2 ^ 31 ≤ idx.val)

/-- No slot is left for a frame. -/
def Starved (state : State Party geometry) : Prop :=
  ∀ attempt, Visited geometry attempt →
    ¬ Usable state (candidate geometry state.writeCursor attempt)

theorem Starved.takes_none (starved : Starved state) (idx : geometry.Index) :
    ¬ Takes state idx := by
  rintro ⟨count, visited, rfl, usable, -⟩
  exact starved _ visited usable

theorem index_negative_iff (idx : geometry.Index) :
    (UInt32.ofNat idx).toInt32 < 0 ↔ 2 ^ 31 ≤ idx.val := by
  rw [toInt32_neg_iff, UInt32.toNat_ofNat_of_lt' (idx.isLt.trans geometry.fitsWord)]

variable [DecidableEq Party]

/-- The four ways of a call of `Ring.write`. -/
inductive Written (state : State Party geometry) (object : Object) :
    State Party geometry × Outcome → Prop where
  | refused (error : Error)
      (unfit : ∀ length, object.length = some length → geometry.slotSize < length) :
      Written state object (state, .raised error)
  | starved (next : Producer geometry) (outcome : Outcome) (starved : Starved state)
      (returned : ∀ error, outcome ≠ .raised error) :
      Written state object ({ state with producer := next }, outcome)
  | leaked (idx : geometry.Index) (outcome : Outcome) (leaks : Leaks state object)
      (takes : Takes state idx) :
      Written state object ({ grabbed state idx with producer := .idle }, outcome)
  | published (idx : geometry.Index) (takes : Takes state idx) (small : idx.val < 2 ^ 31)
      (memory : Nat → UInt8) (length : Nat) (taken : object.memory = some memory) :
      Written state object
        (publishSlot (memmove (grabbed state idx) idx memory length), .returned true)

theorem write_written (state : State Party geometry) (object : Object) :
    Written state object (write state object) := by
  unfold write
  cases lengthCase : object.length with
  | none => exact .refused _ (by simp [lengthCase])
  | some length =>
      dsimp only
      split
      · rename_i large
        exact .refused _ (by simpa [lengthCase] using large)
      · rename_i small
        by_cases found : ∃ attempt, Visited geometry attempt ∧
            Usable state (candidate geometry state.writeCursor attempt)
        · obtain ⟨attempt, visited, usable⟩ := found
          obtain ⟨idx, takes, same⟩ := acquireSlot_found visited usable
          have fits : ∃ length, object.length = some length ∧ length ≤ geometry.slotSize :=
            ⟨length, lengthCase, Nat.le_of_not_lt small⟩
          rw [same]
          dsimp only [grabbed]
          split
          · rename_i negative
            have wide := (index_negative_iff idx).mp negative
            exact .leaked idx _ ⟨fits, idx, takes, .inr wide⟩ takes
          · rename_i positive
            have narrow : idx.val < 2 ^ 31 := by
              rw [index_negative_iff] at positive
              omega
            cases memoryCase : object.memory with
            | none => exact .leaked idx _ ⟨fits, idx, takes, .inl memoryCase⟩ takes
            | some memory => exact .published idx takes narrow memory length memoryCase
        · have starved : Starved state := fun attempt visited usable =>
            found ⟨attempt, visited, usable⟩
          obtain ⟨next, same, searching⟩ := acquireSlot_starved starved
          rw [same]
          cases next with
          | idle => exact .starved _ _ starved (by simp)
          | scan _ _ | prefilter _ _ _ | loadState _ _ _ => exact .starved _ _ starved (by simp)
          | claim _ _ _ _ | recheck _ _ _ _ | rollback _ _ _ _ | owned _ | advertise _ =>
              exact searching.elim

/-- A call that raises leaves the slot states, the refcounts and `last_ready` as they were. -/
def Restores (state : State Party geometry) (action : Action Party) : Prop :=
  ∀ object error, action = .write object → state.producer = .idle →
    (write state object).2 = .raised error →
    (write state object).1.slotState = state.slotState ∧
      (write state object).1.refcount = state.refcount ∧
      (write state object).1.lastReady = state.lastReady

/-- A call that finds no slot finds each one offered or held. -/
def Fed (state : State Party geometry) (action : Action Party) : Prop :=
  ∀ object, action = .write object → state.producer = .idle →
    (write state object).2 = .returned false → ∀ attempt, Visited geometry attempt →
      (candidate geometry state.writeCursor attempt).val = state.lastReady ∨
        state.refcount (candidate geometry state.writeCursor attempt) ≠ 0

def Harmless (state : State Party geometry) (action : Action Party) : Prop :=
  ∀ object, action = .write object → state.producer = .idle → ¬ Leaks state object

omit [DecidableEq Party] in
/-- No slot is in the state `SLOT_WRITING`. -/
def Settled (state : State Party geometry) : Prop :=
  ∀ idx, state.slotState idx ≠ .writing

/-- A call that leaks a slot leaves it in the state `SLOT_WRITING`. -/
theorem leaks_unsettled {object : Object} (leaks : Leaks state object) :
    ¬ Settled (write state object).1 := by
  intro settled
  have spec := write_written state object
  generalize write state object = result at settled spec
  cases spec with
  | refused error unfit =>
      obtain ⟨⟨length, same, fits⟩, -⟩ := leaks
      exact absurd (unfit length same) (Nat.not_lt.mpr fits)
  | starved next outcome starved returned =>
      obtain ⟨-, idx, takes, -⟩ := leaks
      exact starved.takes_none idx takes
  | leaked idx outcome _ takes =>
      apply settled idx
      dsimp only [grabbed]
      rw [Function.update_self]
  | published idx takes small memory length taken =>
      obtain ⟨-, other, found, refused | wide⟩ := leaks
      · rw [refused] at taken
        cases taken
      · rw [takes.unique found] at small
        omega

theorem harmless_restores {action : Action Party} (harmless : Harmless state action) :
    Restores state action := by
  intro object error begins idle
  have leakless := harmless object begins idle
  have spec := write_written state object
  generalize write state object = result at spec
  cases spec with
  | refused error unfit => exact fun _ => ⟨rfl, rfl, rfl⟩
  | starved next outcome starved returned => exact fun raised => absurd raised (returned error)
  | leaked idx outcome leaks takes => exact absurd leaks leakless
  | published idx takes small memory length taken => simp

/-- A call that leaks nothing leaves no slot in the state `SLOT_WRITING`. -/
theorem write_settled {object : Object} (settled : Settled state)
    (leakless : ¬ Leaks state object) : Settled (write state object).1 := by
  have spec := write_written state object
  generalize write state object = result at spec
  cases spec with
  | refused error unfit => exact settled
  | starved next outcome starved returned => exact settled
  | leaked idx outcome leaks takes => exact absurd leaks leakless
  | published idx takes small memory length taken =>
      intro slot
      by_cases mine : slot = idx
      · simp [publishSlot, ShmRing.step, producerStep, memmove, grabbed, mine]
      · simpa [publishSlot, ShmRing.step, producerStep, memmove, grabbed, mine] using settled slot

theorem settled_fed {action : Action Party} (settled : Settled state)
    (harmless : Harmless state action) : Fed state action := by
  intro object begins idle
  have leakless := harmless object begins idle
  have spec := write_written state object
  generalize write state object = result at spec
  cases spec with
  | refused error unfit => simp
  | leaked idx outcome leaks takes => exact absurd leaks leakless
  | published idx takes small memory length taken => simp
  | starved next outcome starved returned =>
      intro _ attempt visited
      by_contra free
      push Not at free
      exact starved attempt visited ⟨free.1, free.2, settled _⟩

theorem step_settled {action : Action Party} (settled : Settled state)
    (harmless : Harmless state action) : Settled (step state action) := by
  cases action with
  | write object =>
      simp only [step]
      split
      · rename_i idle
        exact write_settled settled (harmless object rfl idle)
      · exact settled
  | retainLatest party =>
      intro idx
      rw [step, (retainLatest_untouched state party).slotState]
      exact settled idx
  | consumer party =>
      intro idx
      rw [step, ShmRing.step, (consumerStep_untouched state party).slotState]
      exact settled idx
  | releaseSlot party =>
      intro idx
      rw [step, (releaseSlot_untouched state party).slotState]
      exact settled idx

/-- Every raise restores the ring, no slot stays in the state `SLOT_WRITING` and no write is starved
by an earlier one, if and only if no call leaks its slot. -/
theorem failed_write_restores_iff (payload : geometry.Index → geometry.Payload)
    (actions : List (Action Party)) :
    Meets step (fun state action => Restores state action ∧ Settled (step state action) ∧
        Fed state action) (initial payload) actions ↔
      Meets step Harmless (initial payload) actions := by
  have settled : Settled (initial payload : State Party geometry) := by
    intro idx
    simp [initial]
  generalize initial payload = state at settled
  induction actions generalizing state with
  | nil => exact Iff.rfl
  | cons action rest ih =>
      constructor
      · rintro ⟨⟨-, next, -⟩, later⟩
        refine ⟨?_, (ih _ next).mp later⟩
        intro object begins idle leaks
        subst begins
        simp only [step, idle, if_true] at next
        exact leaks_unsettled leaks next
      · rintro ⟨harmless, later⟩
        have next := step_settled settled harmless
        exact ⟨⟨harmless_restores harmless, next, settled_fed settled harmless⟩,
          (ih _ next).mpr later⟩

/-- The objects `bytearray(1)` and `bytes(1)`. -/
def bytearray : Object := ⟨some 1, none⟩

def bytes : Object := ⟨some 1, some fun _ => 0⟩

/-- Three calls that raise take each slot of the ring from the writes after them. -/
theorem failed_write_leaks :
    let start : State Unit threeSlots := initial fun _ _ => 0
    let later := run step start (List.replicate 3 (.write bytearray))
    (write start bytearray).2 = .raised .argumentError ∧
      (∃ idx, start.slotState idx = .free ∧ (write start bytearray).1.slotState idx = .writing) ∧
      (∀ idx, later.slotState idx = .writing ∧ later.refcount idx = 0) ∧
      (write later bytes).2 = .returned false := by
  decide +kernel

end Chappe.RingWrite
