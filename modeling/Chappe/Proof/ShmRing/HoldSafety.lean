/-
This file proves that a consumer's hold on a slot keeps the producer out of it.
-/

import Chappe.Construction.ShmRing
import Mathlib.Tactic

namespace Chappe.ShmRing
open Foundation

variable {Party : Type} [Fintype Party] {geometry : Geometry}

/-- The slot contains one frame that the producer wrote completely. -/
def Stored (state : State Party geometry) (idx : geometry.Index) : Prop :=
  ∃ frame ∈ state.published, frame.slot = idx ∧ frame.bytes = state.payload idx

/-- The slot state agrees with the producer's control point. -/
def Claimed (state : State Party geometry) : Prop :=
  match state.producer with
  | .claim _ _ idx prev => state.slotState idx = prev
  | .recheck _ _ idx prev | .rollback _ _ idx prev =>
      state.slotState idx = .writing ∧ (prev = .ready → Stored state idx)
  | .owned idx => state.slotState idx = .writing ∧ state.draft = state.payload idx
  | _ => True

/-- Each refcount word is the number of claims on its slot. -/
def Counted (state : State Party geometry) : Prop :=
  ∀ idx, state.refcount idx = UInt32.ofNat (claims state idx)

/-- The invariant of the handshake between the producer and the consumers. -/
structure Safe (state : State Party geometry) : Prop where
  counted : Counted state
  claimed : Claimed state
  stored : ∀ idx, state.slotState idx = .ready → Stored state idx
  held : ∀ party idx, Holds state party idx → ¬ Owns state idx ∧ Stored state idx

/-- A zero refcount word means that no consumer has a claim. -/
theorem Counted.no_claims {state : State Party geometry} (counted : Counted state)
    (bounded : Fintype.card Party < 2 ^ 32) {idx : geometry.Index}
    (zero : state.refcount idx = 0) (party : Party) :
    ¬ (state.consumer party).Claims idx := by
  have count : claims state idx < 2 ^ 32 := Nat.lt_of_le_of_lt (census_le_card _) bounded
  have value := congrArg UInt32.toNat ((counted idx).symm.trans zero)
  rw [UInt32.toNat_ofNat_of_lt' count] at value
  exact (census_eq_zero_iff _).mp value party

/-- A producer step that stores nothing keeps the invariant when it keeps the control facts. -/
theorem Safe.producer_move {state : State Party geometry} (safe : Safe state)
    (producer : Producer geometry) (writeCursor : Nat) (lastReady : Nat) (draft : geometry.Payload)
    (claimed : Claimed
      { state with
        producer := producer, writeCursor := writeCursor, lastReady := lastReady, draft := draft })
    (unheld : ∀ party idx, Holds state party idx → producer ≠ .owned idx) :
    Safe { state with
      producer := producer, writeCursor := writeCursor, lastReady := lastReady,
      draft := draft } where
  counted := safe.counted
  claimed := claimed
  stored := safe.stored
  held := fun party idx holds => ⟨unheld party idx holds, (safe.held party idx holds).2⟩

/-- A store to one slot state keeps the invariant when the producer does not own a slot after it. -/
theorem Safe.state_store {state : State Party geometry} (safe : Safe state) (idx : geometry.Index)
    (stored : SlotState) (producer : Producer geometry)
    (claimed : Claimed
      { state with
        slotState := Function.update state.slotState idx stored, producer := producer })
    (available : stored = .ready → Stored state idx)
    (unowned : ∀ slot, producer ≠ .owned slot) :
    Safe { state with
      slotState := Function.update state.slotState idx stored, producer := producer } where
  counted := safe.counted
  claimed := claimed
  stored := by
    intro slot ready
    by_cases same : slot = idx
    · subst slot
      exact available (by simpa using ready)
    · exact safe.stored slot (by simpa [Function.update_of_ne same] using ready)
  held := fun party slot holds => ⟨unowned slot, (safe.held party slot holds).2⟩

/-- Each step inside `shm_ring_acquire_slot` keeps the invariant. -/
theorem producerStep_safe {state : State Party geometry} (safe : Safe state)
    (bounded : Fintype.card Party < 2 ^ 32) : Safe (producerStep state) := by
  have claimed := safe.claimed
  unfold producerStep
  split
  case h_1 | h_8 => exact safe
  case h_2 published attempt phase =>
    dsimp only
    split_ifs <;> exact safe.producer_move _ _ _ _ True.intro (by simp)
  case h_3 published attempt idx phase =>
    split_ifs <;> exact safe.producer_move _ _ _ _ True.intro (by simp)
  case h_4 published attempt idx phase =>
    split_ifs
    · exact safe.producer_move _ _ _ _ True.intro (by simp)
    · exact safe.producer_move _ _ _ _ rfl (by simp)
  case h_5 published attempt idx prev phase =>
    rw [Claimed, phase] at claimed
    refine safe.state_store idx .writing _ ⟨Function.update_self _ _ _, ?_⟩ (by simp) (by simp)
    intro ready
    exact safe.stored idx (claimed.trans ready)
  case h_6 published attempt idx prev phase =>
    rw [Claimed, phase] at claimed
    split_ifs with zero
    · exact safe.producer_move _ _ _ _ claimed (by simp)
    · refine safe.producer_move _ _ _ _ ⟨claimed.1, rfl⟩ ?_
      intro party slot holds owned
      cases owned
      apply safe.counted.no_claims bounded (not_not.mp zero) party
      rw [show state.consumer party = .holding idx from holds]
      rfl
  case h_7 published attempt idx prev phase =>
    rw [Claimed, phase] at claimed
    exact safe.state_store idx prev _ True.intro claimed.2 (by simp)
  case h_9 idx phase => exact safe.producer_move _ _ _ _ True.intro (by simp)

/-- The things that a step can do to the phase of one consumer. -/
inductive Consuming (state : State Party geometry) (action : Action Party geometry)
    (party : Party) : Consumer geometry → Prop where
  | rests : Consuming state action party (state.consumer party)
  | calls (acts : action = .retainLatest party) (idle : state.consumer party = .idle) :
      Consuming state action party (.loadLast 0)
  | loads (acts : action = .consumer party) (tries : Nat) (idx : geometry.Index)
      (phase : state.consumer party = .loadLast tries) (named : state.lastReady = idx.val) :
      Consuming state action party (.stake tries idx)
  | misses (acts : action = .consumer party) (tries : Nat)
      (phase : state.consumer party = .loadLast tries) : Consuming state action party .idle
  | stakes (acts : action = .consumer party) (tries : Nat) (idx : geometry.Index)
      (phase : state.consumer party = .stake tries idx) :
      Consuming state action party (.verify tries idx)
  | retains (acts : action = .consumer party) (tries : Nat) (idx : geometry.Index)
      (phase : state.consumer party = .verify tries idx) (ready : state.slotState idx = .ready) :
      Consuming state action party (.holding idx)
  | rejects (acts : action = .consumer party) (tries : Nat) (idx : geometry.Index)
      (phase : state.consumer party = .verify tries idx)
      (unready : state.slotState idx ≠ .ready) :
      Consuming state action party (.unstake tries idx)
  | retries (acts : action = .consumer party) (tries : Nat) (idx : geometry.Index)
      (phase : state.consumer party = .unstake tries idx) :
      Consuming state action party (.loadLast (tries + 1))
  | fails (acts : action = .consumer party) (tries : Nat) (idx : geometry.Index)
      (phase : state.consumer party = .unstake tries idx) : Consuming state action party .idle
  | releases (acts : action = .releaseSlot party) (idx : geometry.Index)
      (phase : state.consumer party = .holding idx) : Consuming state action party .idle

/-- The consumers leave the frames and the producer alone. -/
structure Untouched (state next : State Party geometry) : Prop where
  producer : next.producer = state.producer
  published : next.published = state.published
  lastReady : next.lastReady = state.lastReady
  slotState : next.slotState = state.slotState
  payload : next.payload = state.payload
  draft : next.draft = state.draft
  writeCursor : next.writeCursor = state.writeCursor

variable [DecidableEq Party]

/-- The count follows an increment by a consumer that had no claim. -/
theorem Counted.enter {state : State Party geometry} (counted : Counted state)
    (party : Party) (idx : geometry.Index) (next : Consumer geometry)
    (before : ∀ other, ¬ (state.consumer party).Claims other)
    (after : ∀ other, next.Claims other ↔ other = idx) (slot : geometry.Index) :
    Function.update state.refcount idx (state.refcount idx + 1) slot =
      UInt32.ofNat (census (Consumer.Claims slot) (Function.update state.consumer party next)) := by
  by_cases same : slot = idx
  · subst slot
    rw [Function.update_self, census_enter _ _ _ (before idx) ((after idx).mpr rfl), counted idx,
      UInt32.ofNat_add]
    rfl
  · have other : ¬ next.Claims slot := fun claim => same ((after slot).mp claim)
    rw [Function.update_of_ne same,
      census_stay _ _ _ (iff_of_false (before slot) other)]
    exact counted slot

/-- The count follows a decrement by a consumer that had one claim. -/
theorem Counted.leave {state : State Party geometry} (counted : Counted state)
    (party : Party) (idx : geometry.Index) (next : Consumer geometry)
    (before : ∀ other, (state.consumer party).Claims other ↔ other = idx)
    (after : ∀ other, ¬ next.Claims other) (slot : geometry.Index) :
    Function.update state.refcount idx (state.refcount idx - 1) slot =
      UInt32.ofNat (census (Consumer.Claims slot) (Function.update state.consumer party next)) := by
  by_cases same : slot = idx
  · subst slot
    have count := census_leave state.consumer party next ((before idx).mpr rfl) (after idx)
    rw [Function.update_self, counted idx, claims, ← count, UInt32.ofNat_add]
    exact add_sub_cancel_right _ 1
  · have other : ¬ (state.consumer party).Claims slot := fun claim => same ((before slot).mp claim)
    rw [Function.update_of_ne same,
      census_stay _ _ _ (iff_of_false other (after slot))]
    exact counted slot

/-- The count is unchanged when a consumer keeps its claims. -/
theorem Counted.stay {state : State Party geometry} (counted : Counted state)
    (party : Party) (next : Consumer geometry)
    (same : ∀ other, (state.consumer party).Claims other ↔ next.Claims other)
    (slot : geometry.Index) :
    state.refcount slot =
      UInt32.ofNat (census (Consumer.Claims slot) (Function.update state.consumer party next)) := by
  rw [census_stay _ _ _ (same slot)]
  exact counted slot

/-- Each step of `shm_ring_retain_latest` keeps the count. -/
theorem consumerStep_counted {state : State Party geometry} (counted : Counted state)
    (party : Party) : Counted (consumerStep state party) := by
  unfold consumerStep
  split
  case h_1 | h_2 => exact counted
  case h_3 tries phase =>
    split
    · exact counted.stay party _ (by simp [phase, Consumer.Claims])
    · exact counted.stay party _ (by simp [phase, Consumer.Claims])
  case h_4 tries idx phase =>
    exact counted.enter party idx _ (by simp [phase, Consumer.Claims])
      (by simp [Consumer.Claims, eq_comm])
  case h_5 tries idx phase =>
    split
    · exact counted.stay party _ (by simp [phase, Consumer.Claims])
    · exact counted.stay party _ (by simp [phase, Consumer.Claims])
  case h_6 tries idx phase =>
    apply counted.leave party idx _ (by simp [phase, Consumer.Claims, eq_comm])
    intro other
    split <;> simp [Consumer.Claims]

/-- Every step of every party keeps the count. -/
theorem step_counted (state : State Party geometry) (action : Action Party geometry)
    (counted : Counted state) : Counted (step state action) := by
  cases action with
  | acquireSlot | publishSlot | abandonSlot =>
      simp only [step]
      split <;> exact counted
  | writeByte offset value =>
      simp only [step]
      split <;> exact counted
  | producer =>
      simp only [step, producerStep]
      split
      case h_2 => split_ifs <;> exact counted
      case h_3 | h_4 | h_6 => split_ifs <;> exact counted
      all_goals exact counted
  | retainLatest party =>
      simp only [step]
      split
      · rename_i idle
        exact counted.stay party _ (by simp [idle, Consumer.Claims])
      · exact counted
  | consumer party => exact consumerStep_counted counted party
  | releaseSlot party =>
      simp only [step]
      split
      · rename_i idx holds
        exact counted.leave party idx _ (by simp [holds, Consumer.Claims, eq_comm])
          (by simp [Consumer.Claims])
      · exact counted

omit [Fintype Party] in
theorem consumerStep_untouched (state : State Party geometry) (party : Party) :
    Untouched state (consumerStep state party) := by
  unfold consumerStep
  split
  · exact ⟨rfl, rfl, rfl, rfl, rfl, rfl, rfl⟩
  · exact ⟨rfl, rfl, rfl, rfl, rfl, rfl, rfl⟩
  · split <;> exact ⟨rfl, rfl, rfl, rfl, rfl, rfl, rfl⟩
  · exact ⟨rfl, rfl, rfl, rfl, rfl, rfl, rfl⟩
  · split <;> exact ⟨rfl, rfl, rfl, rfl, rfl, rfl, rfl⟩
  · exact ⟨rfl, rfl, rfl, rfl, rfl, rfl, rfl⟩

omit [Fintype Party] in
theorem retainLatest_untouched (state : State Party geometry) (party : Party) :
    Untouched state (step state (.retainLatest party)) := by
  simp only [step]
  split <;> exact ⟨rfl, rfl, rfl, rfl, rfl, rfl, rfl⟩

omit [Fintype Party] in
theorem releaseSlot_untouched (state : State Party geometry) (party : Party) :
    Untouched state (step state (.releaseSlot party)) := by
  simp only [step]
  split <;> exact ⟨rfl, rfl, rfl, rfl, rfl, rfl, rfl⟩

omit [DecidableEq Party] in
/-- A step of a consumer keeps the invariant when it takes hold of a ready slot only. -/
theorem Safe.untouched {state next : State Party geometry} (safe : Safe state)
    (same : Untouched state next) (counted : Counted next)
    (ready : ∀ party idx, Holds next party idx →
      Holds state party idx ∨ state.slotState idx = .ready) : Safe next := by
  have stored {idx : geometry.Index} (kept : Stored state idx) : Stored next idx := by
    unfold Stored
    rw [same.published, same.payload]
    exact kept
  refine ⟨counted, ?_, ?_, ?_⟩
  · have claimed := safe.claimed
    unfold Claimed at claimed ⊢
    rw [same.producer, same.slotState, same.draft, same.payload]
    split at claimed
    · exact claimed
    · exact ⟨claimed.1, fun ready => stored (claimed.2 ready)⟩
    · exact ⟨claimed.1, fun ready => stored (claimed.2 ready)⟩
    · exact claimed
    · exact claimed
  · intro idx writable
    rw [same.slotState] at writable
    exact stored (safe.stored idx writable)
  · intro party idx holds
    unfold Owns
    rw [same.producer]
    rcases ready party idx holds with before | writable
    · exact ⟨(safe.held party idx before).1, stored (safe.held party idx before).2⟩
    · refine ⟨?_, stored (safe.stored idx writable)⟩
      intro owned
      have claimed := safe.claimed
      rw [Claimed, owned] at claimed
      rw [claimed.1] at writable
      cases writable

omit [Fintype Party] in
theorem consumerStep_consuming (state : State Party geometry) (party : Party) :
    Consuming state (.consumer party) party ((consumerStep state party).consumer party) := by
  unfold consumerStep
  split
  case h_1 | h_2 => exact .rests
  case h_3 tries phase =>
    split
    · dsimp only
      rw [Function.update_self]
      exact .loads rfl tries _ phase rfl
    · dsimp only
      rw [Function.update_self]
      exact .misses rfl tries phase
  case h_4 tries idx phase =>
    dsimp only
    rw [Function.update_self]
    exact .stakes rfl tries idx phase
  case h_5 tries idx phase =>
    split
    · rename_i ready
      dsimp only
      rw [Function.update_self]
      exact .retains rfl tries idx phase ready
    · rename_i unready
      dsimp only
      rw [Function.update_self]
      exact .rejects rfl tries idx phase unready
  case h_6 tries idx phase =>
    dsimp only
    rw [Function.update_self]
    split
    · exact .retries rfl tries idx phase
    · exact .fails rfl tries idx phase

omit [Fintype Party] in
/-- A step of a consumer changes no other phase. -/
theorem consumerStep_other (state : State Party geometry) {party other : Party}
    (different : other ≠ party) :
    (consumerStep state party).consumer other = state.consumer other := by
  unfold consumerStep
  split
  case h_1 | h_2 => rfl
  case h_3 | h_5 => split <;> exact Function.update_of_ne different _ _
  case h_4 | h_6 => exact Function.update_of_ne different _ _

omit [Fintype Party] in
/-- Every step does one of these things to every consumer. -/
theorem step_consuming (state : State Party geometry) (action : Action Party geometry)
    (party : Party) : Consuming state action party ((step state action).consumer party) := by
  cases action with
  | acquireSlot | publishSlot | abandonSlot =>
      simp only [step]
      split <;> exact .rests
  | writeByte offset value =>
      simp only [step]
      split <;> exact .rests
  | producer =>
      simp only [step, producerStep]
      split
      case h_2 => split_ifs <;> exact .rests
      case h_3 | h_4 | h_6 => split_ifs <;> exact .rests
      all_goals exact .rests
  | retainLatest actor =>
      simp only [step]
      split
      · rename_i idle
        dsimp only
        by_cases mine : party = actor
        · subst actor
          rw [Function.update_self]
          exact .calls rfl idle
        · rw [Function.update_of_ne mine]
          exact .rests
      · exact .rests
  | consumer actor =>
      by_cases mine : party = actor
      · subst actor
        exact consumerStep_consuming state party
      · simp only [step]
        rw [consumerStep_other state mine]
        exact .rests
  | releaseSlot actor =>
      simp only [step]
      split
      · rename_i idx holds
        dsimp only
        by_cases mine : party = actor
        · subst actor
          rw [Function.update_self]
          exact .releases rfl idx holds
        · rw [Function.update_of_ne mine]
          exact .rests
      · exact .rests

omit [Fintype Party] in
/-- A consumer takes hold of a slot in the step that finds it ready. -/
theorem step_holds {state : State Party geometry} {action : Action Party geometry} {party : Party}
    {idx : geometry.Index} (holds : Holds (step state action) party idx) :
    Holds state party idx ∨ state.slotState idx = .ready := by
  have consuming := step_consuming state action party
  rw [show (step state action).consumer party = .holding idx from holds] at consuming
  generalize next : Consumer.holding idx = phase at consuming
  cases consuming with
  | rests => exact .inl next.symm
  | retains acts tries slot verify ready =>
      cases next
      exact .inr ready
  | calls | loads | misses | stakes | rejects | retries | fails | releases => cases next

/-- A byte written into the owned slot reaches no held slot. -/
theorem writeByte_safe {state : State Party geometry} (safe : Safe state)
    (offset : Fin geometry.slotSize) (value : UInt8) :
    Safe (step state (.writeByte offset value)) := by
  have claimed := safe.claimed
  simp only [step]
  split
  case h_1 idx phase =>
    rw [Claimed, phase] at claimed
    have other (slot : geometry.Index) (different : slot ≠ idx) (kept : Stored state slot) :
        Stored { state with
          payload := Function.update state.payload idx
            (Function.update (state.payload idx) offset value)
          draft := Function.update state.draft offset value } slot := by
      obtain ⟨frame, member, same, bytes⟩ := kept
      exact ⟨frame, member, same, by simpa [Function.update_of_ne different] using bytes⟩
    refine ⟨safe.counted, ?_, ?_, ?_⟩
    · rw [Claimed]
      simp only [phase]
      exact ⟨claimed.1, by rw [Function.update_self, claimed.2]⟩
    · intro slot ready
      refine other slot ?_ (safe.stored slot ready)
      intro same
      subst slot
      rw [claimed.1] at ready
      cases ready
    · intro party slot holds
      obtain ⟨unowned, kept⟩ := safe.held party slot holds
      refine ⟨unowned, other slot ?_ kept⟩
      intro same
      subst slot
      exact unowned phase
  case h_2 => exact safe

/-- The state store of a publish makes the draft available as one complete frame. -/
theorem publishSlot_safe {state : State Party geometry} (safe : Safe state) :
    Safe (step state .publishSlot) := by
  have claimed := safe.claimed
  simp only [step]
  split
  case h_1 idx phase =>
    rw [Claimed, phase] at claimed
    have older (slot : geometry.Index) (kept : Stored state slot) :
        Stored { state with
          slotState := Function.update state.slotState idx .ready
          producer := .advertise idx
          published := state.published ++ [⟨idx, state.draft⟩] } slot := by
      obtain ⟨frame, member, same, bytes⟩ := kept
      exact ⟨frame, List.mem_append_left _ member, same, bytes⟩
    refine ⟨safe.counted, True.intro, ?_, ?_⟩
    · intro slot ready
      by_cases same : slot = idx
      · subst slot
        exact ⟨⟨idx, state.draft⟩, by simp, rfl, claimed.2⟩
      · exact older slot (safe.stored slot (by simpa [Function.update_of_ne same] using ready))
    · intro party slot holds
      exact ⟨by simp [Owns], older slot (safe.held party slot holds).2⟩
  case h_2 => exact safe

/-- The state store of an abandon offers no frame. -/
theorem abandonSlot_safe {state : State Party geometry} (safe : Safe state) :
    Safe (step state .abandonSlot) := by
  simp only [step]
  split
  · exact safe.state_store _ .free .idle True.intro (by simp) (by simp)
  · exact safe

/-- Every step of every party keeps the invariant. -/
theorem step_safe (bounded : Fintype.card Party < 2 ^ 32) (state : State Party geometry)
    (action : Action Party geometry) (safe : Safe state) : Safe (step state action) := by
  cases action with
  | acquireSlot =>
      simp only [step]
      split
      · exact safe.producer_move _ _ _ _ True.intro (by simp)
      · exact safe
  | producer => exact producerStep_safe safe bounded
  | writeByte offset value => exact writeByte_safe safe offset value
  | publishSlot => exact publishSlot_safe safe
  | abandonSlot => exact abandonSlot_safe safe
  | retainLatest party =>
      exact safe.untouched (retainLatest_untouched state party)
        (step_counted state _ safe.counted) fun _ _ => step_holds
  | consumer party =>
      have holds (other : Party) (idx : geometry.Index)
          (holds : Holds (step state (.consumer party)) other idx) :=
        step_holds holds
      exact safe.untouched (consumerStep_untouched state party)
        (consumerStep_counted safe.counted party) holds
  | releaseSlot party =>
      exact safe.untouched (releaseSlot_untouched state party)
        (step_counted state _ safe.counted) fun _ _ => step_holds

omit [DecidableEq Party] in
theorem initial_counted (payload : geometry.Index → geometry.Payload) :
    Counted (initial payload : State Party geometry) := by
  intro idx
  have empty : claims (initial payload : State Party geometry) idx = 0 :=
    (census_eq_zero_iff _).mpr fun party => by simp [initial, Consumer.Claims]
  rw [empty]
  rfl

omit [DecidableEq Party] in
/-- A fresh ring satisfies the invariant. -/
theorem initial_safe (payload : geometry.Index → geometry.Payload) :
    Safe (initial payload : State Party geometry) where
  counted := initial_counted payload
  claimed := True.intro
  stored := by simp [initial]
  held := by simp [initial, Holds]

/-- Every reachable state of a ring satisfies the invariant. -/
theorem run_safe (bounded : Fintype.card Party < 2 ^ 32)
    (payload : geometry.Index → geometry.Payload) (actions : List (Action Party geometry)) :
    Safe (run step (initial payload) actions) :=
  run_invariant (step_safe bounded) actions _ (initial_safe payload)

omit [Fintype Party] in
/-- A step changes the bytes of a slot only while the producer owns it. -/
theorem step_payload (state : State Party geometry) (action : Action Party geometry)
    (idx : geometry.Index) (unowned : ¬ Owns state idx) :
    (step state action).payload idx = state.payload idx := by
  cases action with
  | acquireSlot | publishSlot | abandonSlot | retainLatest _ | releaseSlot _ =>
      simp only [step]
      split <;> rfl
  | producer =>
      simp only [step, producerStep]
      split <;> first | rfl | (split_ifs <;> rfl)
  | writeByte offset value =>
      simp only [step]
      split
      case h_1 slot phase =>
        have different : idx ≠ slot := fun same => unowned (same ▸ phase)
        exact Function.update_of_ne different _ _
      case h_2 => rfl
  | consumer party =>
      simp only [step, consumerStep]
      split <;> first | rfl | (split_ifs <;> rfl)

/-- From the load of `SLOT_READY` to the release the producer never owns the slot, and the slot
keeps the bytes of one frame that was complete at that load. -/
theorem hold_safety (bounded : Fintype.card Party < 2 ^ 32)
    (payload : geometry.Index → geometry.Payload) (before during : List (Action Party geometry))
    (party : Party) (tries : Nat) (idx : geometry.Index)
    (verifying : (run step (initial payload) before).consumer party = .verify tries idx)
    (ready : (run step (initial payload) before).slotState idx = .ready)
    (kept : Along step (Holds · party idx)
      (step (run step (initial payload) before) (.consumer party)) during) :
    ∃ frame ∈ (run step (initial payload) before).published, frame.slot = idx ∧
      frame.bytes = (run step (initial payload) before).payload idx ∧
      ¬ Owns (run step (step (run step (initial payload) before) (.consumer party)) during) idx ∧
      (run step (step (run step (initial payload) before) (.consumer party)) during).payload idx =
        frame.bytes := by
  have safe := run_safe bounded payload before
  generalize run step (initial payload) before = seen at *
  obtain ⟨frame, member, slot, bytes⟩ := safe.stored idx ready
  refine ⟨frame, member, slot, bytes, ?_⟩
  have taken : step seen (.consumer party) =
      { seen with consumer := Function.update seen.consumer party (.holding idx) } := by
    simp [step, consumerStep, verifying, ready]
  have start : Safe (step seen (.consumer party)) ∧ Holds (step seen (.consumer party)) party idx ∧
      (step seen (.consumer party)).payload idx = frame.bytes := by
    refine ⟨step_safe bounded _ _ safe, ?_, ?_⟩
    · rw [taken]
      exact Function.update_self _ _ _
    · rw [taken, bytes]
  have keep (state : State Party geometry) (action : Action Party geometry)
      (held : Safe state ∧ Holds state party idx ∧ state.payload idx = frame.bytes)
      (next : Holds (step state action) party idx) :
      Safe (step state action) ∧ Holds (step state action) party idx ∧
        (step state action).payload idx = frame.bytes :=
    ⟨step_safe bounded _ _ held.1, next,
      (step_payload state action idx (held.1.held party idx held.2.1).1).trans held.2.2⟩
  have finish := run_invariant_of_meets keep during _ start kept
  exact ⟨(finish.1.held party idx finish.2.1).1, finish.2.2⟩

/-- A ring of two slots with one byte each. -/
def smallRing : Geometry := ⟨2, 1, by decide, by decide⟩

/-- The second slot of the small ring. -/
def slotOne : smallRing.Index := ⟨1, by decide⟩

/-- The only byte of a slot of the small ring. -/
def onlyByte : Fin smallRing.slotSize := ⟨0, by decide⟩

/-- The producer publishes one frame, and the consumer stakes its claim on it. -/
def publishAndStake : List (Action Unit smallRing) :=
  [.acquireSlot, .producer, .producer, .producer, .producer, .producer,
    .writeByte onlyByte 7, .publishSlot, .producer, .retainLatest (), .consumer (), .consumer ()]

/-- A second acquire takes the other slot and writes into it. -/
def fillOther : List (Action Unit smallRing) :=
  [.acquireSlot, .producer, .producer, .producer, .producer, .producer, .writeByte onlyByte 9]

/-- The hold survives a second acquire that fills the other slot. -/
theorem hold_safety_small :
    ∃ frame ∈ (run step (initial fun _ _ => 0) publishAndStake).published, frame.slot = slotOne ∧
      frame.bytes = (run step (initial fun _ _ => 0) publishAndStake).payload slotOne ∧
      ¬ Owns (run step (step (run step (initial fun _ _ => 0) publishAndStake) (.consumer ()))
        fillOther) slotOne ∧
      (run step (step (run step (initial fun _ _ => 0) publishAndStake) (.consumer ()))
        fillOther).payload slotOne = frame.bytes :=
  hold_safety (by decide) (fun _ _ => 0) publishAndStake fillOther () 0 slotOne (by decide)
    (by decide) ⟨by decide, by decide, by decide, by decide, by decide, by decide, by decide,
      True.intro⟩

end Chappe.ShmRing
