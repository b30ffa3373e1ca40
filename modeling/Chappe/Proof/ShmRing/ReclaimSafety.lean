/-
This file shows when the reclaim of an orphaned ring respects the consumers' claims.
-/

import Chappe.Construction.Reclaim
import Chappe.Proof.ShmRing.HoldSafety

namespace Chappe.Reclaim
open Foundation ShmRing

variable {Party : Type} [Fintype Party] {geometry : Geometry}

/-- The handshake invariant survives, and a process that is not live has no control point. -/
structure Kept (state : State Party geometry) : Prop where
  safe : Safe state.ring
  quiet : state.phase ≠ .live → state.ring.producer = .idle

/-- Each store of the reclaim keeps the handshake when the cleared slot has no claim. -/
theorem createStep_kept {state : State Party geometry} (kept : Kept state)
    (unclaimed : Unclaimed state .create) : Kept (createStep state) := by
  have safe := kept.safe
  unfold createStep
  split
  case h_1 => exact kept
  case h_2 phase =>
    have quiet := kept.quiet (by simp [phase])
    exact ⟨⟨safe.counted, safe.claimed, safe.stored, safe.held⟩, fun _ => quiet⟩
  case h_3 phase =>
    have quiet := kept.quiet (by simp [phase])
    exact ⟨⟨safe.counted, safe.claimed, safe.stored, safe.held⟩, fun _ => quiet⟩
  case h_4 idx phase =>
    have quiet := kept.quiet (by simp [phase])
    refine ⟨?_, fun _ => quiet⟩
    have stored := safe.state_store idx .free .idle True.intro (by simp) (by simp)
    rwa [← quiet] at stored
  case h_5 idx phase =>
    have quiet := kept.quiet (by simp [phase])
    refine ⟨⟨?_, safe.claimed, safe.stored, safe.held⟩, fun _ => quiet⟩
    intro slot
    by_cases same : slot = idx
    · subst slot
      have empty : claims state.ring idx = 0 := unclaimed idx phase
      change Function.update state.ring.refcount idx 0 idx = UInt32.ofNat (claims state.ring idx)
      rw [Function.update_self, empty]
      rfl
    · change Function.update state.ring.refcount idx 0 slot = UInt32.ofNat (claims state.ring slot)
      rw [Function.update_of_ne same]
      exact safe.counted slot
  case h_6 phase =>
    exact ⟨⟨safe.counted, safe.claimed, safe.stored, safe.held⟩, by simp⟩

variable [DecidableEq Party]

omit [Fintype Party] in
/-- A consumer step leaves the producer's control point. -/
theorem step_producer_of_consumer (state : ShmRing.State Party geometry)
    (action : ShmRing.Action Party geometry) (consumer : ofProducer action = false) :
    (ShmRing.step state action).producer = state.producer := by
  cases action with
  | acquireSlot | producer | writeByte _ _ | publishSlot | abandonSlot => cases consumer
  | retainLatest party | releaseSlot party =>
      simp only [ShmRing.step]
      split <;> rfl
  | consumer party =>
      simp only [ShmRing.step, consumerStep]
      split <;> first | rfl | (split_ifs <;> rfl)

/-- Every step keeps the handshake when the reclaim clears only unclaimed slots. -/
theorem step_kept (bounded : Fintype.card Party < 2 ^ 32) (state : State Party geometry)
    (action : Action Party geometry) (kept : Kept state) (unclaimed : Unclaimed state action) :
    Kept (step state action) := by
  cases action with
  | ring action =>
      simp only [step]
      split
      case isTrue => exact kept
      case isFalse permitted =>
        refine ⟨step_safe bounded _ _ kept.safe, ?_⟩
        intro stopped
        have consumer : ofProducer action = false := by
          by_contra producer
          exact permitted ⟨by simpa using producer, stopped⟩
        exact (step_producer_of_consumer _ _ consumer).trans (kept.quiet stopped)
  | kill =>
      have safe := kept.safe
      refine ⟨⟨safe.counted, True.intro, safe.stored, ?_⟩, fun _ => rfl⟩
      intro party idx holds
      exact ⟨by simp [step, Owns], (safe.held party idx holds).2⟩
  | create => exact createStep_kept kept unclaimed

omit [DecidableEq Party] in
/-- The handshake invariant gives the promise to the attached consumers. -/
theorem Kept.sound {state : State Party geometry} (kept : Kept state)
    (bounded : Fintype.card Party < 2 ^ 32) : Sound state where
  counted := by
    intro idx
    have count : claims state.ring idx < 2 ^ 32 := Nat.lt_of_le_of_lt (census_le_card _) bounded
    rw [kept.safe.counted idx, UInt32.toNat_ofNat_of_lt' count]
  positive := by
    intro party idx claim
    apply Nat.pos_of_ne_zero
    intro zero
    exact kept.safe.counted.no_claims bounded (UInt32.toNat_inj.mp zero) party claim
  unowned := fun party idx holds => (kept.safe.held party idx holds).1

/-- A run that never clears the refcount of a claimed slot keeps every promise of the ring. -/
theorem reclaim_sound (bounded : Fintype.card Party < 2 ^ 32)
    (payload : geometry.Index → geometry.Payload) (actions : List (Action Party geometry))
    (unclaimed : Meets step Unclaimed (initial payload) actions) :
    Sound (run step (initial payload) actions) := by
  have start : Kept (initial payload : State Party geometry) :=
    ⟨initial_safe payload, fun stopped => absurd rfl stopped⟩
  exact (run_invariant_of_meets (step_kept bounded) actions _ start unclaimed).sound bounded

/-- The consumer loads `SLOT_READY` and so holds the published frame. -/
def publishAndHold : List (ShmRing.Action Unit smallRing) := publishAndStake ++ [.consumer ()]

/-- The seven stores of a reclaim of the small ring. -/
def reclaimSmall : List (Action Unit smallRing) := List.replicate 7 .create

/-- The six steps of an acquire that takes the first slot it inspects. -/
def acquireFirst : List (ShmRing.Action Unit smallRing) :=
  [.acquireSlot, .producer, .producer, .producer, .producer, .producer]

/-- A consumer holds the published frame when the producer dies, and a successor reclaims the
ring and acquires a slot. -/
def reclaimUnderHold : List (Action Unit smallRing) :=
  publishAndHold.map .ring ++ .kill :: reclaimSmall ++ acquireFirst.map .ring

/-- The reclaim forgets a live hold. The successor owns the held slot, and the release of the
hold takes the refcount below zero. -/
theorem reclaim_forgets_hold :
    ¬ Sound (run step (initial fun _ _ => 0) reclaimUnderHold) ∧
      Holds (run step (initial fun _ _ => 0) reclaimUnderHold).ring () slotOne ∧
      Owns (run step (initial fun _ _ => 0) reclaimUnderHold).ring slotOne ∧
      ((step (run step (initial fun _ _ => 0) reclaimUnderHold)
        (.ring (.releaseSlot ()))).ring.refcount slotOne).toNat = 2 ^ 32 - 1 := by
  have holds : Holds (run step (initial fun _ _ => 0) reclaimUnderHold).ring () slotOne := by decide
  have owns : Owns (run step (initial fun _ _ => 0) reclaimUnderHold).ring slotOne := by decide
  exact ⟨fun sound => sound.unowned () slotOne holds owns, holds, owns, by decide⟩

/-- The producer dies and its successor reclaims the ring after the consumer has released. -/
def reclaimAfterRelease : List (Action Unit smallRing) :=
  publishAndHold.map .ring ++ .ring (.releaseSlot ()) :: .kill :: reclaimSmall

theorem reclaim_sound_small :
    Sound (run step (initial fun _ _ => 0) reclaimAfterRelease) := by
  apply reclaim_sound (by decide)
  refine ⟨True.intro, True.intro, True.intro, True.intro, True.intro, True.intro, True.intro,
    True.intro, True.intro, True.intro, True.intro, True.intro, True.intro, True.intro, True.intro,
    ?_, ?_, ?_, ?_, ?_, ?_, ?_, True.intro⟩
  all_goals intro idx; revert idx; decide

end Chappe.Reclaim
