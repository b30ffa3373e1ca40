/-
This file proves that a consumer misses a frame only when the producer overtakes it. The slot that
`last_ready` names stays ready until the next publish is complete, so a failed attempt has seen one.
-/

import Chappe.Proof.ShmRing.Freshness

namespace Chappe.ShmRing
open Foundation

variable {Party : Type} {geometry : Geometry}

/-- The next step of the consumer returns -1 from `shm_ring_retain_latest`. -/
def ReturnsNone (state : State Party geometry) (party : Party) : Prop :=
  (∃ tries, state.consumer party = .loadLast tries ∧
      ¬ (state.lastReady ≠ shmLastNone ∧ state.lastReady < geometry.numSlots)) ∨
    ∃ tries idx, state.consumer party = .unstake tries idx ∧ ¬ tries + 1 < shmRetainTries

/-- The producer works on a slot that `last_ready` does not name, and advertises a ready one. -/
def Avoids (state : State Party geometry) : Prop :=
  match state.producer with
  | .idle => True
  | .scan published _ => published = state.lastReady
  | .prefilter published _ idx | .loadState published _ idx | .claim published _ idx _
  | .recheck published _ idx _ | .rollback published _ idx _ =>
      published = state.lastReady ∧ idx.val ≠ state.lastReady
  | .owned idx => idx.val ≠ state.lastReady
  | .advertise idx => state.slotState idx = .ready

/-- The slot that `last_ready` names is ready at every instant. -/
structure Current (state : State Party geometry) : Prop where
  ready : ∀ idx : geometry.Index, state.lastReady = idx.val → state.slotState idx = .ready
  avoids : Avoids state
  named : 0 < completed state → state.lastReady < geometry.numSlots
  counts : ∀ idx, state.producer = .advertise idx → 0 < state.published.length

variable {state : State Party geometry}

theorem initial_current (payload : geometry.Index → geometry.Payload) :
    Current (initial payload : State Party geometry) where
  ready := by
    intro idx same
    have inside := idx.isLt
    have fits := geometry.fitsWord
    simp only [initial, shmLastNone] at same
    omega
  avoids := True.intro
  named := by simp [initial, completed]
  counts := by simp [initial]

theorem completed_of_quiet (quiet : ∀ idx, state.producer ≠ .advertise idx) :
    completed state = state.published.length := by
  unfold completed
  split
  · rename_i idx advertise
    exact absurd advertise (quiet idx)
  · rfl

/-- A step that stores to no named slot keeps the named slot ready. -/
theorem Current.work (current : Current state) {slotState : geometry.Index → SlotState}
    {payload : geometry.Index → geometry.Payload} {producer : Producer geometry}
    {writeCursor : Nat} {draft : geometry.Payload}
    (kept : ∀ idx : geometry.Index, state.lastReady = idx.val → slotState idx = state.slotState idx)
    (before : ∀ idx, state.producer ≠ .advertise idx) (after : ∀ idx, producer ≠ .advertise idx)
    (avoids : Avoids { state with
      slotState := slotState, payload := payload, producer := producer, writeCursor := writeCursor,
      draft := draft }) :
    Current { state with
      slotState := slotState, payload := payload, producer := producer, writeCursor := writeCursor,
      draft := draft } where
  ready := fun idx same => (kept idx same).trans (current.ready idx same)
  avoids := avoids
  named := by
    rw [completed_of_quiet after]
    have named := current.named
    rw [completed_of_quiet before] at named
    exact named
  counts := fun idx advertise => absurd advertise (after idx)

/-- A store to another slot keeps the state of the named slot. -/
theorem store_elsewhere {slot : geometry.Index} (other : slot.val ≠ state.lastReady)
    (stored : SlotState) (idx : geometry.Index) (same : state.lastReady = idx.val) :
    Function.update state.slotState slot stored idx = state.slotState idx := by
  apply Function.update_of_ne
  rintro rfl
  exact other same.symm

theorem producerStep_current (current : Current state) : Current (producerStep state) := by
  have avoids := current.avoids
  unfold Avoids at avoids
  unfold producerStep
  split
  case h_1 | h_8 => exact current
  case h_2 published attempt phase =>
    rw [phase] at avoids
    dsimp only
    split_ifs with inside here
    · exact current.work (fun _ _ => rfl) (by simp [phase]) (by simp) avoids
    · apply current.work (fun _ _ => rfl) (by simp [phase]) (by simp)
      exact ⟨avoids, fun same => here (same.trans avoids.symm)⟩
    · exact current.work (fun _ _ => rfl) (by simp [phase]) (by simp) True.intro
  case h_3 published attempt idx phase =>
    rw [phase] at avoids
    split_ifs with claimed
    · exact current.work (fun _ _ => rfl) (by simp [phase]) (by simp) avoids.1
    · exact current.work (fun _ _ => rfl) (by simp [phase]) (by simp) avoids
  case h_4 published attempt idx phase =>
    rw [phase] at avoids
    split_ifs with busy
    · exact current.work (fun _ _ => rfl) (by simp [phase]) (by simp) avoids.1
    · exact current.work (fun _ _ => rfl) (by simp [phase]) (by simp) avoids
  case h_5 published attempt idx prev phase =>
    rw [phase] at avoids
    exact current.work (store_elsewhere avoids.2 .writing) (by simp [phase]) (by simp) avoids
  case h_6 published attempt idx prev phase =>
    rw [phase] at avoids
    split_ifs with claimed
    · exact current.work (fun _ _ => rfl) (by simp [phase]) (by simp) avoids
    · exact current.work (fun _ _ => rfl) (by simp [phase]) (by simp) avoids.2
  case h_7 published attempt idx prev phase =>
    rw [phase] at avoids
    exact current.work (store_elsewhere avoids.2 prev) (by simp [phase]) (by simp) avoids.1
  case h_9 idx phase =>
    rw [phase] at avoids
    refine ⟨?_, True.intro, fun _ => idx.isLt, by simp⟩
    intro slot same
    rw [← Fin.ext same]
    exact avoids

theorem Current.untouched {next : State Party geometry} (current : Current state)
    (same : Untouched state next) : Current next := by
  have count : completed next = completed state := by
    rw [completed, completed, same.producer, same.published]
  refine ⟨?_, ?_, ?_, ?_⟩
  · rw [same.lastReady, same.slotState]
    exact current.ready
  · unfold Avoids
    rw [same.producer, same.lastReady, same.slotState]
    exact current.avoids
  · rw [count, same.lastReady]
    exact current.named
  · rw [same.producer, same.published]
    exact current.counts

/-- Each attempt of the call that has failed since the start has seen a publish complete. -/
def Consumer.Missed (start count lastReady : Nat) : Consumer geometry → Prop
  | .idle | .holding _ => start ≤ count
  | .loadLast tries => start + tries ≤ count
  | .stake tries idx | .verify tries idx =>
      start + tries ≤ count ∧ (lastReady = idx.val ∨ start + tries + 1 ≤ count)
  | .unstake tries _ => start + tries + 1 ≤ count

/-- The account survives the steps of the other parties. -/
theorem Consumer.Missed.later {start count lastReady later newer : Nat}
    {consumer : Consumer geometry} (missed : consumer.Missed start count lastReady)
    (grows : count ≤ later) (named : newer = lastReady ∨ count + 1 ≤ later) :
    consumer.Missed start later newer := by
  cases consumer with
  | idle | holding idx | loadLast tries | unstake tries idx =>
      simp only [Missed] at missed ⊢
      omega
  | stake tries idx | verify tries idx =>
      simp only [Missed] at missed ⊢
      omega

/-- A call that returns -1 after the first publish has failed in every attempt. -/
theorem Consumer.Missed.overtaken {start : Nat} {party : Party} (current : Current state)
    (missed : (state.consumer party).Missed start (completed state) state.lastReady)
    (started : 0 < start) (fails : ReturnsNone state party) :
    start + shmRetainTries ≤ completed state := by
  have fits := geometry.fitsWord
  rcases fails with ⟨tries, phase, outside⟩ | ⟨tries, idx, phase, last⟩
  · rw [phase] at missed
    simp only [Missed] at missed
    have named := current.named (by omega)
    refine absurd ⟨?_, named⟩ outside
    unfold shmLastNone
    omega
  · rw [phase] at missed
    simp only [Missed] at missed
    omega

variable [DecidableEq Party]

theorem publishSlot_current (current : Current state) : Current (step state .publishSlot) := by
  have avoids := current.avoids
  unfold Avoids at avoids
  simp only [step]
  split
  case h_1 idx phase =>
    rw [phase] at avoids
    have count := completed_of_owned phase
    refine ⟨?_, Function.update_self .., ?_, by simp⟩
    · intro slot same
      exact (store_elsewhere avoids .ready slot same).trans (current.ready slot same)
    · intro some
      apply current.named
      rw [count]
      simpa [completed] using some
  case h_2 => exact current

theorem step_current (state : State Party geometry) (action : Action Party geometry)
    (current : Current state) : Current (step state action) := by
  have avoids := current.avoids
  unfold Avoids at avoids
  cases action with
  | acquireSlot =>
      simp only [step]
      split
      · rename_i idle
        exact current.work (fun _ _ => rfl) (by simp [idle]) (by simp) rfl
      · exact current
  | producer => exact producerStep_current current
  | writeByte offset value =>
      simp only [step]
      split
      · rename_i idx owned
        rw [owned] at avoids
        refine current.work (fun _ _ => rfl) (by simp [owned]) (by simp [owned]) ?_
        unfold Avoids
        simp only [owned]
        exact avoids
      · exact current
  | publishSlot => exact publishSlot_current current
  | abandonSlot =>
      simp only [step]
      split
      · rename_i idx owned
        rw [owned] at avoids
        exact current.work (store_elsewhere avoids .free) (by simp [owned]) (by simp) True.intro
      · exact current
  | retainLatest party => exact current.untouched (retainLatest_untouched state party)
  | consumer party => exact current.untouched (consumerStep_untouched state party)
  | releaseSlot party => exact current.untouched (releaseSlot_untouched state party)

/-- A step that changes the word `last_ready` completes a publish. -/
theorem step_lastReady (current : Current state) (action : Action Party geometry) :
    (step state action).lastReady = state.lastReady ∨
      completed state + 1 ≤ completed (step state action) := by
  cases step_publishing state action with
  | rests _ _ lastReady => exact .inl lastReady
  | stores _ _ _ _ lastReady => exact .inl lastReady
  | advertises idx advertise producer published =>
      have counts := current.counts idx advertise
      right
      rw [completed, completed, advertise, producer, published]
      show state.published.length - 1 + 1 ≤ state.published.length
      omega

/-- A consumer between two calls has failed in no attempt since. -/
theorem step_missed {start : Nat} {party : Party} (current : Current state)
    (action : Action Party geometry)
    (missed : (state.consumer party).Missed start (completed state) state.lastReady) :
    ((step state action).consumer party).Missed start (completed (step state action))
      (step state action).lastReady := by
  have grows := step_completed state action
  have named := step_lastReady current action
  have consuming := step_consuming state action party
  apply Consumer.Missed.later _ grows named
  generalize (step state action).consumer party = next at consuming ⊢
  cases consuming with
  | rests => exact missed
  | calls acts idle =>
      rw [idle] at missed
      exact missed
  | loads acts tries idx phase named =>
      rw [phase] at missed
      exact ⟨missed, .inl named⟩
  | stakes acts tries idx phase =>
      rw [phase] at missed
      exact missed
  | rejects acts tries idx phase unready =>
      rw [phase] at missed
      exact missed.2.resolve_left fun named => unready (current.ready idx named)
  | retries acts tries idx phase =>
      rw [phase] at missed
      exact missed
  | misses acts tries phase | retains acts tries idx phase | fails acts tries idx phase
  | releases acts idx phase =>
      rw [phase] at missed
      simp only [Consumer.Missed] at missed ⊢
      omega

theorem run_missed {start : Nat} {party : Party} (actions : List (Action Party geometry))
    (current : Current state)
    (missed : (state.consumer party).Missed start (completed state) state.lastReady) :
    Current (run step state actions) ∧
      ((run step state actions).consumer party).Missed start (completed (run step state actions))
        (run step state actions).lastReady := by
  have keep (state : State Party geometry) (action : Action Party geometry)
      (held : Current state ∧
        (state.consumer party).Missed start (completed state) state.lastReady) :
      Current (step state action) ∧
        ((step state action).consumer party).Missed start (completed (step state action))
          (step state action).lastReady :=
    ⟨step_current state action held.1, step_missed held.1 action held.2⟩
  exact run_invariant keep actions state ⟨current, missed⟩

/-- A call that returns -1 leaves its consumer without a claim. -/
theorem ReturnsNone.unclaimed {party : Party} (fails : ReturnsNone state party)
    (idx : geometry.Index) :
    ¬ ((step state (.consumer party)).consumer party).Claims idx := by
  simp only [step]
  unfold consumerStep
  rcases fails with ⟨tries, phase, outside⟩ | ⟨tries, slot, phase, last⟩
  · simp [phase, outside, Consumer.Claims]
  · simp [phase, last, Consumer.Claims]

/-- A call of `shm_ring_retain_latest` that returns -1 although a publish was complete when it began
has been overtaken by `SHM_RETAIN_TRIES` publishes. Each refcount that it leaves is the number of
the claims of the other consumers. -/
theorem retain_latest_overtaken [Fintype Party] (payload : geometry.Index → geometry.Payload)
    (before during : List (Action Party geometry)) (party : Party)
    (idle : (run step (initial payload) before).consumer party = .idle)
    (fails : ReturnsNone (run step (run step (initial payload) before) during) party) :
    (0 < completed (run step (initial payload) before) →
      completed (run step (initial payload) before) + shmRetainTries ≤
        completed (run step (run step (initial payload) before) during)) ∧
    ∀ idx, (step (run step (run step (initial payload) before) during)
        (.consumer party)).refcount idx =
      UInt32.ofNat ((Finset.univ.erase party).filter fun other =>
        ((step (run step (run step (initial payload) before) during)
          (.consumer party)).consumer other).Claims idx).card := by
  have current : Current (run step (initial payload) before) :=
    run_invariant step_current before _ (initial_current payload)
  have counted : Counted (run step (run step (initial payload) before) during) :=
    run_invariant step_counted during _
      (run_invariant step_counted before _ (initial_counted payload))
  have missed : ((run step (initial payload) before).consumer party).Missed
      (completed (run step (initial payload) before))
      (completed (run step (initial payload) before))
      (run step (initial payload) before).lastReady := by
    rw [idle]
    exact le_rfl
  obtain ⟨later, account⟩ := run_missed during current missed
  refine ⟨fun started => account.overtaken later started fails, ?_⟩
  intro idx
  rw [step_counted _ _ counted idx, claims, census_split _ party, if_neg (fails.unclaimed idx),
    Nat.zero_add]

/-- The producer fills the first slot and then works on the second one between the load of a
consumer and its check. -/
def overtakenAttempt : List (Action Unit smallRing) :=
  [.consumer (), .acquireSlot, .producer, .producer, .producer, .producer, .producer, .publishSlot,
    .producer, .acquireSlot, .producer, .producer, .producer, .producer, .producer, .consumer (),
    .consumer (), .consumer (), .publishSlot, .producer]

/-- The call is overtaken in each of its four attempts. -/
def overtakenCall : List (Action Unit smallRing) :=
  [.retainLatest ()] ++ overtakenAttempt ++ overtakenAttempt ++ overtakenAttempt ++
    overtakenAttempt.take 17

/-- The small ring before its first frame. -/
def blank : smallRing.Index → smallRing.Payload := fun _ _ => 0

theorem retain_latest_overtaken_small :
    completed (run step (initial blank) (publishAndStake.take 9)) + shmRetainTries ≤
      completed (run step (run step (initial blank) (publishAndStake.take 9)) overtakenCall) := by
  have idle : (run step (initial blank) (publishAndStake.take 9)).consumer () = .idle := by
    decide +kernel
  have fails : ReturnsNone (run step (run step (initial blank) (publishAndStake.take 9))
      overtakenCall) () := .inr ⟨3, slotOne, by decide +kernel, by decide⟩
  have started : 0 < completed (run step (initial blank) (publishAndStake.take 9)) := by
    decide +kernel
  exact (retain_latest_overtaken blank (publishAndStake.take 9) overtakenCall () idle fails).1
    started

end Chappe.ShmRing
