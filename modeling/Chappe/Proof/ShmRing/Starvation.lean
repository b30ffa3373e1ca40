/-
This file proves that the producer always finds a slot when there are two more slots than consumers.
A consumer keeps at most one slot from the scan, besides the one that `last_ready` names.
-/

import Chappe.Proof.ShmRing.Freshness

namespace Chappe.ShmRing
open Foundation

variable {Party : Type} {geometry : Geometry}

/-- The value of `last_ready` that a running scan has loaded, and the first attempt that it has not
rejected. -/
def Producer.rejected : Producer geometry → Option (Nat × Nat)
  | .scan published attempt | .prefilter published attempt _ | .loadState published attempt _
  | .claim published attempt _ _ | .recheck published attempt _ _ => some (published, attempt)
  | .rollback published attempt _ _ => some (published, attempt + 1)
  | .idle | .owned _ | .advertise _ => none

/-- The slot that the producer has in the state `SLOT_WRITING`. -/
def Producer.writes : Producer geometry → Option geometry.Index
  | .recheck _ _ idx _ | .rollback _ _ idx _ | .owned idx => some idx
  | _ => none

/-- The slot of an attempt is the one that the scan computes, and `last_ready` does not name it. -/
def Chosen (state : State Party geometry) : Prop :=
  match state.producer with
  | .prefilter _ attempt idx | .loadState _ attempt idx =>
      idx = candidate geometry state.writeCursor attempt ∧ state.lastReady ≠ idx.val
  | .claim _ attempt idx prev | .recheck _ attempt idx prev | .rollback _ attempt idx prev =>
      (idx = candidate geometry state.writeCursor attempt ∧ state.lastReady ≠ idx.val) ∧
        prev ≠ .writing
  | .owned idx => state.lastReady ≠ idx.val
  | _ => True

/-- Each rejected slot is blamed on a consumer, which can get no other slot than the published one
any more. -/
structure Blames (state : State Party geometry) (published bound : Nat)
    (blame : Party → Option geometry.Index) : Prop where
  covered : ∀ attempt, 1 ≤ attempt → attempt < bound →
    (candidate geometry state.writeCursor attempt).val ≠ published →
      ∃ party, blame party = some (candidate geometry state.writeCursor attempt)
  confined : ∀ party idx, blame party = some idx → ∀ slot,
    (state.consumer party).slot = some slot → slot = idx ∨ slot.val = published

/-- The scan of `shm_ring_acquire_slot` has rejected slots of consumers only. -/
structure Scan (state : State Party geometry) : Prop where
  cursor : state.writeCursor < geometry.numSlots
  writing : ∀ idx, state.slotState idx = .writing → state.producer.writes = some idx
  chosen : Chosen state
  rejected : ∀ published bound, state.producer.rejected = some (published, bound) →
    published = state.lastReady ∧ 1 ≤ bound ∧ bound ≤ geometry.numSlots ∧
      ∃ blame, Blames state published bound blame

/-- The scan visits every slot. -/
theorem candidate_surjective (small : geometry.numSlots < 2 ^ 31) {cursor : Nat}
    (inside : cursor < geometry.numSlots) (idx : geometry.Index) :
    ∃ attempt, 1 ≤ attempt ∧ attempt ≤ geometry.numSlots ∧
      candidate geometry cursor attempt = idx := by
  have below := idx.isLt
  by_cases later : cursor < idx.val
  · refine ⟨idx.val - cursor, by omega, by omega, ?_⟩
    apply Fin.ext
    have sum : cursor + (idx.val - cursor) = idx.val := by omega
    simp only [candidate, word, sum]
    rw [Nat.mod_eq_of_lt (by omega : idx.val < 2 ^ 32), Nat.mod_eq_of_lt below]
  · refine ⟨idx.val + geometry.numSlots - cursor, by omega, by omega, ?_⟩
    apply Fin.ext
    have sum : cursor + (idx.val + geometry.numSlots - cursor) = idx.val + geometry.numSlots := by
      omega
    simp only [candidate, word, sum]
    rw [Nat.mod_eq_of_lt (by omega : idx.val + geometry.numSlots < 2 ^ 32), Nat.add_mod_right,
      Nat.mod_eq_of_lt below]

theorem nextAttempt_eq (small : geometry.numSlots < 2 ^ 31) {attempt : Nat}
    (below : attempt ≤ geometry.numSlots) : nextAttempt attempt = attempt + 1 := by
  rw [nextAttempt, word]
  exact Nat.mod_eq_of_lt (by omega)

variable {state : State Party geometry}

/-- The consumers cannot take the blame for every slot but one. -/
theorem Blames.bound [Fintype Party] (enough : Fintype.card Party + 2 ≤ geometry.numSlots)
    (small : geometry.numSlots < 2 ^ 31) (cursor : state.writeCursor < geometry.numSlots)
    {published bound : Nat} {blame : Party → Option geometry.Index}
    (blames : Blames state published bound blame) : bound ≤ geometry.numSlots := by
  by_contra beyond
  let others : Finset geometry.Index := Finset.univ.filter fun idx => idx.val ≠ published
  have blamed : others.image some ⊆ Finset.univ.image blame := by
    intro slot member
    obtain ⟨idx, other, rfl⟩ := Finset.mem_image.mp member
    obtain ⟨attempt, first, last, rfl⟩ := candidate_surjective small cursor idx
    obtain ⟨party, same⟩ := blames.covered attempt first (by omega) (Finset.mem_filter.mp other).2
    exact Finset.mem_image.mpr ⟨party, Finset.mem_univ party, same⟩
  have few : others.card ≤ Fintype.card Party := by
    calc others.card = (others.image some).card :=
          (Finset.card_image_of_injective _ (Option.some_injective _)).symm
      _ ≤ (Finset.univ.image blame).card := Finset.card_le_card blamed
      _ ≤ Fintype.card Party := Finset.card_image_le
  have one : (Finset.univ.filter fun idx : geometry.Index => idx.val = published).card ≤ 1 := by
    rw [Finset.card_le_one]
    intro first here second there
    exact Fin.ext ((Finset.mem_filter.mp here).2.trans (Finset.mem_filter.mp there).2.symm)
  have all := Finset.card_filter_add_card_filter_not (s := (Finset.univ : Finset geometry.Index))
    (fun idx => idx.val = published)
  rw [Finset.card_univ, Fintype.card_fin] at all
  change _ + others.card = _ at all
  omega

/-- A slot with a nonzero refcount has a consumer. -/
theorem Counted.claimant [Fintype Party] (counted : Counted state) {idx : geometry.Index}
    (nonzero : state.refcount idx ≠ 0) :
    ∃ party, (state.consumer party).slot = some idx := by
  by_contra free
  apply nonzero
  rw [counted idx, claims, (census_eq_zero_iff _).mpr]
  · rfl
  · intro party claim
    apply free
    refine ⟨party, ?_⟩
    cases place : state.consumer party with
    | idle | loadLast _ | stake _ _ =>
        rw [place] at claim
        exact claim.elim
    | verify _ slot | unstake _ slot | holding slot =>
        rw [place] at claim
        exact congrArg some claim

/-- The consumer of a rejected slot takes the blame for it. -/
theorem Blames.reject {published attempt : Nat} {blame : Party → Option geometry.Index}
    (blames : Blames state published attempt blame)
    (other : (candidate geometry state.writeCursor attempt).val ≠ published) {party : Party}
    (holds : (state.consumer party).slot = some (candidate geometry state.writeCursor attempt)) :
    ∃ next, Blames state published (attempt + 1) next := by
  classical
  have kept {idx : geometry.Index} (blamed : blame party = some idx) :
      candidate geometry state.writeCursor attempt = idx :=
    (blames.confined party idx blamed _ holds).resolve_right other
  refine ⟨Function.update blame party
    (some (candidate geometry state.writeCursor attempt)), ?_, ?_⟩
  · intro earlier first below away
    by_cases now : earlier = attempt
    · subst earlier
      exact ⟨party, Function.update_self ..⟩
    · obtain ⟨blamed, same⟩ := blames.covered earlier first (by omega) away
      by_cases mine : blamed = party
      · subst blamed
        rw [← kept same]
        exact ⟨party, Function.update_self ..⟩
      · exact ⟨blamed, (Function.update_of_ne mine ..).trans same⟩
  · intro actor idx blamed slot there
    by_cases mine : actor = party
    · subst actor
      rw [Function.update_self] at blamed
      rw [holds] at there
      left
      exact (Option.some.inj there).symm.trans (Option.some.inj blamed)
    · rw [Function.update_of_ne mine] at blamed
      exact blames.confined actor idx blamed slot there

/-- The slot that `last_ready` names needs no blame. -/
theorem Blames.skip {published attempt : Nat} {blame : Party → Option geometry.Index}
    (blames : Blames state published attempt blame)
    (same : (candidate geometry state.writeCursor attempt).val = published) :
    Blames state published (attempt + 1) blame := by
  refine ⟨?_, blames.confined⟩
  intro earlier first below away
  by_cases now : earlier = attempt
  · subst earlier
    exact absurd same away
  · exact blames.covered earlier first (by omega) away

/-- The blame depends on the cursor and on the slots of the consumers. -/
theorem Blames.congr {next : State Party geometry} {published bound : Nat}
    {blame : Party → Option geometry.Index} (blames : Blames state published bound blame)
    (cursor : next.writeCursor = state.writeCursor)
    (slots : ∀ party slot, (next.consumer party).slot = some slot →
      (state.consumer party).slot = some slot ∨ slot.val = published) :
    Blames next published bound blame := by
  refine ⟨?_, ?_⟩
  · rw [cursor]
    exact blames.covered
  · intro party idx blamed slot there
    rcases slots party slot there with before | named
    · exact blames.confined party idx blamed slot before
    · exact .inr named

theorem initial_scan (payload : geometry.Index → geometry.Payload) :
    Scan (initial payload : State Party geometry) where
  cursor := Nat.lt_of_lt_of_le Nat.zero_lt_two geometry.twoSlots
  writing := by simp [initial]
  chosen := True.intro
  rejected := by simp [initial, Producer.rejected]

/-- A step of the scan may store to one slot state. -/
theorem Scan.move (scan : Scan state) {slotState : geometry.Index → SlotState}
    {producer : Producer geometry}
    (writing : ∀ idx, slotState idx = .writing → producer.writes = some idx)
    (chosen : Chosen { state with slotState := slotState, producer := producer })
    (rejected : ∀ published bound, producer.rejected = some (published, bound) →
      published = state.lastReady ∧ 1 ≤ bound ∧ bound ≤ geometry.numSlots ∧
        ∃ blame, Blames state published bound blame) :
    Scan { state with slotState := slotState, producer := producer } := by
  refine ⟨scan.cursor, writing, chosen, ?_⟩
  intro published bound found
  obtain ⟨named, first, below, blame, blames⟩ := rejected published bound found
  exact ⟨named, first, below, blame, blames.congr rfl fun _ _ same => .inl same⟩

/-- The store that ends the ownership of a slot leaves no slot in the state `SLOT_WRITING`. -/
theorem Scan.finish (scan : Scan state) {idx : geometry.Index}
    (owned : state.producer = .owned idx) {stored : SlotState} (finished : stored ≠ .writing)
    (slot : geometry.Index) : Function.update state.slotState idx stored slot ≠ .writing := by
  intro busy
  by_cases same : slot = idx
  · rw [same, Function.update_self] at busy
    exact absurd busy finished
  · rw [Function.update_of_ne same] at busy
    have there := scan.writing slot busy
    rw [owned] at there
    exact absurd (Option.some.inj there).symm same

/-- A step of a consumer gives it at most the slot that `last_ready` names. -/
theorem Scan.consumer [DecidableEq Party] (scan : Scan state) {action : Action Party geometry}
    (untouched : Untouched state (step state action)) : Scan (step state action) := by
  refine ⟨untouched.writeCursor ▸ scan.cursor, ?_, ?_, ?_⟩
  · rw [untouched.slotState, untouched.producer]
    exact scan.writing
  · unfold Chosen
    rw [untouched.producer, untouched.writeCursor, untouched.lastReady]
    exact scan.chosen
  · rw [untouched.producer, untouched.lastReady]
    intro published bound found
    obtain ⟨named, first, below, blame, blames⟩ := scan.rejected published bound found
    refine ⟨named, first, below, blame, blames.congr untouched.writeCursor ?_⟩
    intro party slot there
    rcases step_slot state action party with same | none | ⟨idx, tries, -, -, loads, offer⟩
    · exact .inl (same ▸ there)
    · rw [none] at there
      cases there
    · rw [loads] at there
      cases there
      exact .inr (offer.symm.trans named.symm)

/-- The call of `shm_ring_acquire_slot` is running and has an attempt left. -/
def Running (state : State Party geometry) : Prop :=
  ∃ published bound, state.producer.rejected = some (published, bound) ∧
    bound ≤ geometry.numSlots

/-- A bound on the steps that are left of the scan. -/
def fuel (state : State Party geometry) : Nat :=
  match state.producer with
  | .scan _ attempt => 6 * (geometry.numSlots + 1 - attempt)
  | .prefilter _ attempt _ => 6 * (geometry.numSlots + 1 - attempt) - 1
  | .loadState _ attempt _ => 6 * (geometry.numSlots + 1 - attempt) - 2
  | .claim _ attempt _ _ => 6 * (geometry.numSlots + 1 - attempt) - 3
  | .recheck _ attempt _ _ => 6 * (geometry.numSlots + 1 - attempt) - 4
  | .rollback _ attempt _ _ => 6 * (geometry.numSlots + 1 - attempt) - 5
  | .idle | .owned _ | .advertise _ => 0

/-- The call returns the slot at the end of the actions and not before. -/
def Acquires [DecidableEq Party] (state : State Party geometry)
    (actions : List (Action Party geometry)) (idx : geometry.Index) : Prop :=
  (∀ first, first <+: actions → first ≠ actions → Running (run step state first)) ∧
    (run step state actions).producer = .owned idx

def Action.isProducer : Action Party geometry → Bool
  | .producer => true
  | _ => false

/-- Every step of the producer uses up fuel, unless it acquires a slot. -/
theorem producerStep_fuel (small : geometry.numSlots < 2 ^ 31) (running : Running state) :
    (∃ idx, (producerStep state).producer = .owned idx) ∨
      (producerStep state).producer.rejected ≠ none ∧ fuel (producerStep state) < fuel state := by
  obtain ⟨published, bound, found, below⟩ := running
  unfold producerStep
  cases phase : state.producer with
  | idle | owned _ | advertise _ =>
      rw [phase] at found
      cases found
  | scan named attempt =>
      rw [phase] at found
      cases found
      right
      dsimp only
      rw [if_pos below]
      split_ifs
      all_goals
        simp only [fuel, phase, nextAttempt_eq small below, Producer.rejected, ne_eq, reduceCtorEq,
          not_false_eq_true, true_and]
        omega
  | prefilter named attempt idx =>
      rw [phase] at found
      cases found
      right
      dsimp only
      split_ifs
      all_goals
        simp only [fuel, phase, nextAttempt_eq small below, Producer.rejected, ne_eq, reduceCtorEq,
          not_false_eq_true, true_and]
        omega
  | loadState named attempt idx =>
      rw [phase] at found
      cases found
      right
      dsimp only
      split_ifs
      all_goals
        simp only [fuel, phase, nextAttempt_eq small below, Producer.rejected, ne_eq, reduceCtorEq,
          not_false_eq_true, true_and]
        omega
  | claim named attempt idx prev =>
      rw [phase] at found
      cases found
      right
      simp only [fuel, phase, Producer.rejected, ne_eq, reduceCtorEq, not_false_eq_true, true_and]
      omega
  | recheck named attempt idx prev =>
      rw [phase] at found
      cases found
      dsimp only
      split_ifs
      · right
        simp only [fuel, phase, Producer.rejected, ne_eq, reduceCtorEq, not_false_eq_true,
          true_and]
        omega
      · exact .inl ⟨idx, rfl⟩
  | rollback named attempt idx prev =>
      rw [phase] at found
      cases found
      right
      have within : attempt ≤ geometry.numSlots := by omega
      simp only [fuel, phase, nextAttempt_eq small within, Producer.rejected, ne_eq, reduceCtorEq,
        not_false_eq_true, true_and]
      omega

theorem fuel_pos (running : Running state) : 0 < fuel state := by
  obtain ⟨published, bound, found, below⟩ := running
  unfold fuel
  cases phase : state.producer with
  | idle | owned _ | advertise _ =>
      rw [phase] at found
      cases found
  | scan _ attempt | prefilter _ attempt _ | loadState _ attempt _ | claim _ attempt _ _
  | recheck _ attempt _ _ | rollback _ attempt _ _ =>
      rw [phase] at found
      cases found
      dsimp only
      omega

/-- The other actions leave a running scan alone. -/
theorem Running.keeps [DecidableEq Party] (running : Running state) {action : Action Party geometry}
    (other : action.isProducer = false) : (step state action).producer = state.producer := by
  obtain ⟨published, bound, found, -⟩ := running
  have busy {producer : Producer geometry} (none : producer.rejected = none) :
      state.producer ≠ producer := by
    rintro rfl
    rw [none] at found
    cases found
  cases action with
  | producer => cases other
  | acquireSlot =>
      simp only [step]
      split
      · rename_i idle
        exact absurd idle (busy rfl)
      · rfl
  | writeByte offset value =>
      simp only [step]
      split <;> rfl
  | publishSlot =>
      simp only [step]
      split
      · rename_i idx owned
        exact absurd owned (busy rfl)
      · rfl
  | abandonSlot =>
      simp only [step]
      split
      · rename_i idx owned
        exact absurd owned (busy rfl)
      · rfl
  | retainLatest party =>
      simp only [step]
      split <;> rfl
  | consumer party => exact (consumerStep_untouched state party).producer
  | releaseSlot party =>
      simp only [step]
      split <;> rfl

variable [Fintype Party]

section Step

variable (enough : Fintype.card Party + 2 ≤ geometry.numSlots)
  (small : geometry.numSlots < 2 ^ 31)

include enough small

/-- A rejected attempt leaves another one. -/
theorem Scan.next (scan : Scan state) {published attempt : Nat}
    {blame : Party → Option geometry.Index} (blames : Blames state published (attempt + 1) blame)
    (named : published = state.lastReady) :
    ∀ seen bound, some (published, nextAttempt attempt) = some (seen, bound) →
      seen = state.lastReady ∧ 1 ≤ bound ∧ bound ≤ geometry.numSlots ∧
        ∃ blame, Blames state seen bound blame := by
  rintro _ _ ⟨⟩
  have below := blames.bound enough small scan.cursor
  rw [nextAttempt_eq small (by omega)]
  exact ⟨named, by omega, below, blame, blames⟩

theorem producerStep_scan (scan : Scan state) (counted : Counted state) :
    Scan (producerStep state) := by
  have chosen := scan.chosen
  have writing := scan.writing
  have rejected := scan.rejected
  unfold Chosen at chosen
  unfold producerStep
  split
  case h_1 | h_8 => exact scan
  case h_2 published attempt phase =>
    rw [phase] at writing rejected
    obtain ⟨named, first, below, blame, blames⟩ := rejected published attempt rfl
    dsimp only
    split_ifs with here
    · exact scan.move writing True.intro (scan.next enough small (blames.skip here) named)
    · exact scan.move writing ⟨rfl, fun same => here (same.symm.trans named.symm)⟩ rejected
  case h_3 published attempt idx phase =>
    rw [phase] at writing rejected chosen
    obtain ⟨named, first, below, blame, blames⟩ := rejected published attempt rfl
    obtain ⟨rfl, other⟩ := chosen
    split_ifs with claimed
    · obtain ⟨party, holds⟩ := counted.claimant claimed
      obtain ⟨next, blamed⟩ := blames.reject (fun same => other (named ▸ same.symm)) holds
      exact scan.move writing True.intro (scan.next enough small blamed named)
    · exact scan.move writing ⟨rfl, other⟩ rejected
  case h_4 published attempt idx phase =>
    rw [phase] at writing rejected chosen
    split_ifs with busy
    · cases writing idx busy
    · exact scan.move writing ⟨chosen, busy⟩ rejected
  case h_5 published attempt idx prev phase =>
    rw [phase] at writing rejected chosen
    refine scan.move ?_ chosen rejected
    intro slot busy
    by_cases same : slot = idx
    · rw [same]
      rfl
    · rw [Function.update_of_ne same] at busy
      cases writing slot busy
  case h_6 published attempt idx prev phase =>
    rw [phase] at writing rejected chosen
    obtain ⟨named, first, below, blame, blames⟩ := rejected published attempt rfl
    obtain ⟨⟨rfl, other⟩, intact⟩ := chosen
    split_ifs with claimed
    · obtain ⟨party, holds⟩ := counted.claimant claimed
      obtain ⟨next, blamed⟩ := blames.reject (fun same => other (named ▸ same.symm)) holds
      refine scan.move writing ⟨⟨rfl, other⟩, intact⟩ ?_
      rintro _ _ ⟨⟩
      exact ⟨named, by omega, blamed.bound enough small scan.cursor, next, blamed⟩
    · exact ⟨Fin.isLt _, writing, other, by simp [Producer.rejected]⟩
  case h_7 published attempt idx prev phase =>
    rw [phase] at writing rejected chosen
    obtain ⟨named, first, below, blame, blames⟩ := rejected published (attempt + 1) rfl
    refine scan.move ?_ True.intro (scan.next enough small blames named)
    intro slot busy
    by_cases same : slot = idx
    · rw [same, Function.update_self] at busy
      exact absurd busy chosen.2
    · rw [Function.update_of_ne same] at busy
      have there := writing slot busy
      exact absurd (Option.some.inj there).symm same
  case h_9 idx phase =>
    rw [phase] at writing
    exact ⟨scan.cursor, writing, True.intro, by simp [Producer.rejected]⟩

variable [DecidableEq Party]

theorem step_scan (state : State Party geometry) (action : Action Party geometry)
    (scan : Scan state) (counted : Counted state) : Scan (step state action) := by
  cases action with
  | acquireSlot =>
      simp only [step]
      split
      · rename_i idle
        have writing := scan.writing
        rw [idle] at writing
        refine scan.move writing True.intro ?_
        rintro _ _ ⟨⟩
        refine ⟨rfl, le_rfl, by omega, fun _ => none, ?_, by simp⟩
        intro attempt first below
        omega
      · exact scan
  | producer => exact producerStep_scan enough small scan counted
  | writeByte offset value =>
      simp only [step]
      split
      · rename_i idx owned
        have chosen := scan.chosen
        unfold Chosen at chosen
        rw [owned] at chosen
        refine ⟨scan.cursor, scan.writing, ?_, by simp [owned, Producer.rejected]⟩
        unfold Chosen
        simp only [owned]
        exact chosen
      · exact scan
  | publishSlot =>
      simp only [step]
      split
      · rename_i idx owned
        refine ⟨scan.cursor, ?_, True.intro, by simp [Producer.rejected]⟩
        exact fun slot busy => absurd busy (scan.finish owned (by simp) slot)
      · exact scan
  | abandonSlot =>
      simp only [step]
      split
      · rename_i idx owned
        refine ⟨scan.cursor, ?_, True.intro, by simp [Producer.rejected]⟩
        exact fun slot busy => absurd busy (scan.finish owned (by simp) slot)
      · exact scan
  | retainLatest party => exact scan.consumer (retainLatest_untouched state party)
  | consumer party => exact scan.consumer (consumerStep_untouched state party)
  | releaseSlot party => exact scan.consumer (releaseSlot_untouched state party)

theorem run_scan (payload : geometry.Index → geometry.Payload)
    (actions : List (Action Party geometry)) :
    Safe (run step (initial payload) actions) ∧ Scan (run step (initial payload) actions) := by
  have bounded : Fintype.card Party < 2 ^ 32 := by omega
  have keep (state : State Party geometry) (action : Action Party geometry)
      (held : Safe state ∧ Scan state) : Safe (step state action) ∧ Scan (step state action) :=
    ⟨step_safe bounded state action held.1,
      step_scan enough small state action held.2 held.1.counted⟩
  exact run_invariant keep actions _ ⟨initial_safe payload, initial_scan payload⟩

end Step

variable [DecidableEq Party]

/-- The call goes on until it acquires a slot, and it goes on for fewer steps than its fuel. -/
theorem Running.acquires (enough : Fintype.card Party + 2 ≤ geometry.numSlots)
    (small : geometry.numSlots < 2 ^ 31) (during : List (Action Party geometry)) :
    ∀ state : State Party geometry, Safe state → Scan state → Running state →
      (∃ first idx, first <+: during ∧ Acquires state first idx) ∨
        during.countP Action.isProducer + fuel (run step state during) ≤ fuel state ∧
          ∀ first, first <+: during → Running (run step state first) := by
  have bounded : Fintype.card Party < 2 ^ 32 := by omega
  induction during with
  | nil =>
      intro state _ _ running
      right
      refine ⟨by simp [run], ?_⟩
      intro first short
      rw [List.prefix_nil.mp short]
      exact running
  | cons action rest ih =>
      intro state safe scan running
      have safeNext := step_safe bounded state action safe
      have scanNext := step_scan enough small state action scan safe.counted
      have moved : (∃ idx, (step state action).producer = .owned idx) ∨
          Running (step state action) ∧
            fuel (step state action) + (if action.isProducer then 1 else 0) ≤ fuel state := by
        cases kind : action.isProducer with
        | false =>
            right
            have same := running.keeps kind
            unfold Running fuel at *
            rw [same]
            exact ⟨running, le_rfl⟩
        | true =>
            cases action with
            | producer =>
                apply (producerStep_fuel small running).imp_right
                rintro ⟨going, spent⟩
                obtain ⟨⟨published, bound⟩, found⟩ := Option.ne_none_iff_exists'.mp going
                exact ⟨⟨published, bound, found, (scanNext.rejected published bound found).2.2.1⟩,
                  spent⟩
            | _ => cases kind
      rcases moved with ⟨idx, owned⟩ | ⟨next, spent⟩
      · left
        refine ⟨[action], idx, ⟨rest, rfl⟩, ?_, owned⟩
        intro first short shorter
        rcases List.prefix_cons_iff.mp short with rfl | ⟨tail, rfl, nothing⟩
        · exact running
        · rw [List.prefix_nil.mp nothing] at shorter
          exact absurd rfl shorter
      · rcases ih (step state action) safeNext scanNext next with
          ⟨first, idx, short, acquires, owned⟩ | ⟨count, going⟩
        · left
          refine ⟨action :: first, idx, List.cons_prefix_cons.mpr ⟨rfl, short⟩, ?_, owned⟩
          intro before within different
          rcases List.prefix_cons_iff.mp within with rfl | ⟨tail, rfl, inside⟩
          · exact running
          · exact acquires tail inside fun same => different (same ▸ rfl)
        · right
          refine ⟨?_, ?_⟩
          · rw [List.countP_cons]
            change _ + _ + fuel (run step (step state action) rest) ≤ _
            omega
          · intro first short
            rcases List.prefix_cons_iff.mp short with rfl | ⟨tail, rfl, within⟩
            · exact running
            · exact going tail within

/-- With two more slots than consumers, every call of `shm_ring_acquire_slot` returns a slot that
`last_ready` does not name within six steps for each slot, whatever the consumers do meanwhile. -/
theorem producer_never_starved (enough : Fintype.card Party + 2 ≤ geometry.numSlots)
    (small : geometry.numSlots < 2 ^ 31) (payload : geometry.Index → geometry.Payload)
    (before during : List (Action Party geometry))
    (idle : (run step (initial payload) before).producer = .idle) :
    let call := step (run step (initial payload) before) .acquireSlot
    (∃ first idx, first <+: during ∧ Acquires call first idx ∧
        (run step call first).lastReady ≠ idx.val) ∨
      during.countP Action.isProducer < 6 * geometry.numSlots ∧
        ∀ first, first <+: during → Running (run step call first) := by
  intro call
  have reached (actions : List (Action Party geometry)) :
      Safe (run step call actions) ∧ Scan (run step call actions) := by
    have held := run_scan enough small payload (before ++ .acquireSlot :: actions)
    rw [run, List.foldl_append] at held
    exact held
  have begun : call.producer = .scan (run step (initial payload) before).lastReady 1 := by
    simp only [call, step, idle]
  have running : Running call := by
    refine ⟨(run step (initial payload) before).lastReady, 1, ?_, by omega⟩
    rw [begun]
    rfl
  have full : fuel call = 6 * geometry.numSlots := by
    simp only [fuel, begun]
    omega
  obtain ⟨safe, scan⟩ := reached []
  rcases Running.acquires enough small during call safe scan running with
    ⟨first, idx, short, acquires⟩ | ⟨count, going⟩
  · left
    have chosen := (reached first).2.chosen
    unfold Chosen at chosen
    rw [acquires.2] at chosen
    exact ⟨first, idx, short, acquires, chosen⟩
  · right
    have left := fuel_pos (going during (List.prefix_refl during))
    exact ⟨by omega, going⟩

/-- A ring of three slots with one byte each. -/
def threeSlots : Geometry := ⟨3, 1, by decide, by decide⟩

/-- The producer publishes one frame, and the only consumer holds it. -/
def publishAndHold : List (Action Unit threeSlots) :=
  [.acquireSlot, .producer, .producer, .producer, .producer, .producer, .publishSlot, .producer,
    .retainLatest (), .consumer (), .consumer (), .consumer ()]

theorem producer_never_starved_small :
    let call := step (run step (initial fun _ _ => 0) publishAndHold) .acquireSlot
    ∃ first idx, first <+: List.replicate 5 (.producer : Action Unit threeSlots) ∧
      Acquires call first idx ∧ (run step call first).lastReady ≠ idx.val := by
  intro call
  rcases producer_never_starved (by decide) (by decide) (fun _ _ => 0) publishAndHold
    (List.replicate 5 .producer) (by decide +kernel) with acquired | ⟨-, going⟩
  · exact acquired
  · obtain ⟨published, bound, found, -⟩ := going _ (List.prefix_refl _)
    have done : (run step call (List.replicate 5 .producer)).producer.rejected = none := by
      decide +kernel
    rw [done] at found
    cases found

end Chappe.ShmRing
