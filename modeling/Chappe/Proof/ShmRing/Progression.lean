/-
This file proves when the frames that a consumer retains follow the order of the publishes.
-/

import Chappe.Proof.ShmRing.Freshness

namespace Chappe.ShmRing
open Foundation

variable {Party : Type} {geometry : Geometry}

/-- A consumer that has retained the frame of a publish does not load `last_ready` before the second
store of this publish. -/
def Account.Waits (account : Account Party geometry) : Action Party geometry → Prop
  | .consumer party =>
      match account.ring.consumer party, account.ring.producer with
      | .loadLast _, .advertise _ => account.ring.published.length ∉ account.retained party
      | _, _ => True
  | _ => True

instance Account.Waits.decidable (account : Account Party geometry)
    (action : Action Party geometry) : Decidable (account.Waits action) := by
  unfold Account.Waits
  split
  · split <;> infer_instance
  · infer_instance

/-- The frames of each consumer are in order, and the slot that it has loaded shows no older one. -/
structure Account.Ordered (account : Account Party geometry) : Prop where
  offered : Offered account.ring
  sorted : ∀ party, (account.retained party).Pairwise (· ≤ ·)
  published : ∀ party, ∀ number ∈ account.retained party,
    number ≤ account.ring.published.length
  loaded : ∀ party idx, (account.ring.consumer party).slot = some idx →
    ∀ number ∈ account.retained party, AtLeast account.ring.published idx number

theorem Account.Ordered.initial (payload : geometry.Index → geometry.Payload) :
    (Account.initial payload : Account Party geometry).Ordered where
  offered := initial_offered payload
  sorted := fun _ => .nil
  published := by simp [Account.initial]
  loaded := by simp [Account.initial]

variable {account : Account Party geometry}

/-- A consumer that waits has retained completed publishes only. -/
theorem Account.Ordered.completed (ordered : account.Ordered) {party : Party} {tries : Nat}
    (load : account.ring.consumer party = .loadLast tries)
    (waits : account.Waits (.consumer party)) :
    ∀ number ∈ account.retained party, number ≤ ShmRing.completed account.ring := by
  intro number member
  have bound := ordered.published party number member
  unfold ShmRing.completed
  split
  · rename_i idx advertise
    simp only [Account.Waits, load, advertise] at waits
    have different : number ≠ account.ring.published.length := by
      rintro rfl
      exact waits member
    omega
  · exact bound

/-- The frame that a consumer retains next is not older than the frames before. -/
theorem Account.Ordered.next (ordered : account.Ordered) {party : Party} {number : Nat}
    (retains : retains account.ring party = some number) :
    (∀ earlier ∈ account.retained party, earlier ≤ number) ∧
      number ≤ account.ring.published.length ∧
      ∃ idx, (account.ring.consumer party).slot = some idx ∧
        AtLeast account.ring.published idx number := by
  obtain ⟨idx, frame, ⟨tries, verify, -⟩, newest⟩ := retains_returns retains
  have slot : (account.ring.consumer party).slot = some idx := by rw [verify]; rfl
  refine ⟨?_, (newestIn_number newest).2.1, idx, slot, frame, number, newest, le_rfl⟩
  intro earlier member
  obtain ⟨_, _, again, bound⟩ := ordered.loaded party idx slot earlier member
  rw [newest] at again
  cases again
  exact bound

variable [DecidableEq Party]

theorem step_published_length (state : State Party geometry) (action : Action Party geometry) :
    state.published.length ≤ (step state action).published.length := by
  cases step_publishing state action with
  | rests published => rw [published]
  | stores _ _ _ published => simp [published]
  | advertises _ _ _ published => rw [published]

theorem step_retained (account : Account Party geometry) (action : Action Party geometry)
    (party : Party) : (account.step action).retained party = account.retained party ∨
      action = .consumer party ∧ (account.step action).retained party =
        account.retained party ++ (retains account.ring party).toList := by
  cases action with
  | consumer actor =>
      dsimp only [Account.step]
      by_cases mine : party = actor
      · subst actor
        rw [Function.update_self]
        exact .inr ⟨rfl, rfl⟩
      · rw [Function.update_of_ne mine]
        exact .inl rfl
  | _ => exact .inl rfl

theorem Account.Ordered.step (account : Account Party geometry) (action : Action Party geometry)
    (ordered : account.Ordered) (waits : account.Waits action) :
    (account.step action).Ordered := by
  have longer := step_published_length account.ring action
  refine ⟨step_offered account.ring action ordered.offered, ?_, ?_, ?_⟩
  · intro party
    rcases step_retained account action party with same | ⟨-, grown⟩
    · rw [same]
      exact ordered.sorted party
    · rw [grown, List.pairwise_append]
      refine ⟨ordered.sorted party, ?_, ?_⟩
      · cases retains account.ring party <;> simp
      · intro earlier member number retained
        exact (ordered.next (Option.mem_toList.mp retained)).1 earlier member
  · intro party number member
    rcases step_retained account action party with same | ⟨-, grown⟩
    · rw [same] at member
      exact (ordered.published party number member).trans longer
    · rw [grown, List.mem_append] at member
      rcases member with before | now
      · exact (ordered.published party number before).trans longer
      · exact (ordered.next (Option.mem_toList.mp now)).2.1.trans longer
  · intro party idx slot number member
    rcases step_slot account.ring action party with
      same | none | ⟨found, tries, acts, load, loads, offer⟩
    · rw [show ((account.step action).ring.consumer party).slot = _ from same] at slot
      apply step_atLeast
      rcases step_retained account action party with kept | ⟨-, grown⟩
      · rw [kept] at member
        exact ordered.loaded party idx slot number member
      · rw [grown, List.mem_append] at member
        rcases member with before | now
        · exact ordered.loaded party idx slot number before
        · obtain ⟨-, -, other, there, reached⟩ := ordered.next (Option.mem_toList.mp now)
          rw [slot] at there
          cases there
          exact reached
    · rw [show ((account.step action).ring.consumer party).slot = _ from none] at slot
      cases slot
    · rw [show ((account.step action).ring.consumer party).slot = _ from loads] at slot
      cases slot
      subst action
      have unchanged : (account.step (.consumer party)).retained party =
          account.retained party := by
        simp [Account.step, retains, load]
      rw [unchanged] at member
      obtain ⟨frame, newer, newest, bound⟩ := ordered.offered.offered _ offer
      apply step_atLeast
      exact ⟨frame, newer, newest, (ordered.completed load waits number member).trans bound⟩

/-- In every run in which each consumer waits for the second store of a publish whose frame it has
retained, the frames that a consumer retains follow the order of the publishes. -/
theorem frames_in_order (payload : geometry.Index → geometry.Payload)
    (actions : List (Action Party geometry))
    (waits : Meets Account.step Account.Waits (.initial payload) actions) (party : Party) :
    ((run Account.step (.initial payload) actions).retained party).Pairwise (· ≤ ·) :=
  (run_invariant_of_meets Account.Ordered.step actions _ (.initial payload) waits).sorted party

/-- Two publishes into the two slots of the small ring and a consumer that has loaded the first
slot. -/
def staleLoad : List (Action Unit smallRing) :=
  publishAndStake.take 9 ++ [.retainLatest (), .consumer ()] ++
    [.acquireSlot, .producer, .producer, .producer, .producer, .producer, .publishSlot, .producer]

/-- The third publish makes its first store, and the consumer calls twice before the second one. -/
def betweenStores : List (Action Unit smallRing) :=
  [.acquireSlot, .producer, .producer, .producer, .producer, .producer, .publishSlot,
    .consumer (), .consumer (), .releaseSlot (), .retainLatest (), .consumer (), .consumer (),
    .consumer ()]

/-- The consumer calls twice after both stores of the second publish. -/
def afterStores : List (Action Unit smallRing) :=
  [.consumer (), .consumer (), .releaseSlot (), .retainLatest (), .consumer (), .consumer (),
    .consumer ()]

theorem frames_in_order_small :
    (run Account.step (.initial fun _ _ => 0) (staleLoad ++ afterStores)).retained () = [1, 2] ∧
      ((run Account.step (.initial fun _ _ => 0) (staleLoad ++ afterStores)).retained
        ()).Pairwise (· ≤ ·) := by
  have waits : Meets Account.step Account.Waits (.initial fun _ _ => 0)
      (staleLoad ++ afterStores) := by decide +kernel
  exact ⟨by decide +kernel, frames_in_order _ _ waits ()⟩

/-- The consumer retains the third frame and then the second one. -/
theorem frames_go_backwards :
    (run Account.step (.initial fun _ _ => 0) (staleLoad ++ betweenStores)).retained () = [3, 2] ∧
      ¬ ((run Account.step (.initial fun _ _ => 0) (staleLoad ++ betweenStores)).retained
        ()).Pairwise (· ≤ ·) := by
  decide +kernel

end Chappe.ShmRing
