/-
This file proves when the destruction of a ring removes its own name and no other. It does when the
name fits the field of the handle.
-/

import Chappe.Construction.RingNames
import Mathlib.Tactic.Common

namespace Chappe.RingNames
open Foundation

variable {Owner : Type}

/-- The handles agree with the locks and the names. A name that does not fit stays. -/
structure Owned (state : State Owner) : Prop where
  locked : ∀ ring handle, state.handle ring = some handle → state.lock handle.segment = some ring
  known : ∀ name segment, state.names name = some segment → segment < state.count
  made : ∀ segment ring, state.lock segment = some ring → segment < state.count
  kept : ∀ ring handle, state.handle ring = some handle →
    handle.name = handle.opened.take (shmRingMaxName - 1)
  long : ∀ ring handle, state.handle ring = some handle →
    shmRingMaxName ≤ handle.opened.length → state.names handle.opened = some handle.segment

theorem Owned.initial : Owned (initial : State Owner) where
  locked := by simp [RingNames.initial]
  known := by simp [RingNames.initial]
  made := by simp [RingNames.initial]
  kept := by simp [RingNames.initial]
  long := by simp [RingNames.initial]

variable [DecidableEq Owner] {state : State Owner}

/-- A ring gives up its segment, and a name that fits may go. -/
theorem Owned.close (owned : Owned state) {ring : Owner} {handle : Handle}
    (here : state.handle ring = some handle) {names : Table Bytes Nat}
    (removed : names = state.names ∨ names = state.names.erase handle.name) :
    Owned { state.close ring handle.segment with names := names } := by
  have mine := owned.locked ring handle here
  have other {rival : Owner} {found : Handle}
      (rest : (state.close ring handle.segment).handle rival = some found) :
      state.handle rival = some found ∧ found.segment ≠ handle.segment := by
    by_cases same : rival = ring
    · rw [same, State.close] at rest
      simp at rest
    · rw [State.close] at rest
      dsimp only at rest
      rw [Function.update_of_ne same] at rest
      refine ⟨rest, fun shared => ?_⟩
      have theirs := owned.locked rival found rest
      rw [shared, mine] at theirs
      exact same (Option.some.inj theirs).symm
  refine ⟨?_, ?_, ?_, ?_, ?_⟩
  · intro rival found rest
    obtain ⟨before, apart⟩ := other rest
    show Function.update state.lock handle.segment none found.segment = some rival
    rw [Function.update_of_ne apart]
    exact owned.locked rival found before
  · intro name segment named
    rcases removed with rfl | rfl
    · exact owned.known name segment named
    · exact owned.known name segment (Table.of_erase named)
  · intro segment rival locked
    have left : Function.update state.lock handle.segment none segment = some rival := locked
    by_cases same : segment = handle.segment
    · rw [same, Function.update_self] at left
      cases left
    · rw [Function.update_of_ne same] at left
      exact owned.made segment rival left
  · exact fun rival found rest => owned.kept rival found (other rest).1
  · intro rival found rest wide
    have named := owned.long rival found (other rest).1 wide
    rcases removed with rfl | rfl
    · exact named
    · show state.names.erase handle.name found.opened = some found.segment
      rw [Table.erase_of_ne]
      · exact named
      · intro same
        have short : handle.name.length ≤ shmRingMaxName - 1 := by
          rw [owned.kept ring handle here]
          exact List.length_take_le _ _
        rw [← same] at short
        unfold shmRingMaxName at short wide
        omega

omit [DecidableEq Owner] in
/-- A name that leads to no locked segment is not the long name of a ring. -/
theorem Owned.long_ne (owned : Owned state) {name : Bytes} {segment : Nat}
    (free : state.lock segment = none)
    (unused : state.names name = none ∨ state.names name = some segment) {rival : Owner}
    {found : Handle} (rest : state.handle rival = some found)
    (wide : shmRingMaxName ≤ found.opened.length) : found.opened ≠ name := by
  intro same
  have locked := owned.locked rival found rest
  have named := owned.long rival found rest wide
  rw [same] at named
  rcases unused with none | shared
  · rw [none] at named
    cases named
  · rw [shared] at named
    cases named
    rw [free] at locked
    cases locked

/-- A ring that gets a free segment under its name. -/
theorem Owned.own (owned : Owned state) {ring : Owner} {name : Bytes} {segment : Nat}
    (free : state.lock segment = none) (below : segment < state.count)
    (unused : state.names name = none ∨ state.names name = some segment) (mapped : Bool) :
    Owned (state.own ring name segment mapped) := by
  unfold State.own
  split
  · have other {rival : Owner} {found : Handle}
        (rest : Function.update state.handle ring
          (some ⟨name, name.take (shmRingMaxName - 1), segment⟩) rival = some found) :
        (rival = ring ∧ found = ⟨name, name.take (shmRingMaxName - 1), segment⟩) ∨
          rival ≠ ring ∧ state.handle rival = some found := by
      by_cases same : rival = ring
      · rw [same, Function.update_self] at rest
        exact .inl ⟨same, (Option.some.inj rest).symm⟩
      · rw [Function.update_of_ne same] at rest
        exact .inr ⟨same, rest⟩
    refine ⟨?_, ?_, ?_, ?_, ?_⟩
    · intro rival found rest
      rcases other rest with ⟨rfl, rfl⟩ | ⟨-, before⟩
      · exact Function.update_self ..
      · have locked := owned.locked rival found before
        show Function.update state.lock segment (some ring) found.segment = some rival
        rw [Function.update_of_ne]
        · exact locked
        · rintro same
          rw [same, free] at locked
          cases locked
    · intro other found named
      by_cases same : other = name
      · have value : state.names.insert name segment other = some found := named
        rw [same, Table.insert_self] at value
        cases value
        exact below
      · have value : state.names.insert name segment other = some found := named
        rw [Table.insert_of_ne _ _ same] at value
        exact owned.known other found value
    · intro place rival locked
      have value : Function.update state.lock segment (some ring) place = some rival := locked
      by_cases same : place = segment
      · rw [same]
        exact below
      · rw [Function.update_of_ne same] at value
        exact owned.made place rival value
    · intro rival found rest
      rcases other rest with ⟨rfl, rfl⟩ | ⟨-, before⟩
      · rfl
      · exact owned.kept rival found before
    · intro rival found rest wide
      show state.names.insert name segment found.opened = some found.segment
      rcases other rest with ⟨rfl, rfl⟩ | ⟨-, before⟩
      · exact Table.insert_self ..
      · rw [Table.insert_of_ne _ _ (owned.long_ne free unused before wide)]
        exact owned.long rival found before wide
  · refine ⟨owned.locked, ?_, owned.made, owned.kept, ?_⟩
    · exact fun other found named => owned.known other found (Table.of_erase named)
    · intro rival found rest wide
      show state.names.erase name found.opened = some found.segment
      rw [Table.erase_of_ne _ (owned.long_ne free unused rest wide)]
      exact owned.long rival found rest wide

theorem Owned.create (owned : Owned state) (ring : Owner) (name : Bytes) (mapped : Bool) :
    Owned (state.create ring name mapped) := by
  unfold State.create
  split
  · rename_i unused
    have grown : Owned { state with count := state.count + 1 } :=
      ⟨owned.locked, fun other segment named => Nat.lt_succ_of_lt (owned.known other segment named),
        fun segment rival locked => Nat.lt_succ_of_lt (owned.made segment rival locked),
        owned.kept, owned.long⟩
    have free : state.lock state.count = none := by
      cases held : state.lock state.count with
      | none => rfl
      | some rival => exact absurd (owned.made _ rival held) (Nat.lt_irrefl _)
    exact grown.own free (Nat.lt_succ_self _) (.inl unused) mapped
  · rename_i segment named
    split
    · rename_i free
      exact owned.own free (owned.known name segment named) (.inr named) mapped
    · exact owned

theorem Owned.step (state : State Owner) (action : Action Owner) (owned : Owned state) :
    Owned (step state action) := by
  cases action with
  | create ring topic accepted mapped =>
      simp only [RingNames.step]
      split
      · exact owned.create ring _ mapped
      · exact owned
  | destroy ring =>
      simp only [RingNames.step, State.destroy]
      split
      · exact owned
      · rename_i handle here
        exact owned.close here (.inr rfl)
  | die ring =>
      simp only [RingNames.step, State.die]
      split
      · exact owned
      · rename_i handle here
        exact owned.close here (.inl rfl)

/-- In every run, the destruction of a ring removes its own name and keeps the segment of every
other name exactly when the name is shorter than the field of the handle. -/
theorem destroy_removes_own_name (actions : List (Action Owner)) (ring : Owner) (handle : Handle)
    (live : (run step initial actions).handle ring = some handle) :
    ((step (run step initial actions) (.destroy ring)).names handle.opened = none ∧
      ∀ other, other ≠ handle.opened →
        (step (run step initial actions) (.destroy ring)).names other =
          (run step initial actions).names other) ↔
      handle.opened.length < shmRingMaxName := by
  have owned : Owned (run step (initial : State Owner) actions) :=
    run_invariant Owned.step actions _ .initial
  generalize run step initial actions = state at *
  have kept := owned.kept ring handle live
  have unlinked : (step state (.destroy ring)).names = state.names.erase handle.name := by
    simp only [step, State.destroy, live]
  rw [unlinked]
  constructor
  · rintro ⟨removed, -⟩
    by_contra wide
    have named := owned.long ring handle live (Nat.le_of_not_lt wide)
    have different : handle.opened ≠ handle.name := by
      intro same
      have short := congrArg List.length (same.trans kept)
      rw [List.length_take] at short
      unfold shmRingMaxName at short wide
      omega
    rw [Table.erase_of_ne _ different, named] at removed
    cases removed
  · intro fits
    have same : handle.name = handle.opened := by
      rw [kept, List.take_of_length_le]
      unfold shmRingMaxName at fits ⊢
      omega
    rw [same]
    exact ⟨Table.erase_self .., fun other different => Table.erase_of_ne _ different⟩

/-- A topic of 55 letters has a name that just fits. -/
def shortTopic : Bytes := List.replicate 55 97

/-- A topic with one more letter. -/
def longTopic : Bytes := List.replicate 56 97

/-- Two rings with different names. -/
def twoRings : List (Action Bool) :=
  [.create false shortTopic true true, .create true longTopic true true]

/-- The destruction of the ring with the longer name leaves this name, and it removes the name of
the other ring, which is still live. -/
theorem destroy_removes_other_name :
    ringShmName shortTopic ≠ ringShmName longTopic ∧
    (run step initial (twoRings ++ [.destroy true])).names (ringShmName longTopic) = some 1 ∧
    (run step initial twoRings).names (ringShmName shortTopic) = some 0 ∧
    (run step initial (twoRings ++ [.destroy true])).names (ringShmName shortTopic) = none := by
  decide +kernel

theorem destroy_removes_own_name_small :
    (step (run step initial twoRings) (.destroy false)).names (ringShmName shortTopic) = none ∧
      (step (run step initial twoRings) (.destroy false)).names (ringShmName longTopic) =
        some 1 := by
  have live : (run step initial twoRings).handle false =
      some ⟨ringShmName shortTopic, ringShmName shortTopic, 0⟩ := by decide +kernel
  obtain ⟨removed, others⟩ := (destroy_removes_own_name twoRings false _ live).mpr (by decide)
  refine ⟨removed, (others _ (by decide)).trans (by decide +kernel)⟩

end Chappe.RingNames
