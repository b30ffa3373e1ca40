/-
This file proves that the locks of the segments are those of the processes that took them.
-/

import Chappe.Construction.Segment

namespace Chappe.Segment
open Foundation

variable {Process Consumer : Type}

/-- The control points at which a process has the lock of a segment. -/
def Place.Locks (inode : Nat) : Place → Prop
  | .building _ locked _ | .unmapped locked => locked = inode
  | _ => False

/-- The locks are those of the processes between their lock and their close. -/
def LocksAgree (state : State Process Consumer) : Prop :=
  ∀ process inode, state.lock inode = some process ↔ (state.place process).Locks inode

theorem LocksAgree.initial : LocksAgree (initial : State Process Consumer) :=
  fun _ _ => ⟨nofun, False.elim⟩

variable {state : State Process Consumer}

/-- Two processes never have the lock of one segment. -/
theorem LocksAgree.unique (agree : LocksAgree state) {first second : Process} {inode : Nat}
    (one : (state.place first).Locks inode) (two : (state.place second).Locks inode) :
    first = second :=
  Option.some.inj (((agree first inode).mpr one).symm.trans ((agree second inode).mpr two))

variable [DecidableEq Process]

/-- A move of one process that has the same lock before and after. -/
theorem LocksAgree.goto (agree : LocksAgree state) {process : Process} {place : Place}
    (same : ∀ inode, (state.place process).Locks inode ↔ place.Locks inode) :
    LocksAgree (state.goto process place) := by
  intro other inode
  by_cases here : other = process
  · subst other
    simp only [State.goto, Function.update_self, agree process inode, same]
  · simp only [State.goto, Function.update_of_ne here]
    exact agree other inode

/-- The process that has the lock of a segment closes its descriptor. -/
theorem LocksAgree.close (agree : LocksAgree state) {process : Process} {inode : Nat}
    (locks : ∀ other, (state.place process).Locks other ↔ other = inode) {place : Place}
    (free : ∀ other, ¬ place.Locks other) :
    LocksAgree ((state.unlock inode).goto process place) := by
  intro other segment
  by_cases here : other = process
  · subst other
    simp only [State.goto, State.unlock, Function.update_self, free, iff_false]
    by_cases same : segment = inode
    · rw [same, Function.update_self]
      nofun
    · rw [Function.update_of_ne same, agree process segment, locks]
      exact same
  · simp only [State.goto, State.unlock, Function.update_of_ne here, ← agree other segment]
    by_cases same : segment = inode
    · have holder := (agree process inode).mpr ((locks inode).mpr rfl)
      rw [same, Function.update_self, holder]
      simp only [reduceCtorEq, Option.some.injEq, false_iff]
      exact Ne.symm here
    · rw [Function.update_of_ne same]

/-- A process takes the lock of a segment that is free. -/
theorem LocksAgree.lock (agree : LocksAgree state) {process : Process} {inode : Nat}
    (free : state.lock inode = none) (before : ∀ other, ¬ (state.place process).Locks other)
    {place : Place} (locks : ∀ other, place.Locks other ↔ other = inode) :
    LocksAgree { state.goto process place with
      lock := Function.update state.lock inode (some process) } := by
  intro other segment
  by_cases same : segment = inode
  · subst segment
    by_cases here : other = process
    · subst other
      simp [State.goto, locks]
    · have never : ¬ (state.place other).Locks inode := by
        rw [← agree other inode, free]
        nofun
      simp [State.goto, Function.update_of_ne here, never, Ne.symm here]
  · by_cases here : other = process
    · subst other
      simp [State.goto, locks, same, agree _ _, before]
    · simp only [State.goto, Function.update_of_ne same, Function.update_of_ne here]
      exact agree other segment

/-- A process dies and gives up its lock. -/
theorem LocksAgree.die (agree : LocksAgree state) (process : Process) :
    LocksAgree { state.goto process .dead with
      lock := fun inode =>
        if state.lock inode = some process then none else state.lock inode } := by
  intro other inode
  simp only [State.goto]
  by_cases here : other = process
  · subst other
    simp only [Function.update_self]
    split
    · exact ⟨nofun, False.elim⟩
    · rename_i different
      exact ⟨fun held => absurd held different, False.elim⟩
  · rw [Function.update_of_ne here, ← agree other inode]
    split
    · rename_i held
      rw [held]
      exact ⟨nofun, fun same => absurd (Option.some.inj same).symm here⟩
    · exact Iff.rfl

theorem LocksAgree.build (agree : LocksAgree state) {process : Process} {layout : Layout}
    {inode : Nat} {stage : Stage} (here : state.place process = .building layout inode stage)
    (ok : Bool) : LocksAgree (state.build process layout inode ok stage) := by
  have next (later : Stage) (segment : Nat) :
      (state.place process).Locks segment ↔ (Place.building layout inode later).Locks segment := by
    rw [here]
    exact Iff.rfl
  have closed : LocksAgree ((state.unlock inode).goto process .unlinking) := by
    refine agree.close ?_ fun _ held => held
    rw [here]
    exact fun _ => eq_comm
  cases stage with
  | resize =>
      simp only [State.build]
      split
      · exact agree.goto (next .map)
      · exact closed
  | map =>
      simp only [State.build]
      split
      · exact agree.goto (next .clear)
      · exact closed
  | clear => exact agree.goto (next .count)
  | count => exact agree.goto (next .describe)
  | describe => exact agree.goto (next .clearSlots)
  | clearSlots => exact agree.goto (next .publish)
  | publish => exact agree.goto (next .ready)
  | ready => exact agree

theorem LocksAgree.processStep (agree : LocksAgree state) (process : Process) (ok : Bool) :
    LocksAgree (state.processStep process ok) := by
  have free (place : Place) (before : ∀ inode, ¬ (state.place process).Locks inode)
      (after : ∀ inode, ¬ place.Locks inode) : LocksAgree (state.goto process place) :=
    agree.goto fun inode => iff_of_false (before inode) (after inode)
  unfold State.processStep
  cases here : state.place process with
  | idle => exact agree
  | dead => exact agree
  | opening layout =>
      have unlocked (inode : Nat) : ¬ (state.place process).Locks inode := by rw [here]; exact id
      dsimp only
      split
      · split <;> exact free _ unlocked fun _ => id
      · exact free _ unlocked fun _ => id
  | reopening layout =>
      have unlocked (inode : Nat) : ¬ (state.place process).Locks inode := by rw [here]; exact id
      dsimp only
      split <;> exact free _ unlocked fun _ => id
  | opened layout inode =>
      have unlocked (inode : Nat) : ¬ (state.place process).Locks inode := by rw [here]; exact id
      dsimp only
      split
      · rename_i ready
        exact agree.lock ready.2 unlocked fun _ => eq_comm
      · exact free _ unlocked fun _ => id
  | building layout inode stage => exact agree.build here ok
  | unmapped inode =>
      refine agree.close ?_ fun _ held => held
      rw [here]
      exact fun _ => eq_comm
  | unlinking =>
      have unlocked (inode : Nat) : ¬ (state.place process).Locks inode := by rw [here]; exact id
      exact free .idle unlocked fun _ => id

variable [DecidableEq Consumer]

theorem LocksAgree.step (state : State Process Consumer) (action : Action Process Consumer)
    (agree : LocksAgree state) : LocksAgree (step state action) := by
  cases action with
  | create process layout =>
      simp only [Segment.step]
      split
      · rename_i ready
        exact agree.goto fun inode => iff_of_false (by rw [ready.1]; exact id) id
      · exact agree
  | destroy process =>
      simp only [Segment.step]
      split
      · rename_i layout inode here
        apply agree.goto
        rw [here]
        exact fun _ => Iff.rfl
      · exact agree
  | process process ok => exact agree.processStep process ok
  | die process => exact agree.die process
  | attach consumer =>
      simp only [Segment.step]
      split <;> exact agree
  | consumer consumer ok => exact agree
  | detach consumer => exact agree

end Chappe.Segment
