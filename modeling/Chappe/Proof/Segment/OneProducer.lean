/-
This file proves when a ring name has at most one live producer.
-/

import Chappe.Proof.Segment.Locking

namespace Chappe.Segment
open Foundation

variable {Process Consumer : Type}

/-- A create takes the lock only while the name resolves to the segment that it opened, and the
name is unlinked only while nobody has the lock of the segment that it resolves to. -/
def Orderly (state : State Process Consumer) : Action Process Consumer → Prop
  | .process process ok =>
      match state.place process with
      | .opened _ inode => ok = true → state.lock inode = none → state.name = some inode
      | .unlinking => ok = true → ∀ inode, state.name = some inode → state.lock inode = none
      | _ => True
  | _ => True

/-- The name resolves to every locked segment. -/
def Named (state : State Process Consumer) : Prop :=
  ∀ process inode, state.lock inode = some process → state.name = some inode

theorem Named.initial : Named (initial : State Process Consumer) := nofun

variable {state : State Process Consumer}

/-- A closed descriptor leaves the other locked segments under the name. -/
theorem Named.unlock (named : Named state) (inode : Nat) : Named (state.unlock inode) := by
  intro other segment held
  by_cases same : segment = inode
  · simp only [State.unlock, same, Function.update_self] at held
    cases held
  · simp only [State.unlock, Function.update_of_ne same] at held
    exact named other segment held

variable [DecidableEq Process]

theorem Named.build (named : Named state) (process : Process) (layout : Layout) (inode : Nat)
    (ok : Bool) (stage : Stage) : Named (state.build process layout inode ok stage) := by
  cases stage with
  | resize | map =>
      simp only [State.build]
      split
      · exact named
      · exact named.unlock inode
  | clear | count | describe | clearSlots | publish | ready => exact named

theorem Named.processStep (named : Named state) (process : Process) (ok : Bool)
    (orderly : Orderly state (.process process ok)) : Named (state.processStep process ok) := by
  simp only [Orderly] at orderly
  unfold State.processStep
  cases here : state.place process with
  | idle | dead => exact named
  | opening layout =>
      dsimp only
      split
      · split
        · rename_i absent
          intro other inode held
          have resolved := named other inode held
          rw [absent] at resolved
          cases resolved
        · exact named
      · exact named
  | reopening layout =>
      dsimp only
      split <;> exact named
  | opened layout inode =>
      rw [here] at orderly
      dsimp only at orderly ⊢
      split
      · rename_i ready
        intro other segment held
        by_cases same : segment = inode
        · rw [same]
          exact orderly ready.1 ready.2
        · simp only [Function.update_of_ne same] at held
          exact named other segment held
      · exact named
  | building layout inode stage => exact named.build process layout inode ok stage
  | unmapped inode => exact named.unlock inode
  | unlinking =>
      rw [here] at orderly
      intro other inode held
      have locked : state.lock inode = some other := held
      have resolved := named other inode locked
      dsimp only
      split
      · rename_i unlinked
        rw [orderly unlinked inode resolved] at locked
        cases locked
      · exact resolved

variable [DecidableEq Consumer]

theorem Named.step (state : State Process Consumer) (action : Action Process Consumer)
    (named : Named state) (orderly : Orderly state action) : Named (step state action) := by
  cases action with
  | create process layout =>
      simp only [Segment.step]
      split <;> exact named
  | destroy process =>
      simp only [Segment.step]
      split <;> exact named
  | process process ok => exact named.processStep process ok orderly
  | die process =>
      intro other inode held
      simp only [Segment.step, State.goto] at held
      split at held
      · cases held
      · exact named other inode held
  | attach consumer =>
      simp only [Segment.step]
      split <;> exact named
  | consumer consumer ok => exact named
  | detach consumer => exact named

/-- In every run whose locks and unlinks are orderly, at most one process has a live ring, and the
name resolves to its segment. -/
theorem one_producer (actions : List (Action Process Consumer))
    (orderly : Meets step Orderly initial actions) :
    (∀ first second inode other, Holds (run step initial actions) first inode →
      Holds (run step initial actions) second other → first = second) ∧
    ∀ process inode, Holds (run step initial actions) process inode →
      (run step initial actions).name = some inode := by
  have agree : LocksAgree (run step initial actions) :=
    run_invariant LocksAgree.step actions _ .initial
  have named : Named (run step initial actions) :=
    run_invariant_of_meets Named.step actions _ .initial orderly
  have locks {process : Process} {inode : Nat}
      (holds : Holds (run step initial actions) process inode) :
      ((run step initial actions).place process).Locks inode := by
    obtain ⟨layout, here⟩ := holds
    rw [here]
    exact rfl
  have resolves {process : Process} {inode : Nat}
      (holds : Holds (run step initial actions) process inode) :
      (run step initial actions).name = some inode :=
    named process inode ((agree process inode).mpr (locks holds))
  refine ⟨?_, fun process inode holds => resolves holds⟩
  intro first second inode other one two
  have same : inode = other := Option.some.inj ((resolves one).symm.trans (resolves two))
  subst other
  exact agree.unique (locks one) (locks two)

/-- A process creates the ring of the name and is given it. -/
def createRing (process : Nat) : List (Action Nat Unit) :=
  .create process ⟨2, 8⟩ :: List.replicate 9 (.process process true)

/-- A process that finds the name taken needs one more call. -/
def reclaimRing (process : Nat) : List (Action Nat Unit) :=
  .create process ⟨2, 8⟩ :: List.replicate 10 (.process process true)

/-- A producer dies, and the next one reclaims its segment. -/
theorem one_producer_small :
    Holds (run step (initial : State Nat Unit) (createRing 0 ++ .die 0 :: reclaimRing 1)) 1 0 ∧
      (run step (initial : State Nat Unit) (createRing 0 ++ .die 0 :: reclaimRing 1)).name =
        some 0 := by
  have holds : Holds (run step (initial : State Nat Unit)
      (createRing 0 ++ .die 0 :: reclaimRing 1)) 1 0 := ⟨⟨2, 8⟩, by decide⟩
  refine ⟨holds, (one_producer (createRing 0 ++ .die 0 :: reclaimRing 1) ?_).2 1 0 holds⟩
  refine ⟨True.intro, True.intro, ?_, True.intro, True.intro, True.intro, True.intro, True.intro,
    True.intro, True.intro, True.intro, True.intro, True.intro, True.intro, ?_, True.intro,
    True.intro, True.intro, True.intro, True.intro, True.intro, True.intro, True.intro⟩
  · exact fun _ _ => rfl
  · exact fun _ _ => rfl

/-- The second producer reclaims the segment between the close and the unlink of the first, and
the third one makes a new segment under the name that the first then unlinked. -/
def splitTopic : List (Action Nat Unit) :=
  createRing 0 ++ [.destroy 0, .process 0 true] ++ reclaimRing 1 ++ [.process 0 true] ++
    createRing 2

theorem two_producers :
    Holds (run step (initial : State Nat Unit) splitTopic) 1 0 ∧
      Holds (run step (initial : State Nat Unit) splitTopic) 2 1 ∧
      (run step (initial : State Nat Unit) splitTopic).name = some 1 :=
  ⟨⟨⟨2, 8⟩, by decide⟩, ⟨⟨2, 8⟩, by decide⟩, by decide⟩

end Chappe.Segment
