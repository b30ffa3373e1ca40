/-
This file proves that a process has one claim on a slot for each live view that names it, as long as
the slots that it retains have numbers that `s32` holds.
-/

import Chappe.Construction.SlotViews
import Chappe.Foundation.LittleEndian

namespace Chappe.SlotViews
open Foundation ShmRing

variable {View Ring : Type}

/-- The object is a valid view that names the slot. -/
def Names (claim : Ring × UInt32) : Option (SlotView Ring) → Prop
  | some view => view.Valid ∧ view.ring = some claim.1 ∧ view.idx.toUInt32 = claim.2
  | none => False

/-- The try loads a slot in the state `SLOT_READY`, and the tries before it loaded slots in other
states. -/
inductive Keeps (numSlots : UInt32) : List Loads → UInt32 → Prop where
  | ready {loads : Loads} {rest : List Loads} (inside : loads.Inside numSlots)
      (ready : loads.state = .ready) : Keeps numSlots (loads :: rest) loads.lastReady
  | retry {loads : Loads} {rest : List Loads} {slot : UInt32} (inside : loads.Inside numSlots)
      (taken : loads.state ≠ .ready) (later : Keeps numSlots rest slot) :
      Keeps numSlots (loads :: rest) slot

theorem names_empty (claim : Ring × UInt32) : ¬ Names claim (some .empty) :=
  fun names => names.1.1 rfl

theorem names_iff {ring : Ring} {idx : Int32} (counts : 0 ≤ idx) (claim : Ring × UInt32) :
    Names claim (some ⟨some ring, idx⟩) ↔ (ring, idx.toUInt32) = claim := by
  constructor
  · rintro ⟨-, named, same⟩
    exact Prod.ext (Option.some.inj named) same
  · rintro rfl
    exact ⟨⟨nofun, counts⟩, rfl, rfl⟩

section Retain

variable [DecidableEq Ring]

/-- The process has a claim on the slot from a successful retain. -/
def Process.stake (process : Process View Ring) (claim : Ring × UInt32) : Process View Ring :=
  { process.fetchAdd claim 1 with retained := claim :: process.retained }

@[simp] theorem fetchAdd_view (process : Process View Ring) (claim : Ring × UInt32) (amount : Int) :
    (process.fetchAdd claim amount).view = process.view := rfl

theorem fetchAdd_claims (process : Process View Ring) (claim other : Ring × UInt32)
    (amount : Int) : (process.fetchAdd claim amount).claims other =
      process.claims other + if claim = other then amount else 0 := by
  by_cases same : claim = other
  · subst same
    rw [if_pos rfl]
    exact Function.update_self ..
  · rw [if_neg same, Int.add_zero]
    exact Function.update_of_ne (Ne.symm same) ..

/-- A try that gives its claim back leaves the refcounts as they were. -/
theorem fetchAdd_undone (process : Process View Ring) (claim : Ring × UInt32) :
    (process.fetchAdd claim 1).fetchAdd claim (-1) = process := by
  simp [Process.fetchAdd]

theorem retain_keeps (process : Process View Ring) (ring : Ring) {numSlots : UInt32}
    {loads : List Loads} {slot : UInt32} (keeps : Keeps numSlots loads slot) :
    process.retain ring numSlots loads = (process.stake (ring, slot), slot.toInt32) := by
  induction keeps with
  | ready inside ready =>
      rw [Process.retain, if_pos inside]
      dsimp only
      rw [if_pos ready]
      rfl
  | retry inside taken later ih =>
      rw [Process.retain, if_pos inside]
      dsimp only
      rw [if_neg taken, fetchAdd_undone]
      exact ih

theorem retain_misses (process : Process View Ring) (ring : Ring) {numSlots : UInt32}
    {loads : List Loads} (misses : ∀ slot, ¬ Keeps numSlots loads slot) :
    process.retain ring numSlots loads = (process, -1) := by
  induction loads with
  | nil => rfl
  | cons first rest ih =>
      rw [Process.retain]
      split
      · rename_i inside
        have taken : first.state ≠ .ready := fun ready => misses _ (.ready inside ready)
        dsimp only
        rw [if_neg taken, fetchAdd_undone]
        exact ih fun slot keeps => misses slot (.retry inside taken keeps)
      · rfl

end Retain

variable [DecidableEq Ring]

instance (claim : Ring × UInt32) : DecidablePred (Names claim)
  | some view =>
      inferInstanceAs
        (Decidable ((view.ring ≠ none ∧ 0 ≤ view.idx) ∧ view.ring = some claim.1 ∧
          view.idx.toUInt32 = claim.2))
  | none => inferInstanceAs (Decidable False)

variable [Fintype View]

/-- The claims of the process on each slot are the live valid views that name it. No slot is
released without a successful retain, and each is released once when no view is left. -/
structure Accounted (process : Process View Ring) : Prop where
  held : ∀ claim, process.claims claim = census (Names claim) process.view
  granted : ∀ claim, process.released.count claim ≤ process.retained.count claim
  finished : (∀ name, process.view name = none) →
    ∀ claim, process.released.count claim = process.retained.count claim

/-- Each successful retain was released or has a live view. -/
structure Owned (process : Process View Ring) : Prop where
  held : ∀ claim, process.claims claim = census (Names claim) process.view
  once : ∀ claim, process.released.count claim + census (Names claim) process.view =
    process.retained.count claim

theorem Owned.accounted {process : Process View Ring} (owned : Owned process) :
    Accounted process where
  held := owned.held
  granted := by
    intro claim
    have once := owned.once claim
    omega
  finished := by
    intro gone claim
    have none : census (Names claim) process.view = 0 := by
      rw [census_eq_zero_iff]
      intro name
      rw [gone name]
      exact id
    rw [← owned.once claim, none, Nat.add_zero]

theorem initial_owned : Owned (initial : Process View Ring) := by
  have none (claim : Ring × UInt32) :
      census (Names claim) (fun _ : View => (none : Option (SlotView Ring))) = 0 :=
    (census_eq_zero_iff _).mpr fun _ => id
  constructor
  · intro claim
    rw [initial, none claim]
    rfl
  · intro claim
    rw [initial, none claim]
    rfl

variable {process : Process View Ring}

/-- An operation that keeps the number of views that name each slot. -/
theorem Owned.shuffle (owned : Owned process) {view : View → Option (SlotView Ring)}
    (same : ∀ claim, census (Names claim) view = census (Names claim) process.view) :
    Owned { process with view := view } where
  held := by
    intro claim
    rw [same claim]
    exact owned.held claim
  once := by
    intro claim
    rw [same claim]
    exact owned.once claim

variable [DecidableEq View]

/-- The census after an operation on an object that does not name a slot before. -/
theorem census_put {name : View} {claim : Ring × UInt32} (free : ¬ Names claim (process.view name))
    (next : Option (SlotView Ring)) :
    census (Names claim) (Function.update process.view name next) =
      census (Names claim) process.view + if Names claim next then 1 else 0 := by
  have replaced := @census_replace _ _ _ (Names claim) _ _ process.view name next
  rwa [if_neg free, Nat.add_zero] at replaced

theorem Owned.put (owned : Owned process) {name : View}
    (free : ∀ claim, ¬ Names claim (process.view name)) {next : Option (SlotView Ring)}
    (names : ∀ claim, ¬ Names claim next) :
    Owned { process with view := Function.update process.view name next } :=
  owned.shuffle fun claim => by rw [census_put (free claim), if_neg (names claim), Nat.add_zero]

/-- The function `release` gives the claim of a valid view back. -/
theorem Owned.release (owned : Owned process) (name : View) :
    Owned (process.release name) ∧ ∀ claim, ¬ Names claim ((process.release name).view name) := by
  unfold Process.release
  split
  · rename_i ring idx here
    split_ifs with counts
    · have emptied (claim : Ring × UInt32) :
          census (Names claim) (Function.update process.view name (some .empty)) +
            (if (ring, idx.toUInt32) = claim then 1 else 0) =
              census (Names claim) process.view := by
        have replaced := @census_replace _ _ _ (Names claim) _ _ process.view name (some .empty)
        rw [if_neg (names_empty claim), here] at replaced
        simpa only [names_iff counts, Nat.add_zero] using replaced
      refine ⟨⟨?_, ?_⟩, ?_⟩
      · intro claim
        have held := owned.held claim
        have before := emptied claim
        simp only [Process.put, Process.releaseSlot, fetchAdd_claims, fetchAdd_view]
        split_ifs at before ⊢
        all_goals omega
      · intro claim
        have once := owned.once claim
        have before := emptied claim
        simp only [Process.put, Process.releaseSlot, Process.fetchAdd, List.count_cons, beq_iff_eq]
        omega
      · intro claim names
        have mine : Function.update process.view name (some SlotView.empty) name = some .empty :=
          Function.update_self ..
        exact names_empty claim (mine ▸ names)
    · refine ⟨owned, ?_⟩
      intro claim names
      rw [here] at names
      exact counts names.1.2
  · rename_i invalid
    refine ⟨owned, ?_⟩
    intro claim names
    cases here : process.view name with
    | none =>
        rw [here] at names
        exact names
    | some view =>
        rw [here] at names
        obtain ⟨ring, idx⟩ := view
        obtain ⟨-, named, -⟩ := names
        cases named
        exact invalid _ _ here

omit [Fintype View] in
theorem release_other (process : Process View Ring) {name other : View} (different : name ≠ other) :
    (process.release name).view other = process.view other := by
  unfold Process.release
  split
  · split_ifs
    · exact Function.update_of_ne different.symm ..
    · rfl
  · rfl

/-- The object that a move leaves behind is empty, and its claim is that of the other object. -/
theorem Owned.move (owned : Owned process) {name other : View} (different : name ≠ other)
    (free : ∀ claim, ¬ Names claim (process.view name)) {source : SlotView Ring}
    (there : process.view other = some source) :
    Owned ((process.put name source).put other .empty) :=
  owned.shuffle fun claim => by
    have moved := census_move process.view different (free claim) _ (names_empty claim)
    rwa [there] at moved

/-- A slot whose number `s32` holds is kept by the view that names it. -/
theorem Owned.retain (owned : Owned process) {name : View} (gone : process.view name = none)
    (ring : Ring) {slot : UInt32} (counts : 0 ≤ slot.toInt32) :
    Owned ((process.stake (ring, slot)).put name ⟨some ring, slot.toInt32⟩) := by
  have entered (claim : Ring × UInt32) :
      census (Names claim) (Function.update process.view name (some ⟨some ring, slot.toInt32⟩)) =
        census (Names claim) process.view + if (ring, slot) = claim then 1 else 0 := by
    have replaced := @census_replace _ _ _ (Names claim) _ _ process.view name
      (some ⟨some ring, slot.toInt32⟩)
    have none : ¬ Names claim (none : Option (SlotView Ring)) := id
    rw [gone, if_neg none, Nat.add_zero] at replaced
    simpa only [names_iff counts, UInt32.toUInt32_toInt32] using replaced
  constructor
  · intro claim
    have held := owned.held claim
    have after := entered claim
    simp only [Process.put, Process.stake, fetchAdd_claims, fetchAdd_view]
    split_ifs at after ⊢
    all_goals omega
  · intro claim
    have once := owned.once claim
    have after := entered claim
    simp only [Process.put, Process.stake, Process.fetchAdd, List.count_cons, beq_iff_eq]
    omega

/-- The claim on a slot with a larger number has no view. -/
theorem Owned.lost (owned : Owned process) {name : View} (gone : process.view name = none)
    (claim : Ring × UInt32) : ¬ Accounted ((process.stake claim).put name .empty) := by
  intro accounted
  have free : ¬ Names claim (process.view name) := by
    rw [gone]
    exact id
  have same : census (Names claim) (Function.update process.view name (some .empty)) =
      census (Names claim) process.view :=
    census_stay process.view name _ ⟨fun names => absurd names free,
      fun names => absurd names (names_empty claim)⟩
  have before := owned.held claim
  have after := accounted.held claim
  simp only [Process.put, Process.stake, fetchAdd_claims, fetchAdd_view, if_true] at after
  omega

/-- A successful retain into a new view keeps a slot whose number is below `2 ^ 31`. -/
def Narrow (numSlots : Ring → UInt32) (process : Process View Ring) (action : Action View Ring) :
    Prop :=
  ∀ name ring loads, action = .retainLatest name ring loads → process.view name = none →
    ∀ slot, Keeps (numSlots ring) (List.ofFn loads) slot → slot.toNat < 2 ^ 31

variable {numSlots : Ring → UInt32} {action : Action View Ring}

theorem step_owned (owned : Owned process) (narrow : Narrow numSlots process action) :
    Owned (step numSlots process action) := by
  cases action with
  | construct name =>
      simp only [step]
      split
      · rename_i gone
        exact owned.put (by simp [gone, Names]) names_empty
      · exact owned
  | retainLatest name ring loads =>
      simp only [step]
      split
      · rename_i gone
        by_cases kept : ∃ slot, Keeps (numSlots ring) (List.ofFn loads) slot
        · obtain ⟨slot, keeps⟩ := kept
          have small := narrow name ring loads rfl gone slot keeps
          have counts : ¬ slot.toInt32 < 0 := by
            rw [toInt32_neg_iff]
            omega
          rw [retain_keeps process ring keeps, if_neg counts]
          exact owned.retain gone ring (Int32.not_lt.mp counts)
        · rw [retain_misses process ring (not_exists.mp kept)]
          dsimp only
          rw [if_pos (by decide)]
          exact owned.put (by simp [gone, Names]) names_empty
      · exact owned
  | moveConstruct name other =>
      simp only [step]
      split
      · rename_i source gone there
        have different : name ≠ other := by
          rintro rfl
          rw [gone] at there
          cases there
        exact owned.move different (by simp [gone, Names]) there
      · exact owned
  | moveAssign name other =>
      simp only [step]
      split
      · rename_i target source here there
        split_ifs with same
        · exact owned
        · obtain ⟨released, free⟩ := owned.release name
          refine released.move same free ?_
          rw [release_other process same, there]
      · exact owned
  | destroy name =>
      simp only [step]
      split
      · obtain ⟨released, free⟩ := owned.release name
        exact released.put free fun _ => id
      · exact owned

theorem accounted_narrow (owned : Owned process)
    (accounted : Accounted (step numSlots process action)) : Narrow numSlots process action := by
  intro name ring loads here gone slot keeps
  subst here
  by_contra large
  have negative : slot.toInt32 < 0 := by
    rw [toInt32_neg_iff]
    omega
  simp only [step, gone, retain_keeps process ring keeps, if_pos negative] at accounted
  exact owned.lost gone _ accounted

/-- In every state of a run the process has as many claims on each slot as live valid views that
name it, no slot is released without a successful retain, and each is released exactly once when no
view is left, if and only if no retain keeps a slot whose number `s32` does not hold. -/
theorem released_once_iff (numSlots : Ring → UInt32) (actions : List (Action View Ring)) :
    Along (step numSlots) Accounted (initial : Process View Ring) actions ↔
      Meets (step numSlots) (Narrow numSlots) (initial : Process View Ring) actions := by
  have start : Owned (initial : Process View Ring) := initial_owned
  generalize (initial : Process View Ring) = process at start
  induction actions generalizing process with
  | nil => exact Iff.rfl
  | cons action rest ih =>
      constructor
      · rintro ⟨accounted, later⟩
        have narrow := accounted_narrow start accounted
        exact ⟨narrow, (ih _ (step_owned start narrow)).mp later⟩
      · rintro ⟨narrow, later⟩
        have owned := step_owned start narrow
        exact ⟨owned.accounted, (ih _ owned).mpr later⟩

/-- The retained slot `2 ^ 31` of a ring with one slot more. -/
def wide : Fin shmRetainTries → Loads := fun _ => ⟨2 ^ 31, .ready⟩

/-- The view of the retained slot is empty, and its destructor does not give the claim back. -/
theorem wide_slot_leaks :
    let process := run (step fun _ : Unit => 2 ^ 31 + 1) initial
      [.retainLatest () () wide, .destroy ()]
    process.claims ((), 2 ^ 31) = 1 ∧ census (Names ((), 2 ^ 31)) process.view = 0 ∧
      process.view () = none ∧ process.retained.count ((), 2 ^ 31) = 1 ∧
      process.released.count ((), 2 ^ 31) = 0 := by
  decide +kernel

end Chappe.SlotViews
