/-
This file defines the cancellation of expected items from a list, which keeps the order of the rest.
-/

import Mathlib.Data.Multiset.AddSub

namespace Chappe.Foundation

variable {Item : Type*} [DecidableEq Item]

/-- Each expected item is dropped from the list once, at its first place. -/
def cancel (expected : Multiset Item) : List Item → List Item
  | [] => []
  | item :: rest =>
      if item ∈ expected then cancel (expected.erase item) rest
      else item :: cancel expected rest

theorem cancel_cons_of_mem {expected : Multiset Item} {item : Item} (rest : List Item)
    (present : item ∈ expected) :
    cancel expected (item :: rest) = cancel (expected.erase item) rest := if_pos present

theorem cancel_cons_of_notMem {expected : Multiset Item} {item : Item} (rest : List Item)
    (absent : item ∉ expected) :
    cancel expected (item :: rest) = item :: cancel expected rest := if_neg absent

/-- Only the counts of the listed items matter. -/
theorem cancel_congr {items : List Item} : ∀ {first second : Multiset Item},
    (∀ item ∈ items, first.count item = second.count item) →
    cancel first items = cancel second items := by
  induction items with
  | nil =>
      intro first second _
      rfl
  | cons item rest ih =>
      intro first second same
      have here := same item List.mem_cons_self
      by_cases present : item ∈ first
      · have also : item ∈ second := by
          rw [← Multiset.count_pos] at present ⊢
          omega
        rw [cancel_cons_of_mem rest present, cancel_cons_of_mem rest also]
        apply ih
        intro other member
        have counts := same other (List.mem_cons_of_mem _ member)
        by_cases equal : other = item
        · subst other
          rw [Multiset.count_erase_self, Multiset.count_erase_self, counts]
        · rw [Multiset.count_erase_of_ne equal, Multiset.count_erase_of_ne equal, counts]
      · have missing : item ∉ second := by
          rw [← Multiset.count_eq_zero] at present ⊢
          omega
        rw [cancel_cons_of_notMem rest present, cancel_cons_of_notMem rest missing]
        congr 1
        exact ih fun other member => same other (List.mem_cons_of_mem _ member)

/-- Nothing is dropped when nothing listed is expected. -/
theorem cancel_of_disjoint {items : List Item} {expected : Multiset Item}
    (apart : ∀ item ∈ items, expected.count item = 0) : cancel expected items = items := by
  induction items with
  | nil => rfl
  | cons item rest ih =>
      have absent : item ∉ expected := Multiset.count_eq_zero.mp (apart item List.mem_cons_self)
      rw [cancel_cons_of_notMem rest absent,
        ih fun other member => apart other (List.mem_cons_of_mem _ member)]

/-- Later items are kept when the earlier ones use up what is expected of them. -/
theorem cancel_append {items later : List Item} : ∀ {expected : Multiset Item},
    (∀ item ∈ later, expected.count item ≤ items.count item) →
    cancel expected (items ++ later) = cancel expected items ++ later := by
  induction items with
  | nil =>
      intro expected few
      rw [List.nil_append, cancel, List.nil_append]
      apply cancel_of_disjoint
      intro item member
      exact Nat.le_zero.mp (few item member)
  | cons item rest ih =>
      intro expected few
      rw [List.cons_append]
      by_cases present : item ∈ expected
      · rw [cancel_cons_of_mem _ present, cancel_cons_of_mem _ present]
        apply ih
        intro other member
        have counts := few other member
        rw [List.count_cons] at counts
        by_cases equal : other = item
        · subst other
          rw [if_pos (beq_self_eq_true _)] at counts
          rw [Multiset.count_erase_self]
          omega
        · rw [if_neg (by simpa using Ne.symm equal)] at counts
          rwa [Multiset.count_erase_of_ne equal]
      · rw [cancel_cons_of_notMem _ present, cancel_cons_of_notMem _ present, List.cons_append]
        congr 1
        apply ih
        intro other member
        have counts := few other member
        rw [List.count_cons] at counts
        by_cases equal : other = item
        · subst other
          rw [Multiset.count_eq_zero.mpr present]
          exact Nat.zero_le _
        · rwa [if_neg (by simpa using Ne.symm equal)] at counts

/-- Everything is dropped when every listed item is expected often enough. -/
theorem cancel_eq_nil {items : List Item} : ∀ {expected : Multiset Item},
    (∀ item ∈ items, items.count item ≤ expected.count item) → cancel expected items = [] := by
  induction items with
  | nil => exact fun _ => rfl
  | cons item rest ih =>
      intro expected enough
      have here := enough item List.mem_cons_self
      rw [List.count_cons_self] at here
      have present : item ∈ expected := Multiset.count_pos.mp (by omega)
      rw [cancel_cons_of_mem rest present]
      apply ih
      intro other member
      have counts := enough other (List.mem_cons_of_mem _ member)
      rw [List.count_cons] at counts
      by_cases equal : other = item
      · subst other
        rw [Multiset.count_erase_self]
        omega
      · rw [if_neg (by simpa using Ne.symm equal)] at counts
        rwa [Multiset.count_erase_of_ne equal]

theorem mem_of_mem_cancel {items : List Item} {item : Item} : ∀ {expected : Multiset Item},
    item ∈ cancel expected items → item ∈ items := by
  induction items with
  | nil => exact fun member => member
  | cons first rest ih =>
      intro expected member
      by_cases present : first ∈ expected
      · rw [cancel_cons_of_mem rest present] at member
        exact List.mem_cons_of_mem _ (ih member)
      · rw [cancel_cons_of_notMem rest present] at member
        rcases List.mem_cons.mp member with rfl | later
        · exact List.mem_cons_self
        · exact List.mem_cons_of_mem _ (ih later)

end Chappe.Foundation
