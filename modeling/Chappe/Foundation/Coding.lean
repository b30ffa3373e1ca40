/-
This file proves that splitting at a separator commutes with a code that keeps the separator apart.
-/

import Mathlib.Data.List.Basic

namespace Chappe.Foundation

variable {Item Symbol : Type*} [DecidableEq Item] [DecidableEq Symbol]

omit [DecidableEq Item] in
/-- A word without the mark goes to the front of the first piece. -/
theorem splitOn_append {mark : Symbol} {word : List Symbol} (free : mark ∉ word)
    (rest : List Symbol) :
    (word ++ rest).splitOn mark = (rest.splitOn mark).modifyHead (word ++ ·) := by
  induction word with
  | nil =>
      rw [List.nil_append]
      cases rest.splitOn mark <;> rfl
  | cons symbol word ih =>
      obtain ⟨other, free⟩ := not_or.mp (mt List.mem_cons.mpr free)
      have different : (symbol == mark) = false := beq_eq_false_iff_ne.mpr (Ne.symm other)
      rw [List.cons_append, List.splitOn_cons_eq_if_modifyHead, different, ih free]
      cases rest.splitOn mark <;> rfl

/-- The pieces of a coded list are the coded pieces. -/
theorem splitOn_flatMap (code : Item → List Symbol) {separator : Item} {mark : Symbol}
    (marked : code separator = [mark]) (free : ∀ item, item ≠ separator → mark ∉ code item)
    (items : List Item) :
    (items.flatMap code).splitOn mark = (items.splitOn separator).map (·.flatMap code) := by
  induction items with
  | nil => rfl
  | cons item rest ih =>
      rw [List.flatMap_cons, List.splitOn_cons_eq_if_modifyHead]
      by_cases here : item = separator
      · subst here
        rw [marked, List.singleton_append, List.splitOn_cons_eq_if_modifyHead, ih]
        simp
      · rw [splitOn_append (free item here), ih, beq_eq_false_iff_ne.mpr here]
        cases rest.splitOn separator with
        | nil => rfl
        | cons piece pieces => simp

end Chappe.Foundation
