/-
This file counts the parties of a finite system whose phase has a given property.
-/

import Mathlib.Data.Fintype.Card

namespace Chappe.Foundation

variable {Party Phase : Type*} [Fintype Party]
variable {counted : Phase → Prop} [DecidablePred counted]

/-- The number of parties whose phase is counted. -/
def census (counted : Phase → Prop) [DecidablePred counted] (phase : Party → Phase) : Nat :=
  (Finset.univ.filter fun party => counted (phase party)).card

theorem census_le_card (phase : Party → Phase) : census counted phase ≤ Fintype.card Party :=
  Finset.card_filter_le _ _

theorem census_eq_zero_iff (phase : Party → Phase) :
    census counted phase = 0 ↔ ∀ party, ¬ counted (phase party) := by
  simp [census, Finset.filter_eq_empty_iff]

/-- Phases that are counted alike have the same census. -/
theorem census_congr {phase other : Party → Phase}
    (same : ∀ party, counted (phase party) ↔ counted (other party)) :
    census counted phase = census counted other := by
  rw [census, census, Finset.filter_congr fun party _ => same party]

variable [DecidableEq Party]

/-- The census splits into one party and the others. -/
theorem census_split (phase : Party → Phase) (party : Party) :
    census counted phase =
      (if counted (phase party) then 1 else 0) +
        ((Finset.univ.erase party).filter fun other => counted (phase other)).card := by
  rw [census, ← Finset.insert_erase (Finset.mem_univ party), Finset.filter_insert]
  split
  · rw [Finset.card_insert_of_notMem (by simp), Finset.erase_insert (by simp), Nat.add_comm]
  · rw [Finset.erase_insert (by simp), Nat.zero_add]

/-- An update of one phase changes only the contribution of its party. -/
theorem census_update (phase : Party → Phase) (party : Party) (next : Phase) :
    census counted (Function.update phase party next) =
      (if counted next then 1 else 0) +
        ((Finset.univ.erase party).filter fun other => counted (phase other)).card := by
  rw [census_split _ party, Function.update_self]
  congr 2
  apply Finset.filter_congr
  intro other member
  rw [Function.update_of_ne (Finset.ne_of_mem_erase member)]

theorem census_enter (phase : Party → Phase) (party : Party) (next : Phase)
    (before : ¬ counted (phase party)) (after : counted next) :
    census counted (Function.update phase party next) = census counted phase + 1 := by
  rw [census_update, census_split phase party, if_pos after, if_neg before]
  omega

theorem census_leave (phase : Party → Phase) (party : Party) (next : Phase)
    (before : counted (phase party)) (after : ¬ counted next) :
    census counted (Function.update phase party next) + 1 = census counted phase := by
  rw [census_update, census_split phase party, if_neg after, if_pos before]
  omega

theorem census_stay (phase : Party → Phase) (party : Party) (next : Phase)
    (same : counted (phase party) ↔ counted next) :
    census counted (Function.update phase party next) = census counted phase := by
  rw [census_update, census_split phase party]
  simp only [same]

/-- The contribution of a party is replaced by that of its next phase. -/
theorem census_replace (phase : Party → Phase) (party : Party) (next : Phase) :
    census counted (Function.update phase party next) + (if counted (phase party) then 1 else 0) =
      census counted phase + if counted next then 1 else 0 := by
  rw [census_update, census_split phase party]
  omega

/-- A phase moves from one party to another, which has none that counts. -/
theorem census_move (phase : Party → Phase) {source target : Party} (different : target ≠ source)
    (free : ¬ counted (phase target)) (next : Phase) (after : ¬ counted next) :
    census counted (Function.update (Function.update phase target (phase source)) source next) =
      census counted phase := by
  have taken := @census_replace _ _ _ counted _ _ phase target (phase source)
  have left := @census_replace _ _ _ counted _ _
    (Function.update phase target (phase source)) source next
  rw [if_neg free] at taken
  rw [Function.update_of_ne different.symm, if_neg after] at left
  omega

end Chappe.Foundation
