/-
This file proves what the queues of a family hold after one of them has grown or lost its head.
-/

import Mathlib.Logic.Function.Basic
import Mathlib.Data.List.Basic

namespace Chappe.Foundation

variable {Key Entry : Type*} [DecidableEq Key] {queues : Key → List Entry} {key other : Key}
  {entry member : Entry} {rest : List Entry}

/-- An entry of a family after one queue has grown. -/
theorem mem_enqueue
    (found : member ∈ Function.update queues key (queues key ++ [entry]) other) :
    member ∈ queues other ∨ (other = key ∧ member = entry) := by
  by_cases here : other = key
  · subst other
    rw [Function.update_self] at found
    exact (List.mem_append.mp found).imp_right fun last => ⟨rfl, List.mem_singleton.mp last⟩
  · rw [Function.update_of_ne here] at found
    exact .inl found

/-- An entry of a family after one queue has lost its head was there before. -/
theorem mem_dequeue (queue : queues key = entry :: rest)
    (found : member ∈ Function.update queues key rest other) : member ∈ queues other := by
  by_cases here : other = key
  · subst other
    rw [Function.update_self] at found
    rw [queue]
    exact List.mem_cons_of_mem _ found
  · rwa [Function.update_of_ne here] at found

end Chappe.Foundation
