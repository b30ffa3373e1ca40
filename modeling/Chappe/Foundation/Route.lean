/-
This file proves that a forest has at most one route without a turn between two places.
-/

import Mathlib.Combinatorics.SimpleGraph.Acyclic

namespace Chappe.Foundation

variable {Place : Type*}

/-- The route never goes back to the place that it has just come from. -/
def Onward : List Place → Prop
  | first :: second :: third :: rest => first ≠ third ∧ Onward (second :: third :: rest)
  | _ => True

variable {graph : SimpleGraph Place}

/-- A chain of neighbours is a walk, whose steps differ from one to the next if it goes on. -/
theorem exists_walk {rest : List Place} : ∀ {place : Place},
    (place :: rest).IsChain graph.Adj → ∃ home, ∃ walk : graph.Walk place home,
      walk.support = place :: rest ∧ (Onward (place :: rest) → walk.edges.IsChain (· ≠ ·)) := by
  induction rest with
  | nil =>
      intro place _
      exact ⟨place, .nil, rfl, fun _ => .nil⟩
  | cons near rest ih =>
      intro place linked
      obtain ⟨home, walk, support, edges⟩ := ih linked.tail
      refine ⟨home, .cons linked.rel walk, by rw [SimpleGraph.Walk.support_cons, support], ?_⟩
      intro onward
      cases walk with
      | nil => exact .singleton _
      | cons adjacent tail =>
          have first := tail.head_support
          rw [SimpleGraph.Walk.support_cons, List.cons.injEq] at support
          cases rest with
          | nil => exact absurd support.2 tail.support_ne_nil
          | cons next rest =>
              simp only [support.2, List.head_cons] at first
              subst first
              rw [SimpleGraph.Walk.edges_cons, SimpleGraph.Walk.edges_cons,
                List.isChain_cons_cons]
              refine ⟨?_, edges onward.2⟩
              intro same
              rcases Sym2.eq_iff.mp same with ⟨rfl, -⟩ | ⟨back, -⟩
              · exact linked.rel.ne rfl
              · exact onward.1 back

/-- A route that goes on is the only one to its end. -/
theorem route_unique (forest : graph.IsAcyclic) {place : Place} {first second : List Place}
    (linked : (place :: first).IsChain graph.Adj) (onward : Onward (place :: first))
    (also : (place :: second).IsChain graph.Adj) (straight : Onward (place :: second))
    (same : (place :: first).getLast? = (place :: second).getLast?) : first = second := by
  obtain ⟨home, walk, support, edges⟩ := exists_walk linked
  obtain ⟨goal, other, traced, steps⟩ := exists_walk also
  have arrives : home = goal := by
    rw [← support, ← traced, List.getLast?_eq_getLast_of_ne_nil walk.support_ne_nil,
      List.getLast?_eq_getLast_of_ne_nil other.support_ne_nil, walk.getLast_support,
      other.getLast_support] at same
    exact Option.some.inj same
  subst arrives
  have path := (forest.isPath_iff_isChain walk).mpr (edges onward)
  have alike := (forest.isPath_iff_isChain other).mpr (steps straight)
  have one : walk = other :=
    congrArg Subtype.val ((forest.subsingleton_path place home).elim ⟨walk, path⟩ ⟨other, alike⟩)
  rw [← one, support] at traced
  exact (List.cons.inj traced).2

/-- A route that meets each place once goes on. -/
theorem Onward.of_nodup : ∀ {places : List Place}, places.Nodup → Onward places
  | [], _ | [_], _ | [_, _], _ => True.intro
  | _ :: _ :: _ :: _, distinct =>
      ⟨by simp at distinct; exact distinct.1.2.1, of_nodup (List.nodup_cons.mp distinct).2⟩

end Chappe.Foundation
