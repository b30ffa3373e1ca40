/-
This file proves that the publishes of a user pass along a route of links in order.
-/

import Chappe.Foundation.Route
import Chappe.Proof.Mesh.Projection

namespace Chappe
open Foundation

variable {Device User Client : Type}

/-- The frames whose marks lead to a publish, with the number of this publish. -/
def tracedBy (resolve : Option (Client × Nat) → Option Nat)
    (entries : List (Frame × Option (Client × Nat))) : List (Frame × Nat) :=
  entries.filterMap fun entry => (resolve entry.2).map fun number => (entry.1, number)

theorem tracedBy_append (resolve : Option (Client × Nat) → Option Nat)
    (first second : List (Frame × Option (Client × Nat))) :
    tracedBy resolve (first ++ second) = tracedBy resolve first ++ tracedBy resolve second :=
  List.filterMap_append

theorem tracedBy_nothing {resolve : Option (Client × Nat) → Option Nat}
    {entries : List (Frame × Option (Client × Nat))}
    (nothing : ∀ entry ∈ entries, resolve entry.2 = none) : tracedBy resolve entries = [] := by
  rw [tracedBy, List.filterMap_eq_nil_iff]
  intro entry member
  rw [nothing entry member]
  rfl

theorem forwarded_cons (admits : Bytes → Bool) (base : Nat) (frame : Frame) (rest : List Frame) :
    forwarded admits base (frame :: rest) =
      (if admits frame.name then [(Msg.publish.frame frame.name frame.payload, base + 1)]
        else []) ++ forwarded admits (base + 1) rest := by
  rw [forwarded, List.zipIdx_cons, List.filterMap_cons]
  cases admitted : admits frame.name with
  | true => rfl
  | false => rfl

/-- What is forwarded of the publishes of a link leads to what these come from. -/
theorem forwarded_traced {admits : Bytes → Bool} {last : Nat}
    {resolve : Option (Client × Nat) → Option Nat}
    {entries : List (Frame × Option (Client × Nat))}
    (plain : ∀ entry ∈ entries, entry.1.msg = some .publish) {look : Nat → Option (Client × Nat)}
    (agrees : ∀ place entry, entries[place]? = some entry → look (last + 1 + place) = entry.2) :
    ((forwarded admits last (entries.map Prod.fst)).filterMap fun entry =>
      (resolve (look entry.2)).map fun number => (entry.1, number)) =
      (tracedBy resolve entries).filter fun entry => admits entry.1.name := by
  induction entries generalizing last with
  | nil => rfl
  | cons entry rest ih =>
      have first : look (last + 1) = entry.2 := agrees 0 entry rfl
      have later : ∀ place found, rest[place]? = some found →
          look (last + 1 + 1 + place) = found.2 := by
        intro place found there
        rw [Nat.add_right_comm, Nat.add_assoc]
        exact agrees (place + 1) found there
      have next := ih (fun found member => plain found (List.mem_cons_of_mem _ member)) later
      have frame := frame_of_msg (plain entry List.mem_cons_self)
      have single : entry :: rest = [entry] ++ rest := rfl
      rw [List.map_cons, forwarded_cons, List.filterMap_append, next, single, tracedBy_append,
        List.filter_append]
      congr 1
      rw [tracedBy, List.filterMap_cons, List.filterMap_nil]
      cases admitted : admits entry.1.name with
      | true =>
          rw [if_pos rfl, frame, List.filterMap_cons, List.filterMap_nil]
          dsimp only
          rw [first]
          cases resolve entry.2 with
          | none => rfl
          | some number => exact (List.filter_singleton.trans (by rw [admitted]; rfl)).symm
      | false =>
          cases resolve entry.2 with
          | none => rfl
          | some number => exact (List.filter_singleton.trans (by rw [admitted]; rfl)).symm

variable [DecidableEq Client]

theorem since_eq_some {sender : Client} {base number : Nat} {mark : Option (Client × Nat)} :
    since sender base mark = some number ↔ mark = some (sender, number) ∧ base < number := by
  unfold since
  split
  · rename_i actor count
    rw [Option.ite_none_right_eq_some, Option.some.injEq, Option.some.injEq, Prod.mk.injEq]
    constructor
    · rintro ⟨⟨rfl, later⟩, rfl⟩
      exact ⟨⟨rfl, rfl⟩, later⟩
    · rintro ⟨⟨rfl, rfl⟩, later⟩
      exact ⟨⟨rfl, later⟩, rfl⟩
  · simp

/-- The first publishes of a link need not be looked at when they lead to nothing. -/
theorem routedBy_later {value : Nat → Option Nat} {me : Client} {last : Nat}
    (early : ∀ number ≤ last, value number = none)
    (entries : List (Frame × Option (Client × Nat))) :
    ((routedBy me 0 entries).filterMap fun entry =>
      (value entry.2).map fun number => (entry.1, number)) =
      (routedBy me last entries).filterMap fun entry =>
        (value entry.2).map fun number => (entry.1, number) := by
  unfold routedBy
  rw [List.filterMap_filterMap, List.filterMap_filterMap]
  apply List.filterMap_congr
  rintro ⟨frame, cause⟩ -
  rcases cause with none | ⟨actor, number⟩
  · rfl
  · by_cases mine : actor = me
    · by_cases after : last < number
      · simp [since, mine, after, Nat.zero_lt_of_lt after]
      · have nothing := early number (Nat.le_of_not_lt after)
        have before : since me last (some (actor, number)) = none := if_neg fun both => after both.2
        have found : since me 0 (some (actor, number)) =
            if 0 < number then some number else none := by
          simp [since, mine]
        dsimp only
        rw [before, found]
        split
        · simp [nothing]
        · rfl
    · simp [since, mine]

end Chappe
