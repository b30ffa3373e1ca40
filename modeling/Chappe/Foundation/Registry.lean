/-
This file defines registries, which list the members of each key and drop a key that has none.
-/

import Mathlib.Data.Finmap
import Mathlib.Data.Finset.Union

namespace Chappe.Foundation

/-- A registry has a set of members for each of finitely many keys. -/
abbrev Registry (Key Member : Type*) := Finmap fun _ : Key => Finset Member

variable {Key Member : Type*} [DecidableEq Key]

def Registry.members (registry : Registry Key Member) (key : Key) : Finset Member :=
  (registry.lookup key).getD ∅

/-- A key with a member is listed. -/
theorem Registry.mem_keys {registry : Registry Key Member} {key : Key} {member : Member}
    (listed : member ∈ registry.members key) : key ∈ registry.keys := by
  rw [Finmap.mem_keys]
  by_contra missing
  rw [Registry.members, Finmap.lookup_eq_none.mpr missing] at listed
  exact absurd listed (Finset.notMem_empty member)

variable [DecidableEq Member]

def Registry.add (registry : Registry Key Member) (key : Key) (member : Member) :
    Registry Key Member :=
  registry.insert key (insert member (registry.members key))

def Registry.remove (registry : Registry Key Member) (key : Key) (member : Member) :
    Registry Key Member :=
  match registry.lookup key with
  | none => registry
  | some members =>
      if members.erase member = ∅ then registry.erase key
      else registry.insert key (members.erase member)

/-- The member is removed from the keys one after the other. -/
def Registry.removeAll (registry : Registry Key Member) (keys : List Key) (member : Member) :
    Registry Key Member :=
  keys.foldl (fun registry key => registry.remove key member) registry

/-- The members of every key that passes the test. -/
def Registry.matching (registry : Registry Key Member) (test : Key → Bool) : Finset Member :=
  (registry.keys.filter fun key => test key = true).biUnion registry.members

theorem Registry.mem_add {registry : Registry Key Member} {key other : Key}
    {member found : Member} :
    found ∈ (registry.add key member).members other ↔
      found ∈ registry.members other ∨ (other = key ∧ found = member) := by
  unfold Registry.add
  by_cases same : other = key
  · subst other
    simp [Registry.members, Finmap.lookup_insert, or_comm]
  · simp [Registry.members, Finmap.lookup_insert_of_ne _ same, same]

theorem Registry.mem_remove {registry : Registry Key Member} {key other : Key}
    {member found : Member} :
    found ∈ (registry.remove key member).members other ↔
      found ∈ registry.members other ∧ ¬ (other = key ∧ found = member) := by
  unfold Registry.remove
  cases listed : registry.lookup key with
  | none =>
      by_cases same : other = key
      · subst other
        simp [Registry.members, listed]
      · simp [same]
  | some members =>
      dsimp only
      by_cases same : other = key
      · subst other
        split
        · rename_i empty
          have gone : found ∉ members.erase member := by simp [empty]
          simp only [Registry.members, Finmap.lookup_erase, listed, Option.getD_none,
            Option.getD_some, Finset.notMem_empty, false_iff]
          rw [Finset.mem_erase] at gone
          tauto
        · simp [Registry.members, Finmap.lookup_insert, listed, and_comm]
      · split
        · simp [Registry.members, Finmap.lookup_erase_ne same, same]
        · simp [Registry.members, Finmap.lookup_insert_of_ne _ same, same]

theorem Registry.mem_removeAll {keys : List Key} {registry : Registry Key Member} {other : Key}
    {member found : Member} :
    found ∈ (registry.removeAll keys member).members other ↔
      found ∈ registry.members other ∧ ¬ (other ∈ keys ∧ found = member) := by
  induction keys generalizing registry with
  | nil => simp [Registry.removeAll]
  | cons key rest ih =>
      have next : registry.removeAll (key :: rest) member =
          (registry.remove key member).removeAll rest member := rfl
      rw [next, ih, Registry.mem_remove, List.mem_cons]
      tauto

/-- Every key of the registry is admitted and has a member. -/
structure Registry.Populated (admitted : Key → Prop) (registry : Registry Key Member) : Prop where
  admitted : ∀ key ∈ registry.keys, admitted key
  occupied : ∀ key, registry.lookup key ≠ some ∅

variable {admitted : Key → Prop}

omit [DecidableEq Member] in
theorem Registry.Populated.empty : Registry.Populated admitted (∅ : Registry Key Member) :=
  ⟨fun key listed => absurd (Finmap.mem_keys.mp listed) Finmap.notMem_empty,
    fun key listed => by simp at listed⟩

omit [DecidableEq Member] in
theorem Registry.Populated.insert {registry : Registry Key Member}
    (populated : registry.Populated admitted) {key : Key} (allowed : admitted key)
    {members : Finset Member} (some : members ≠ ∅) :
    Registry.Populated admitted (registry.insert key members) := by
  constructor
  · intro other listed
    rw [Finmap.mem_keys, Finmap.mem_insert] at listed
    rcases listed with rfl | before
    · exact allowed
    · exact populated.admitted other (Finmap.mem_keys.mpr before)
  · intro other
    by_cases same : other = key
    · rw [same, Finmap.lookup_insert]
      exact fun empty => some (Option.some.inj empty)
    · rw [Finmap.lookup_insert_of_ne _ same]
      exact populated.occupied other

theorem Registry.Populated.add {registry : Registry Key Member}
    (populated : registry.Populated admitted) {key : Key} (allowed : admitted key)
    (member : Member) : Registry.Populated admitted (registry.add key member) :=
  populated.insert allowed (Finset.insert_ne_empty _ _)

theorem Registry.Populated.remove {registry : Registry Key Member}
    (populated : registry.Populated admitted) (key : Key) (member : Member) :
    Registry.Populated admitted (registry.remove key member) := by
  unfold Registry.remove
  cases listed : registry.lookup key with
  | none => exact populated
  | some members =>
      dsimp only
      split
      · constructor
        · intro other kept
          rw [Finmap.mem_keys, Finmap.mem_erase] at kept
          exact populated.admitted other (Finmap.mem_keys.mpr kept.2)
        · intro other
          by_cases same : other = key
          · rw [same, Finmap.lookup_erase]
            nofun
          · rw [Finmap.lookup_erase_ne same]
            exact populated.occupied other
      · rename_i some
        have allowed : admitted key := by
          apply populated.admitted
          rw [Finmap.mem_keys, ← Finmap.lookup_isSome, listed]
          rfl
        exact populated.insert allowed some

theorem Registry.Populated.removeAll {keys : List Key} {registry : Registry Key Member}
    (populated : registry.Populated admitted) (member : Member) :
    Registry.Populated admitted (registry.removeAll keys member) := by
  induction keys generalizing registry with
  | nil => exact populated
  | cons key rest ih => exact ih (populated.remove key member)

/-- The index of a member has the keys under which the registry lists it. -/
def Registry.Agrees (registry : Registry Key Member) (index : Member → Finset Key)
    (member : Member) : Prop := ∀ key, member ∈ registry.members key ↔ key ∈ index member

def Registry.Lacks (registry : Registry Key Member) (member : Member) : Prop :=
  ∀ key, member ∉ registry.members key

/-- A registry and its index change for one member. -/
structure Registry.Changes (registry : Registry Key Member) (index : Member → Finset Key)
    (changed : Registry Key Member) (next : Member → Finset Key) (member : Member) : Prop where
  agrees : ∀ other, registry.Agrees index other → changed.Agrees next other
  lacks : ∀ other, other ≠ member → registry.Lacks other → changed.Lacks other

variable {registry : Registry Key Member} {index : Member → Finset Key}

omit [DecidableEq Member] in
theorem Registry.Changes.refl (member : Member) :
    registry.Changes index registry index member := ⟨fun _ => id, fun _ _ => id⟩

theorem Registry.Changes.add (key : Key) (member : Member) :
    registry.Changes index (registry.add key member)
      (Function.update index member (insert key (index member))) member := by
  constructor
  · intro other agrees found
    by_cases same : other = member
    · subst other
      rw [Registry.mem_add, agrees found, Function.update_self, Finset.mem_insert]
      tauto
    · rw [Registry.mem_add, agrees found, Function.update_of_ne same]
      tauto
  · intro other different lacks found
    rw [Registry.mem_add]
    exact not_or_intro (lacks found) fun both => different both.2

theorem Registry.Changes.remove (key : Key) (member : Member) :
    registry.Changes index (registry.remove key member)
      (Function.update index member ((index member).erase key)) member := by
  constructor
  · intro other agrees found
    by_cases same : other = member
    · subst other
      rw [Registry.mem_remove, agrees found, Function.update_self, Finset.mem_erase]
      tauto
    · rw [Registry.mem_remove, agrees found, Function.update_of_ne same]
      tauto
  · intro other _ lacks found
    rw [Registry.mem_remove]
    exact fun both => lacks found both.1

/-- No other member is touched by a removal. -/
theorem Registry.Agrees.removeAll_other {member other : Member}
    (agrees : registry.Agrees index other) (different : other ≠ member) (keys : List Key) :
    (registry.removeAll keys member).Agrees index other := by
  intro found
  rw [Registry.mem_removeAll, agrees found]
  tauto

theorem Registry.Lacks.removeAll {other : Member} (lacks : registry.Lacks other)
    (keys : List Key) (member : Member) : (registry.removeAll keys member).Lacks other := by
  intro found
  rw [Registry.mem_removeAll]
  exact fun both => lacks found both.1

theorem Registry.Agrees.removeAll {member : Member} (agrees : registry.Agrees index member)
    {keys : List Key} (all : ∀ key, key ∈ index member → key ∈ keys) :
    (registry.removeAll keys member).Lacks member := by
  intro found
  rw [Registry.mem_removeAll, agrees found]
  exact fun both => both.2 ⟨all found both.1, rfl⟩

end Chappe.Foundation
