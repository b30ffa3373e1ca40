/-
This file defines lookup tables and tables whose entries expire.
-/

import Mathlib.Logic.Function.Basic
import Mathlib.Data.Option.Basic

namespace Chappe.Foundation

/-- A lookup table has at most one value for each key. -/
abbrev Table (Key Value : Type*) := Key → Option Value

variable {Key Value : Type*} [DecidableEq Key]

def Table.empty : Table Key Value := fun _ => none

def Table.insert (table : Table Key Value) (key : Key) (value : Value) : Table Key Value :=
  Function.update table key (some value)

def Table.erase (table : Table Key Value) (key : Key) : Table Key Value :=
  Function.update table key none

omit [DecidableEq Key] in
@[simp] theorem Table.empty_apply (key : Key) : (Table.empty : Table Key Value) key = none := rfl

@[simp] theorem Table.insert_self (table : Table Key Value) (key : Key) (value : Value) :
    table.insert key value key = some value := Function.update_self ..

@[simp] theorem Table.erase_self (table : Table Key Value) (key : Key) :
    table.erase key key = none := Function.update_self ..

theorem Table.insert_of_ne (table : Table Key Value) {key other : Key} (value : Value)
    (different : other ≠ key) : table.insert key value other = table other :=
  Function.update_of_ne different ..

theorem Table.erase_of_ne (table : Table Key Value) {key other : Key} (different : other ≠ key) :
    table.erase key other = table other :=
  Function.update_of_ne different ..

theorem Table.of_erase {table : Table Key Value} {key other : Key} {value : Value}
    (found : table.erase key other = some value) : table other = some value := by
  by_cases same : other = key
  · rw [same, Table.erase_self] at found
    cases found
  · rwa [Table.erase_of_ne _ same] at found

/-- A timed table has an optional deadline with each value. -/
abbrev TimedTable (Key Value : Type*) := Table Key (Value × Option Nat)

/-- An entry is present until its deadline. -/
def present (now : Nat) (entry : Value × Option Nat) : Bool :=
  match entry.2 with
  | none => true
  | some deadline => now < deadline

/-- The entry of a key that is present at the given time. -/
def TimedTable.at (table : TimedTable Key Value) (now : Nat) (key : Key) :
    Option (Value × Option Nat) := (table key).filter (present now)

/-- An entry that is absent stays absent. -/
theorem present_mono {now later : Nat} (ordered : now ≤ later) (entry : Value × Option Nat)
    (here : present later entry = true) : present now entry = true := by
  unfold present at *
  split at here
  · rfl
  · simp only [decide_eq_true_eq] at *
    omega

omit [DecidableEq Key] in
theorem TimedTable.at_eq_none_mono {table : TimedTable Key Value} {now later : Nat}
    (ordered : now ≤ later) {key : Key} (absent : table.at now key = none) :
    table.at later key = none := by
  simp only [TimedTable.at, Option.filter_eq_none_iff] at *
  intro entry found here
  exact absent entry found (present_mono ordered entry here)

omit [DecidableEq Key] in
theorem TimedTable.at_of_some {table : TimedTable Key Value} {now : Nat} {key : Key}
    {entry : Value × Option Nat} (found : table key = some entry) :
    table.at now key = if present now entry then some entry else none := by
  rw [TimedTable.at, found]
  rfl

end Chappe.Foundation
