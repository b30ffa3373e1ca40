/-
This file proves what the threads of a daemon have still to write for its store, and that only the
thread that holds `kv_mu_` has anything to write for it.
-/

import Chappe.Proof.Server.Sequels
import Chappe.Proof.Server.Writes

namespace Chappe.Server
open Foundation

variable {Client : Type}

/-- The code has no frame of the store to write. -/
def Mute (code : Code Client) : Prop :=
  ∀ client frame, .write client frame ∈ code → frame.ofStore = false

@[simp] theorem mute_nil : Mute ([] : Code Client) :=
  fun _ _ member => absurd member List.not_mem_nil

@[simp] theorem mute_append {first second : Code Client} :
    Mute (first ++ second) ↔ Mute first ∧ Mute second := by
  simp only [Mute, List.mem_append]
  constructor
  · exact fun mute => ⟨fun client frame member => mute client frame (.inl member),
      fun client frame member => mute client frame (.inr member)⟩
  · rintro ⟨left, right⟩ client frame (member | member)
    · exact left client frame member
    · exact right client frame member

/-- An operation that is no write adds no frame. -/
theorem mute_cons {op : Op Client} (silent : ∀ client frame, op ≠ .write client frame)
    {code : Code Client} : Mute (op :: code) ↔ Mute code := by
  constructor
  · exact fun mute client frame member => mute client frame (List.mem_cons_of_mem _ member)
  · intro mute client frame member
    rcases List.mem_cons.mp member with here | later
    · exact absurd here.symm (silent client frame)
    · exact mute client frame later

theorem Mute.tail {op : Op Client} {code : Code Client} (mute : Mute (op :: code)) : Mute code :=
  fun client frame member => mute client frame (List.mem_cons_of_mem _ member)

theorem mute_of_noWrite {code : Code Client}
    (silent : ∀ op ∈ code, ∀ client frame, op ≠ .write client frame) : Mute code :=
  fun client frame member => absurd rfl (silent _ member client frame)

theorem mem_sends {op : Op Client} {writes : List (Client × Frame)} (member : op ∈ sends writes) :
    ∃ write ∈ writes, op = .lock (.send write.1) .exclusive ∨ op = .write write.1 write.2 ∨
      op = .unlock (.send write.1) := by
  obtain ⟨write, among, here⟩ := List.mem_flatMap.mp member
  exact ⟨write, among, by simpa using here⟩

theorem mute_sends {writes : List (Client × Frame)}
    (plain : ∀ write ∈ writes, write.2.ofStore = false) : Mute (sends writes) := by
  intro client frame member
  obtain ⟨write, among, same | same | same⟩ := mem_sends member
  · cases same
  · cases same
    exact plain write among
  · cases same

theorem mute_handleFrame (client : Client) (frame : Frame) : Mute (handleFrame client frame) := by
  unfold handleFrame
  split
  · split <;> exact mute_of_noWrite (by simp)
  · exact mute_of_noWrite (by simp)
  · exact mute_of_noWrite (by simp)
  · exact mute_of_noWrite (by simp)
  · exact mute_sends (by simp [Frame.ofStore])
  · split <;> exact mute_of_noWrite (by simp)
  · split <;> exact mute_of_noWrite (by simp)

theorem mute_afterInquiry (client : Client) (result : Report × Inquiry) :
    Mute (afterInquiry client result) := by
  obtain ⟨report, inquiry⟩ := result
  cases inquiry with
  | reply => exact mute_sends (by simp [Frame.ofStore])
  | clients | topics | retained | keys => exact mute_of_noWrite (by simp [afterInquiry])

/-- The frames of the store that a thread has still to write to a client. -/
def owed [DecidableEq Client] (client : Client) (code : Code Client) : List Frame :=
  code.filterMap fun
    | .write peer frame => if peer = client ∧ frame.ofStore then some frame else none
    | _ => none

theorem Mute.owed [DecidableEq Client] {code : Code Client} (mute : Mute code)
    (client : Client) : owed client code = [] := by
  rw [Server.owed, List.filterMap_eq_nil_iff]
  intro op member
  cases op with
  | write peer frame => simp [mute peer frame member]
  | _ => rfl

theorem owed_append [DecidableEq Client] (client : Client) (first second : Code Client) :
    owed client (first ++ second) = owed client first ++ owed client second :=
  List.filterMap_append

theorem owed_sends [LinearOrder Client] (client : Client) (writes : List (Client × Frame)) :
    owed client (sends writes) = (gather client writes).filter fun frame => frame.ofStore := by
  induction writes with
  | nil => rfl
  | cons write rest ih =>
      have head : sends (write :: rest) = sends [write] ++ sends rest := rfl
      have split : gather client (write :: rest) = gather client [write] ++ gather client rest :=
        gather_append client [write] rest
      rw [head, split, owed_append, List.filter_append, ih]
      congr 1
      by_cases same : write.1 = client
      · cases kind : write.2.ofStore with
        | true => simp [owed, sends, gather, same, kind]
        | false => simp [owed, sends, gather, same, kind]
      · simp [owed, sends, gather, same]

variable [LinearOrder Client] {config : Config} {choice : Choice} {state after : State Client}

omit [LinearOrder Client] in
theorem Bare.mute {code : Code Client} (bare : Bare code) : Mute code := by
  intro client frame member
  cases bare _ member

/-- The store runs by no other operation than its own. -/
theorem Goes.mute {op : Op Client} {ops : Code Client} {deeds : List (Deed Client)}
    (goes : Goes state op ops deeds) : Mute ops := by
  cases goes with
  | bare silent => exact silent.mute
  | takes =>
      exact mute_append.mpr ⟨mute_handleFrame _ _, mute_of_noWrite (by simp)⟩
  | replays client topic =>
      exact (mute_cons (by simp)).mpr (mute_sends (by simp [Frame.ofStore]))
  | routes client frame =>
      refine (mute_cons (by simp)).mpr (mute_sends fun write member => ?_)
      obtain ⟨target, -, rfl⟩ := List.mem_map.mp member
      simp [Frame.ofStore]
  | inquires client order report inquiry =>
      exact (mute_cons (by simp)).mpr (mute_afterInquiry client _)

end Chappe.Server
