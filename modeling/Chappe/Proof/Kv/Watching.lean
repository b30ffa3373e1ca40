/-
This file proves which steps of the store change its watchers.
-/

import Chappe.Construction.Kv

namespace Chappe
open Foundation

variable {Client : Type}

/-- Two stores have the same watchers and the same watched keys of each client. -/
def SameWatches (first second : Store Client) : Prop :=
  first.watchers = second.watchers ∧ first.keys = second.keys

theorem SameWatches.watches {first second : Store Client} (same : SameWatches first second)
    (client : Client) (key : Bytes) : first.Watches client key ↔ second.Watches client key := by
  rw [Store.Watches, same.1]
  rfl

theorem SameWatches.trans {first second third : Store Client} (left : SameWatches first second)
    (right : SameWatches second third) : SameWatches first third :=
  ⟨left.1.trans right.1, left.2.trans right.2⟩

variable [DecidableEq Client] (store : Store Client) {key : Bytes}

theorem dropIfExpired_watching (name : Bytes) (now : Nat) :
    SameWatches (store.dropIfExpired name now).1 store := by
  unfold Store.dropIfExpired
  split <;> exact ⟨rfl, rfl⟩

theorem sweepKeys_watching (now : Nat) (keys : List Bytes) :
    ∀ store : Store Client, SameWatches (store.sweepKeys now keys).1 store := by
  induction keys with
  | nil => exact fun _ => ⟨rfl, rfl⟩
  | cons name rest ih =>
      intro store
      exact (ih _).trans (dropIfExpired_watching store name now)

theorem sweep_watching (now : Nat) (order : List Bytes) :
    SameWatches (store.sweep now order).1 store := sweepKeys_watching now _ store

/-- Only a get changes the watchers. -/
theorem answer_watching (later : Nat) (source : Client) (name : Bytes) (request : KvRequest) :
    SameWatches (store.answer later source name request).1 store ∨
      ∃ id, request = .get id ∧
        SameWatches (store.answer later source name request).1 (store.watch source name) := by
  cases request with
  | set value => exact .inl ⟨rfl, rfl⟩
  | setex ttlMs value => exact .inl ⟨rfl, rfl⟩
  | del => exact .inl ⟨rfl, rfl⟩
  | get id => exact .inr ⟨id, rfl, rfl, rfl⟩
  | incr id delta =>
      left
      simp only [Store.answer]
      split
      · split <;> exact ⟨rfl, rfl⟩
      · exact ⟨rfl, rfl⟩
  | setnx id ttlMs value =>
      left
      simp only [Store.answer]
      split <;> exact ⟨rfl, rfl⟩

theorem SameWatches.watch {first second : Store Client} (same : SameWatches first second)
    (client : Client) (name : Bytes) :
    SameWatches (first.watch client name) (second.watch client name) := by
  constructor
  · simp only [Store.watch, same.1]
  · simp only [Store.watch, same.2]

/-- A frame starts a watch only for its source and its name, and only when it is a get. -/
theorem handleFrame_watching (now later : Nat) (source : Client) (frame : Frame) :
    SameWatches (store.handleFrame now later source frame).1 store ∨
      ∃ id, KvRequest.ofFrame frame = some (.get id) ∧
        SameWatches (store.handleFrame now later source frame).1
          (store.watch source frame.name) := by
  unfold Store.handleFrame
  cases request : KvRequest.ofFrame frame with
  | none => exact .inl ⟨rfl, rfl⟩
  | some verb =>
      have dropped := dropIfExpired_watching store frame.name now
      simp only
      split
      · rcases answer_watching (store.dropIfExpired frame.name now).1 later source frame.name
            verb with same | ⟨id, rfl, started⟩
        · exact .inl (same.trans dropped)
        · exact .inr ⟨id, rfl, started.trans (dropped.watch source frame.name)⟩
      · rcases answer_watching store later source frame.name verb with
          same | ⟨id, rfl, started⟩
        · exact .inl same
        · exact .inr ⟨id, rfl, started⟩

theorem watch_watches {store : Store Client} {source client : Client} {name : Bytes} :
    (store.watch source name).Watches client key ↔
      store.Watches client key ∨ (client = source ∧ key = name) := by
  simp only [Store.Watches, Store.watch]
  by_cases here : key = name
  · subst key
    rw [Table.insert_self, Option.getD_some, Finset.mem_insert]
    tauto
  · rw [Table.insert_of_ne _ _ here]
    tauto

theorem removeClient_watches (client other : Client) (key : Bytes) :
    (store.removeClient client).Watches other key ↔
      store.Watches other key ∧ ¬ (key ∈ store.keys client ∧ other = client) := by
  simp only [Store.Watches, Store.removeClient]
  split
  · rename_i watched
    simp only [watched, true_and]
    cases store.watchers key with
    | none => simp
    | some clients =>
        by_cases last : clients.erase client = ∅
        · have gone : other ∉ clients.erase client := by simp [last]
          rw [Finset.mem_erase] at gone
          simp only [last, if_true, Option.getD_none, Finset.notMem_empty, false_iff,
            Option.getD_some]
          tauto
        · simp only [last, if_false, Option.getD_some, Finset.mem_erase]
          tauto
  · rename_i unwatched
    simp only [unwatched, false_and, not_false_eq_true, and_true]

end Chappe
