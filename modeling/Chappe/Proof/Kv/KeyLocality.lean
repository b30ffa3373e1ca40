/-
This file proves that the entry of a key depends only on that entry and on the frames of the key.
-/

import Chappe.Construction.Kv

namespace Chappe
open Foundation

variable {Client : Type}

/-- Two stores have the same entry for a key. -/
structure AgreeAt (key : Bytes) (first second : Store Client) : Prop where
  kv : first.kv key = second.kv key
  expires : first.expires key = second.expires key

theorem AgreeAt.refl (key : Bytes) (store : Store Client) : AgreeAt key store store := ⟨rfl, rfl⟩

theorem AgreeAt.trans {key : Bytes} {first second third : Store Client}
    (left : AgreeAt key first second) (right : AgreeAt key second third) :
    AgreeAt key first third :=
  ⟨left.kv.trans right.kv, left.expires.trans right.expires⟩

theorem AgreeAt.symm {key : Bytes} {first second : Store Client}
    (same : AgreeAt key first second) : AgreeAt key second first :=
  ⟨same.kv.symm, same.expires.symm⟩

theorem AgreeAt.expired {key : Bytes} {first second : Store Client}
    (same : AgreeAt key first second) (now : Nat) :
    first.expired key now = second.expired key now := by
  simp only [Store.expired, same.expires]

variable [DecidableEq Client] {key name : Bytes} {store first second : Store Client}

theorem store_other (different : key ≠ name) (value : Bytes) (ttlMs now : Nat) :
    AgreeAt key (store.store name value ttlMs now).1 store := by
  refine ⟨Table.insert_of_ne _ _ different, ?_⟩
  simp only [Store.store]
  split
  · exact Table.insert_of_ne _ _ different
  · exact Table.erase_of_ne _ different

theorem dropKey_other (different : key ≠ name) : AgreeAt key (store.dropKey name).1 store :=
  ⟨Table.erase_of_ne _ different, Table.erase_of_ne _ different⟩

theorem dropIfExpired_other (different : key ≠ name) (now : Nat) :
    AgreeAt key (store.dropIfExpired name now).1 store := by
  unfold Store.dropIfExpired
  split
  · exact dropKey_other different
  · exact AgreeAt.refl key store

theorem answer_other (different : key ≠ name) (later : Nat) (client : Client)
    (request : KvRequest) : AgreeAt key (store.answer later client name request).1 store := by
  cases request with
  | set value => exact store_other different value 0 later
  | setex ttlMs value => exact store_other different value ttlMs later
  | del => exact dropKey_other different
  | get id => exact ⟨rfl, rfl⟩
  | incr id delta =>
      simp only [Store.answer]
      split
      · split
        · exact AgreeAt.refl key store
        · exact ⟨Table.insert_of_ne _ _ different, rfl⟩
      · exact ⟨Table.insert_of_ne _ _ different, rfl⟩
  | setnx id ttlMs value =>
      simp only [Store.answer]
      split
      · exact store_other different value ttlMs later
      · exact AgreeAt.refl key store

/-- A frame about another key leaves the entry of a key. -/
theorem handleFrame_other {frame : Frame} (different : frame.name ≠ key) (now later : Nat)
    (client : Client) : AgreeAt key (store.handleFrame now later client frame).1 store := by
  unfold Store.handleFrame
  split
  · exact AgreeAt.refl key store
  · split
    · exact (answer_other (Ne.symm different) later client _).trans
        (dropIfExpired_other (Ne.symm different) now)
    · exact answer_other (Ne.symm different) later client _

theorem store_agree (key value : Bytes) (ttlMs now : Nat) :
    AgreeAt key (first.store key value ttlMs now).1 (second.store key value ttlMs now).1 := by
  refine ⟨?_, ?_⟩
  · simp [Store.store]
  · simp only [Store.store]
    split <;> simp

theorem dropIfExpired_agree (same : AgreeAt key first second) (now : Nat) :
    AgreeAt key (first.dropIfExpired key now).1 (second.dropIfExpired key now).1 := by
  simp only [Store.dropIfExpired, same.expired now]
  split
  · exact ⟨by simp [Store.dropKey], by simp [Store.dropKey]⟩
  · exact same

theorem answer_agree (same : AgreeAt key first second) (later : Nat) (client : Client)
    (request : KvRequest) :
    AgreeAt key (first.answer later client key request).1
      (second.answer later client key request).1 := by
  cases request with
  | set value => exact store_agree key value 0 later
  | setex ttlMs value => exact store_agree key value ttlMs later
  | del => exact ⟨by simp [Store.answer, Store.dropKey], by simp [Store.answer, Store.dropKey]⟩
  | get id => exact ⟨same.kv, same.expires⟩
  | incr id delta =>
      simp only [Store.answer, same.kv]
      split
      · split
        · exact same
        · exact ⟨by simp [Store.bump], same.expires⟩
      · exact ⟨by simp [Store.bump], same.expires⟩
  | setnx id ttlMs value =>
      simp only [Store.answer, same.kv]
      split
      · exact store_agree key value ttlMs later
      · exact same

/-- Two stores that agree on a key agree on it after the same frame. -/
theorem handleFrame_agree (same : AgreeAt key first second) (now later : Nat) (client : Client)
    (frame : Frame) :
    AgreeAt key (first.handleFrame now later client frame).1
      (second.handleFrame now later client frame).1 := by
  by_cases here : frame.name = key
  · subst key
    unfold Store.handleFrame
    split
    · exact same
    · split
      · exact answer_agree (dropIfExpired_agree same now) later client _
      · exact answer_agree same later client _
  · exact (handleFrame_other here now later client).trans
      (same.trans (handleFrame_other here now later client).symm)

/-- A sweep drops a key that is listed and expired, and leaves every other key. -/
theorem sweepKeys_at (key : Bytes) (now : Nat) (keys : List Bytes) :
    ∀ store : Store Client, AgreeAt key (store.sweepKeys now keys).1
      (if key ∈ keys then (store.dropIfExpired key now).1 else store) := by
  induction keys with
  | nil =>
      intro store
      exact AgreeAt.refl key store
  | cons name rest ih =>
      intro store
      refine (ih (store.dropIfExpired name now).1).trans ?_
      by_cases here : key = name
      · subst name
        rw [if_pos List.mem_cons_self]
        split
        · have live : (store.dropIfExpired key now).1.expired key now = false := by
            unfold Store.dropIfExpired
            split
            · simp [Store.dropKey, Store.expired]
            · rename_i live
              simpa using live
          simp only [Store.dropIfExpired, live] at *
          exact ⟨by simp, by simp⟩
        · exact AgreeAt.refl key _
      · have other : AgreeAt key (store.dropIfExpired name now).1 store :=
          dropIfExpired_other here now
        simp only [List.mem_cons, here, false_or]
        split
        · exact dropIfExpired_agree other now
        · exact other

theorem sweep_at (key : Bytes) (now : Nat) (order : List Bytes) (store : Store Client) :
    AgreeAt key (store.sweep now order).1
      (if key ∈ order ∧ store.expired key now = true then (store.dropIfExpired key now).1
        else store) := by
  have listed := sweepKeys_at key now (order.filter fun name => store.expired name now) store
  simp only [List.mem_filter] at listed
  exact listed

theorem sweep_agree (same : AgreeAt key first second) (now : Nat) (order : List Bytes) :
    AgreeAt key (first.sweep now order).1 (second.sweep now order).1 := by
  refine (sweep_at key now order first).trans (.trans ?_ (sweep_at key now order second).symm)
  rw [same.expired now]
  split
  · exact dropIfExpired_agree same now
  · exact same

theorem mem_fanOut {clients : Option (Finset Client)} {frame pushed : Frame} {client : Client}
    (member : pushed ∈ Outbox.fanOut clients frame client) :
    pushed = frame ∧ client ∈ clients.getD ∅ := by
  simp only [Outbox.fanOut] at member
  split at member
  · exact ⟨List.mem_singleton.mp member, ‹_›⟩
  · cases member

theorem mem_sendTo {receiver client : Client} {frame sent : Frame}
    (member : sent ∈ Outbox.sendTo receiver frame client) : sent = frame ∧ client = receiver := by
  simp only [Outbox.sendTo] at member
  split at member
  · exact ⟨List.mem_singleton.mp member, ‹_›⟩
  · cases member

theorem dropIfExpired_name {now : Nat} {client : Client} {frame : Frame}
    (member : frame ∈ (store.dropIfExpired name now).2 client) : frame.name = name := by
  unfold Store.dropIfExpired at member
  split at member
  · rw [(mem_fanOut member).1]
    rfl
  · cases member

theorem answer_name {later : Nat} {source client : Client} {request : KvRequest} {frame : Frame}
    (member : frame ∈ (store.answer later source name request).2 client) : frame.name = name := by
  cases request with
  | set value => rw [(mem_fanOut member).1]; rfl
  | setex ttlMs value => rw [(mem_fanOut member).1]; rfl
  | del => rw [(mem_fanOut member).1]; rfl
  | get id => rw [(mem_sendTo member).1]; rfl
  | incr id delta =>
      have bumped {current : Nat}
          (sent : frame ∈ (store.bump source name id current delta).2 client) :
          frame.name = name := by
        rcases List.mem_append.mp sent with pushed | answered
        · rw [(mem_fanOut pushed).1]
          rfl
        · rw [(mem_sendTo answered).1]
          rfl
      simp only [Store.answer] at member
      split at member
      · split at member
        · rw [(mem_sendTo member).1]
          rfl
        · exact bumped member
      · exact bumped member
  | setnx id ttlMs value =>
      simp only [Store.answer] at member
      split at member
      · rcases List.mem_append.mp member with pushed | answered
        · rw [(mem_fanOut pushed).1]
          rfl
        · rw [(mem_sendTo answered).1]
          rfl
      · rw [(mem_sendTo member).1]
        rfl

/-- Every frame of a request is about the key of the request. -/
theorem handleFrame_name {now later : Nat} {source client : Client} {frame sent : Frame}
    (member : sent ∈ (store.handleFrame now later source frame).2 client) :
    sent.name = frame.name := by
  unfold Store.handleFrame at member
  split at member
  · cases member
  · split at member
    · rcases List.mem_append.mp member with dropped | answered
      · exact dropIfExpired_name dropped
      · exact answer_name answered
    · exact answer_name member

/-- A sweep says nothing about a key without a deadline. -/
theorem sweepKeys_name {now : Nat} {client : Client} {frame : Frame} (keys : List Bytes) :
    ∀ {store : Store Client}, store.expires key = none →
      frame ∈ (store.sweepKeys now keys).2 client → frame.name ≠ key := by
  induction keys with
  | nil =>
      intro store _ member
      cases member
  | cons name rest ih =>
      intro store forever member
      rcases List.mem_append.mp member with dropped | later
      · intro here
        have same := (dropIfExpired_name dropped).symm.trans here
        subst name
        simp only [Store.dropIfExpired, Store.expired, forever] at dropped
        cases dropped
      · refine ih ?_ later
        by_cases here : key = name
        · subst name
          simp only [Store.dropIfExpired, Store.expired, forever]
          exact forever
        · exact (dropIfExpired_other here now).expires.trans forever

end Chappe
