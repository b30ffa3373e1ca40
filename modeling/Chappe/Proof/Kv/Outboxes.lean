/-
This file proves which frames a step of the store writes, and to whom.
-/

import Chappe.Proof.Kv.KeyLocality
import Chappe.Proof.Kv.Watching

namespace Chappe
open Foundation

variable {Client : Type}

/-- The request identifier that an answer repeats. -/
def KvRequest.id : KvRequest → Option Nat
  | .get id | .incr id _ | .setnx id _ _ => some id
  | .set _ | .setex _ _ | .del => none

/-- A frame tells a watcher of the key about a change. -/
def Pushed (store : Store Client) (key : Bytes) (client : Client) (frame : Frame) : Prop :=
  store.Watches client key ∧ ((∃ value, frame = Msg.kvUpdate.frame key value) ∨
    frame = Msg.kvDel.frame key [])

/-- A frame answers the request of its receiver. -/
def Answered (key : Bytes) (request : KvRequest) (frame : Frame) : Prop :=
  ∃ id, request.id = some id ∧ ((∃ found, request = .get id ∧ frame = kvReply key id found) ∨
    ∃ ok value, frame = kvResult key id ok value)

variable {store : Store Client} {key : Bytes}

theorem Pushed.of_same {changed : Store Client} {client : Client} {frame : Frame}
    (pushed : Pushed changed key client frame) (same : SameWatches changed store) :
    Pushed store key client frame :=
  ⟨(same.watches client key).mp pushed.1, pushed.2⟩

variable [DecidableEq Client]

theorem pushKvUpdate_pushed {client : Client} {value : Bytes} {frame : Frame}
    (member : frame ∈ store.pushKvUpdate key value client) : Pushed store key client frame :=
  ⟨(mem_fanOut member).2, .inl ⟨value, (mem_fanOut member).1⟩⟩

theorem pushKvDel_pushed {client : Client} {frame : Frame}
    (member : frame ∈ store.pushKvDel key client) : Pushed store key client frame :=
  ⟨(mem_fanOut member).2, .inr (mem_fanOut member).1⟩

theorem dropIfExpired_frames {now : Nat} {client : Client} {frame : Frame}
    (member : frame ∈ (store.dropIfExpired key now).2 client) : Pushed store key client frame := by
  unfold Store.dropIfExpired at member
  split at member
  · exact pushKvDel_pushed member
  · cases member

theorem bump_frames {source client : Client} {id current delta : Nat} {frame : Frame}
    (member : frame ∈ (store.bump source key id current delta).2 client) :
    Pushed store key client frame ∨
      (client = source ∧ ∃ ok value, frame = kvResult key id ok value) := by
  rcases List.mem_append.mp member with pushed | answered
  · exact .inl (pushKvUpdate_pushed pushed)
  · exact .inr ⟨(mem_sendTo answered).2, true, _, (mem_sendTo answered).1⟩

theorem answer_frames {later : Nat} {source client : Client} {request : KvRequest} {frame : Frame}
    (member : frame ∈ (store.answer later source key request).2 client) :
    Pushed store key client frame ∨ (client = source ∧ Answered key request frame) := by
  cases request with
  | set value => exact .inl (pushKvUpdate_pushed member)
  | setex ttlMs value => exact .inl (pushKvUpdate_pushed member)
  | del => exact .inl (pushKvDel_pushed member)
  | get id =>
      exact .inr ⟨(mem_sendTo member).2, id, rfl, .inl ⟨store.kv key, rfl, (mem_sendTo member).1⟩⟩
  | incr id delta =>
      have bumped {current : Nat}
          (sent : frame ∈ (store.bump source key id current delta).2 client) :
          Pushed store key client frame ∨
            (client = source ∧ Answered key (.incr id delta) frame) :=
        (bump_frames sent).imp_right fun answered => ⟨answered.1, id, rfl, .inr answered.2⟩
      simp only [Store.answer] at member
      split at member
      · split at member
        · exact .inr ⟨(mem_sendTo member).2, id, rfl, .inr ⟨false, [], (mem_sendTo member).1⟩⟩
        · exact bumped member
      · exact bumped member
  | setnx id ttlMs value =>
      simp only [Store.answer] at member
      split at member
      · rcases List.mem_append.mp member with pushed | answered
        · exact .inl (pushKvUpdate_pushed pushed)
        · exact .inr ⟨(mem_sendTo answered).2, id, rfl,
            .inr ⟨true, [], (mem_sendTo answered).1⟩⟩
      · exact .inr ⟨(mem_sendTo member).2, id, rfl, .inr ⟨false, [], (mem_sendTo member).1⟩⟩

/-- A request pushes changes of its key to the watchers and answers its source. -/
theorem handleFrame_frames {now later : Nat} {source client : Client} {frame sent : Frame}
    (member : sent ∈ (store.handleFrame now later source frame).2 client) :
    Pushed store frame.name client sent ∨
      (client = source ∧ ∃ request, KvRequest.ofFrame frame = some request ∧
        Answered frame.name request sent) := by
  unfold Store.handleFrame at member
  cases read : KvRequest.ofFrame frame with
  | none =>
      simp only [read] at member
      cases member
  | some request =>
      simp only [read] at member
      split at member
      · rcases List.mem_append.mp member with dropped | answered
        · exact .inl (dropIfExpired_frames dropped)
        · rcases answer_frames answered with pushed | ⟨mine, answer⟩
          · exact .inl (pushed.of_same (dropIfExpired_watching store frame.name now))
          · exact .inr ⟨mine, request, rfl, answer⟩
      · rcases answer_frames member with pushed | ⟨mine, answer⟩
        · exact .inl pushed
        · exact .inr ⟨mine, request, rfl, answer⟩

theorem sweepKeys_frames {now : Nat} {client : Client} {frame : Frame} (keys : List Bytes) :
    ∀ {store : Store Client}, frame ∈ (store.sweepKeys now keys).2 client →
      ∃ key, Pushed store key client frame := by
  induction keys with
  | nil =>
      intro store member
      cases member
  | cons key rest ih =>
      intro store member
      rcases List.mem_append.mp member with dropped | swept
      · exact ⟨key, dropIfExpired_frames dropped⟩
      · obtain ⟨other, pushed⟩ := ih swept
        exact ⟨other, pushed.of_same (dropIfExpired_watching store key now)⟩

theorem sweep_frames {now : Nat} {order : List Bytes} {client : Client} {frame : Frame}
    (member : frame ∈ (store.sweep now order).2 client) :
    ∃ key, Pushed store key client frame := sweepKeys_frames _ member

end Chappe
