/-
This file proves that an answer of the daemon has the identifier of its request.
-/

import Chappe.Construction.Requests
import Chappe.Proof.Kv.Outboxes

namespace Chappe
open Foundation

theorem answerId_of_take {first second : Bytes} (same : first.take 4 = second.take 4) :
    answerId first = answerId second := by
  rw [answerId, answerId, same]

/-- An answer repeats the identifier of its request. -/
theorem answerPayload_id {payload : Bytes} (long : 4 ≤ payload.length) (flag : Bool)
    (value : Bytes) :
    answerId (answerPayload (ofLittleEndian (payload.take 4)) flag value) = answerId payload := by
  have word : littleEndian 4 (ofLittleEndian (payload.take 4)) = payload.take 4 := by
    have whole := littleEndian_ofLittleEndian (payload.take 4)
    rwa [List.length_take, Nat.min_eq_left long] at whole
  apply answerId_of_take
  rw [answerPayload, appendU32, List.nil_append, word]
  exact List.take_left' (by rw [List.length_take, Nat.min_eq_left long])

theorem Request.frame_id (request : Request) (call : Nat) :
    answerId (request.frame call).payload = wireId call := by
  have word : (appendU32 [] (wireId call) ++ request.extra).take 4 = littleEndian 4 (wireId call) :=
    List.take_left' (littleEndian_length 4 _)
  rw [answerId, Request.frame, Msg.frame_payload, word, ofLittleEndian_littleEndian]
  exact Nat.mod_mod _ _

/-- The requests with an identifier start with it. -/
theorem ofFrame_id {frame : Frame} {request : KvRequest} {id : Nat}
    (read : KvRequest.ofFrame frame = some request) (asks : request.id = some id) :
    4 ≤ frame.payload.length ∧ id = ofLittleEndian (frame.payload.take 4) ∧
      ∃ msg, frame.msg = some msg ∧ msg.isPost = false := by
  unfold KvRequest.ofFrame at read
  split at read
  · cases read
    cases asks
  · split at read
    · cases read
    · cases read
      cases asks
  · cases read
    cases asks
  · rename_i kind
    split at read
    · cases read
    · cases read
      cases asks
      exact ⟨by omega, rfl, .kvGet, kind, rfl⟩
  · rename_i kind
    split at read
    · cases read
    · cases read
      cases asks
      exact ⟨by omega, rfl, .kvIncr, kind, rfl⟩
  · rename_i kind
    split at read
    · cases read
    · cases read
      cases asks
      exact ⟨by omega, rfl, .kvSetnx, kind, rfl⟩
  · cases read

theorem Frame.fulfills_id {frame : Frame} {answer : Nat × Option Bytes}
    (fulfills : frame.fulfills = some answer) : answer.1 = answerId frame.payload := by
  unfold Frame.fulfills at fulfills
  split at fulfills
  · split at fulfills <;> cases fulfills
    rfl
  · split at fulfills <;> cases fulfills
    rfl
  · split at fulfills <;> cases fulfills
    rfl
  · split at fulfills <;> cases fulfills
    rfl
  · cases fulfills

variable {Client : Type}

theorem Pushed.not_fulfills {store : Store Client} {key : Bytes} {client : Client} {frame : Frame}
    (pushed : Pushed store key client frame) : frame.fulfills = none := by
  rcases pushed.2 with ⟨value, rfl⟩ | rfl <;> simp [Frame.fulfills]

variable [DecidableEq Client]

/-- A frame that completes a request goes to the source of the request and has its identifier. -/
theorem handleFrame_fulfills {store : Store Client} {now later : Nat} {source client : Client}
    {frame sent : Frame} (member : sent ∈ (store.handleFrame now later source frame).2 client)
    {answer : Nat × Option Bytes} (fulfills : sent.fulfills = some answer) :
    client = source ∧ answer.1 = answerId frame.payload ∧
      ∃ msg, frame.msg = some msg ∧ msg.isPost = false := by
  rcases handleFrame_frames member with pushed | ⟨mine, request, read, id, asks, answered⟩
  · rw [pushed.not_fulfills] at fulfills
    cases fulfills
  · obtain ⟨long, rfl, kind⟩ := ofFrame_id read asks
    refine ⟨mine, ?_, kind⟩
    rcases answered with ⟨found, _, rfl⟩ | ⟨ok, value, rfl⟩
    · rw [Frame.fulfills_id fulfills]
      exact answerPayload_id long _ _
    · rw [Frame.fulfills_id fulfills]
      exact answerPayload_id long _ _

theorem answerFrame_fulfills {store : Store (Nat ⊕ Client)} {connection now later : Nat}
    {text : Bytes} {client : Nat ⊕ Client} {frame sent : Frame}
    (member : sent ∈ (answerFrame store connection now later text frame).2 client)
    {answer : Nat × Option Bytes} (fulfills : sent.fulfills = some answer) :
    client = .inl connection ∧ answer.1 = answerId frame.payload ∧
      ∃ msg, frame.msg = some msg ∧ msg.isPost = false := by
  unfold answerFrame at member
  split at member
  · rename_i kind
    obtain ⟨rfl, mine⟩ := mem_sendTo member
    refine ⟨mine, ?_, .ping, kind, rfl⟩
    rw [Frame.fulfills_id fulfills]
    rfl
  · rename_i kind
    dsimp only at member
    split at member
    · cases member
    · rename_i long
      obtain ⟨rfl, mine⟩ := mem_sendTo member
      refine ⟨mine, ?_, .info, kind, rfl⟩
      rw [Frame.fulfills_id fulfills]
      apply answerId_of_take
      exact List.take_left' (by rw [List.length_take]; omega)
  · exact handleFrame_fulfills member fulfills

end Chappe
