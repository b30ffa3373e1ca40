/-
This file proves that the writes of a thread under `kv_mu_` are for each client the frames that the
store sends to it.
-/

import Chappe.Construction.Server

namespace Chappe.Server
open Foundation

/-- The frames for one client. -/
def gather {Client : Type} [DecidableEq Client] (client : Client)
    (writes : List (Client × Frame)) : List Frame :=
  (writes.filter fun write => write.1 = client).map Prod.snd

variable {Client : Type} [LinearOrder Client] (store : Store Client) (client source : Client)

@[simp] theorem gather_append (first second : List (Client × Frame)) :
    gather client (first ++ second) = gather client first ++ gather client second := by
  rw [gather, List.filter_append, List.map_append]
  rfl

@[simp] theorem gather_nil : gather client [] = [] := rfl

/-- A single write is a `send_to`. -/
@[simp] theorem gather_single (frame : Frame) :
    gather client [(source, frame)] = Outbox.sendTo source frame client := by
  simp only [gather, List.filter_singleton, Outbox.sendTo]
  by_cases same : source = client
  · simp [same]
  · simp [same, Ne.symm same]

theorem gather_each (frame : Frame) {clients : List Client} (distinct : clients.Nodup) :
    gather client (clients.map (·, frame)) = if client ∈ clients then [frame] else [] := by
  induction clients with
  | nil => rfl
  | cons first rest ih =>
      obtain ⟨new, distinct⟩ := List.nodup_cons.mp distinct
      have head : gather client ((first, frame) :: rest.map (·, frame)) =
          gather client [(first, frame)] ++ gather client (rest.map (·, frame)) :=
        gather_append client [(first, frame)] _
      rw [List.map_cons, head, ih distinct, gather_single, Outbox.sendTo]
      by_cases same : client = first
      · subst first
        simp [new]
      · simp [same]

/-- The pushes reach each watcher once. -/
@[simp] theorem gather_pushes (key : Bytes) (frame : Frame) :
    gather client (pushes store key frame) = Outbox.fanOut (store.watchers key) frame client := by
  rw [pushes, gather_each client frame (Finset.sort_nodup ..)]
  simp only [Finset.mem_sort, Outbox.fanOut]

theorem gather_dropWrites (key : Bytes) (now : Nat) :
    gather client (dropWrites store key now) = (store.dropIfExpired key now).2 client := by
  unfold dropWrites Store.dropIfExpired
  split
  · exact gather_pushes store client key _
  · rfl

theorem gather_answerWrites (later : Nat) (key : Bytes) (request : KvRequest) :
    gather client (answerWrites store source key request) =
      (store.answer later source key request).2 client := by
  cases request with
  | set value => exact gather_pushes store client key _
  | setex ttlMs value => exact gather_pushes store client key _
  | del => exact gather_pushes store client key _
  | get id => exact gather_single client source _
  | incr id delta =>
      simp only [answerWrites, Store.answer]
      cases store.kv key with
      | none => simp [Store.bump, Outbox.then, Store.pushKvUpdate]
      | some value =>
          dsimp only
          split
          · exact gather_single client source _
          · simp [Store.bump, Outbox.then, Store.pushKvUpdate]
  | setnx id ttlMs value =>
      simp only [answerWrites, Store.answer]
      cases store.kv key with
      | none => simp [Store.store, Outbox.then, Store.pushKvUpdate]
      | some value => exact gather_single client source _

theorem gather_requestWrites (now later : Nat) (frame : Frame) :
    gather client (requestWrites store now source frame) =
      (store.handleFrame now later source frame).2 client := by
  unfold requestWrites Store.handleFrame
  cases KvRequest.ofFrame frame with
  | none => rfl
  | some request =>
      dsimp only
      split
      · rw [gather_append, gather_dropWrites, gather_answerWrites]
        rfl
      · exact gather_answerWrites store client source later frame.name request

theorem gather_sweepWrites (now : Nat) (keys : List Bytes) : ∀ store : Store Client,
    gather client (sweepWrites store now keys) = (store.sweepKeys now keys).2 client := by
  induction keys with
  | nil => exact fun _ => rfl
  | cons key rest ih =>
      intro store
      rw [sweepWrites, gather_append, gather_dropWrites, ih]
      rfl

end Chappe.Server
