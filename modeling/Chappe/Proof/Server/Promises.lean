/-
This file proves which answers the code of a thread of a daemon promises to each client.
-/

import Chappe.Proof.Kv.Outboxes
import Chappe.Proof.Server.Owed

namespace Chappe
open Foundation

variable {Client : Type}

theorem Pushed.not_answers {store : Store Client} {key : Bytes} {client : Client} {frame : Frame}
    (pushed : Pushed store key client frame) : frame.answers = none := by
  obtain ⟨-, ⟨value, rfl⟩ | rfl⟩ := pushed
  · simp [Frame.answers]
  · simp [Frame.answers]

theorem answerPayload_take (id : Nat) (flag : Bool) (value : Bytes) :
    (answerPayload id flag value).take 4 = littleEndian 4 id := by
  rw [answerPayload, appendU32, List.nil_append]
  exact List.take_left' (littleEndian_length 4 id)

theorem kvReply_answers (key : Bytes) (id : Nat) (found : Option Bytes) :
    (kvReply key id found).answers = some (.kvReply, key, littleEndian 4 id) := by
  simp [Frame.answers, kvReply, answerPayload_take]

theorem kvResult_answers (key : Bytes) (id : Nat) (ok : Bool) (value : Bytes) :
    (kvResult key id ok value).answers = some (.kvResult, key, littleEndian 4 id) := by
  simp [Frame.answers, kvResult, answerPayload_take]

variable [DecidableEq Client] (store : Store Client) (client : Client)

omit [DecidableEq Client] in
/-- Frames that are only pushed answer nothing. -/
theorem filterMap_pushed {frames : List Frame}
    (pushed : ∀ frame ∈ frames, ∃ store : Store Client, ∃ key, Pushed store key client frame) :
    frames.filterMap Frame.answers = [] := by
  rw [List.filterMap_eq_nil_iff]
  intro frame member
  obtain ⟨_, _, here⟩ := pushed frame member
  exact here.not_answers

theorem pushKvUpdate_tickets (key value : Bytes) :
    (store.pushKvUpdate key value client).filterMap Frame.answers = [] :=
  filterMap_pushed client fun _ member => ⟨store, key, pushKvUpdate_pushed member⟩

theorem pushKvDel_tickets (key : Bytes) :
    (store.pushKvDel key client).filterMap Frame.answers = [] :=
  filterMap_pushed client fun _ member => ⟨store, key, pushKvDel_pushed member⟩

theorem dropIfExpired_tickets (key : Bytes) (now : Nat) :
    ((store.dropIfExpired key now).2 client).filterMap Frame.answers = [] :=
  filterMap_pushed client fun _ member => ⟨store, key, dropIfExpired_frames member⟩

theorem sendTo_tickets {source : Client} {frame : Frame} {ticket : Ticket}
    (answers : frame.answers = some ticket) :
    (Outbox.sendTo source frame client).filterMap Frame.answers =
      if client = source then [ticket] else [] := by
  by_cases same : client = source <;> simp [Outbox.sendTo, same, answers]

/-- A request answers its source once, or not at all when it asks for no answer. -/
theorem answer_tickets (later : Nat) (source : Client) (key : Bytes) (request : KvRequest) :
    ((store.answer later source key request).2 client).filterMap Frame.answers =
      if client = source then (request.ticket key).toList else [] := by
  have bumped (id current delta : Nat) :
      ((store.bump source key id current delta).2 client).filterMap Frame.answers =
        if client = source then [(.kvResult, key, littleEndian 4 id)] else [] := by
    simp only [Store.bump, Outbox.then, List.filterMap_append, pushKvUpdate_tickets,
      List.nil_append]
    exact sendTo_tickets client (kvResult_answers ..)
  cases request with
  | set value =>
      rw [KvRequest.ticket, Option.toList_none, ite_self]
      exact pushKvUpdate_tickets store client key value
  | setex ttlMs value =>
      rw [KvRequest.ticket, Option.toList_none, ite_self]
      exact pushKvUpdate_tickets store client key value
  | del =>
      rw [KvRequest.ticket, Option.toList_none, ite_self]
      exact pushKvDel_tickets store client key
  | get id => exact sendTo_tickets client (kvReply_answers ..)
  | incr id delta =>
      simp only [Store.answer]
      split
      · split
        · exact sendTo_tickets client (kvResult_answers ..)
        · exact bumped id _ delta
      · exact bumped id 0 delta
  | setnx id ttlMs value =>
      simp only [Store.answer]
      split
      · simp only [Outbox.then, List.filterMap_append]
        rw [sendTo_tickets client (kvResult_answers ..)]
        change (store.pushKvUpdate key value client).filterMap Frame.answers ++ _ = _
        rw [pushKvUpdate_tickets]
        rfl
      · exact sendTo_tickets client (kvResult_answers ..)

theorem handleFrame_tickets (now later : Nat) (source : Client) (frame : Frame) :
    ((store.handleFrame now later source frame).2 client).filterMap Frame.answers =
      if client = source then ((KvRequest.ofFrame frame).bind fun request =>
        request.ticket frame.name).toList else [] := by
  unfold Store.handleFrame
  cases KvRequest.ofFrame frame with
  | none => simp [Outbox.silent]
  | some request =>
      dsimp only [Option.bind_some]
      split
      · simp only [Outbox.then, List.filterMap_append, dropIfExpired_tickets, List.nil_append]
        exact answer_tickets _ client later source frame.name request
      · exact answer_tickets store client later source frame.name request

end Chappe

namespace Chappe.Server
open Foundation

variable {Client : Type} [LinearOrder Client] {state : State Client} {deeds : List (Deed Client)}

/-- The answer to a client that an operation leads to. -/
def Op.promises (client : Client) : Op Client → Option Ticket
  | .write peer frame => if peer = client then frame.answers else none
  | .request source frame =>
      if source = client then
        (KvRequest.ofFrame frame).bind fun request => request.ticket frame.name
      else none
  | .inquire source report _ => if source = client then some (.info, [], report.id) else none
  | _ => none

/-- The answers to a client that the code of a thread leads to. -/
def promised (client : Client) (code : Code Client) : List Ticket :=
  code.filterMap fun op => op.promises client

theorem promised_append (client : Client) (first second : Code Client) :
    promised client (first ++ second) = promised client first ++ promised client second :=
  List.filterMap_append

theorem promised_cons (client : Client) (op : Op Client) (rest : Code Client) :
    promised client (op :: rest) = (op.promises client).toList ++ promised client rest := by
  rw [promised, List.filterMap_cons]
  cases op.promises client <;> rfl

theorem promised_of_none {code : Code Client} {client : Client}
    (none : ∀ op ∈ code, op.promises client = none) : promised client code = [] :=
  List.filterMap_eq_nil_iff.mpr none

theorem Bare.promised {code : Code Client} (bare : Bare code) (client : Client) :
    promised client code = [] := by
  refine promised_of_none fun op member => ?_
  have quiet := bare op member
  cases op with
  | write _ _ | request _ _ | inquire _ _ _ => cases quiet
  | _ => rfl

theorem promised_sends (client : Client) (writes : List (Client × Frame)) :
    promised client (sends writes) = (gather client writes).filterMap Frame.answers := by
  induction writes with
  | nil => rfl
  | cons write rest ih =>
      have head : sends (write :: rest) = sends [write] ++ sends rest := rfl
      have split : gather client (write :: rest) = gather client [write] ++ gather client rest :=
        gather_append client [write] rest
      rw [head, split, promised_append, List.filterMap_append, ih]
      congr 1
      by_cases same : write.1 = client
      · cases answers : write.2.answers with
        | none => simp [promised, sends, gather, same, Op.promises, answers]
        | some ticket => simp [promised, sends, gather, same, Op.promises, answers]
      · simp [promised, sends, gather, same, Op.promises]

/-- Frames that answer nothing promise nothing. -/
theorem promised_silent {client : Client} {writes : List (Client × Frame)}
    (silent : ∀ write ∈ writes, write.2.answers = none) : promised client (sends writes) = [] := by
  refine promised_of_none fun op member => ?_
  obtain ⟨write, among, rfl | rfl | rfl⟩ := mem_sends member
  · rfl
  · simp [Op.promises, silent write among]
  · rfl

/-- The code for a frame promises the answer that the frame asks for. -/
theorem promised_handleFrame (client source : Client) (frame : Frame) :
    promised client (handleFrame source frame) =
      if source = client then frame.asks.toList else [] := by
  have nothing {code : Code Client} {msg : Msg} (kind : frame.msg = some msg)
      (other : msg ∈ [Msg.subscribe, .unsubscribe, .publish, .publishRetain])
      (none : promised client code = []) :
      promised client code = if source = client then frame.asks.toList else [] := by
    have asks : frame.asks = Option.none := by
      cases msg <;> simp at other <;> simp [Frame.asks, kind, KvRequest.ofFrame]
    rw [none, asks]
    simp
  unfold handleFrame
  split
  · rename_i kind
    refine nothing kind (by decide) (promised_of_none ?_)
    split <;> simp [Op.promises]
  · rename_i kind
    exact nothing kind (by decide) (promised_of_none (by simp [Op.promises]))
  · rename_i kind
    exact nothing kind (by decide) (promised_of_none (by simp [Op.promises]))
  · rename_i kind
    exact nothing kind (by decide) (promised_of_none (by simp [Op.promises]))
  · rename_i kind
    rw [promised_sends, gather_single, sendTo_tickets client (by simp [Frame.answers]; rfl)]
    simp [Frame.asks, kind, eq_comm]
  · rename_i kind
    split
    · rename_i short
      simp [promised, Frame.asks, kind, short]
    · rename_i long
      by_cases same : source = client
      · simp [promised, Op.promises, Frame.asks, kind, long, same]
      · simp [promised, Op.promises, same]
  · rename_i subscribe unsubscribe publish retain ping info
    have asks : frame.asks =
        (KvRequest.ofFrame frame).bind fun request => request.ticket frame.name := by
      unfold Frame.asks
      split
      · exact absurd ‹_› ping
      · exact absurd ‹_› info
      · rfl
    rw [asks]
    split
    · by_cases same : source = client
      · cases ticket : ((KvRequest.ofFrame frame).bind fun request =>
            request.ticket frame.name) with
        | none => simp [promised, Op.promises, same, ticket]
        | some answer => simp [promised, Op.promises, same, ticket]
      · simp [promised, Op.promises, same]
    · rename_i none
      simp [promised, Option.not_isSome_iff_eq_none.mp none]

/-- The inquiries of the code keep the identifier of their request. -/
def Long (code : Code Client) : Prop :=
  ∀ client report inquiry, .inquire client report inquiry ∈ code → report.id.length = 4

/-- The answer to a status request repeats the identifier. -/
theorem promised_afterInquiry (client source : Client) {result : Report × Inquiry}
    (long : result.1.id.length = 4) :
    promised client (afterInquiry source result) =
      if source = client then [(.info, [], result.1.id)] else [] := by
  obtain ⟨report, inquiry⟩ := result
  cases inquiry with
  | reply =>
      have answers : (Msg.info.frame [] (report.id ++ report.text)).answers =
          some (.info, [], report.id) := by
        simp [Frame.answers, ← long]
      simp only [afterInquiry]
      rw [promised_sends, gather_single, sendTo_tickets client answers]
      simp [eq_comm]
  | clients | topics | retained | keys =>
      by_cases same : source = client <;> simp [afterInquiry, promised, Op.promises, same]

omit [LinearOrder Client] in
theorem inquire_id (order : List Bytes) (report : Report) (inquiry : Inquiry) :
    (state.inquire order report inquiry).1.id = report.id := by
  cases inquiry <;> rfl

end Chappe.Server
