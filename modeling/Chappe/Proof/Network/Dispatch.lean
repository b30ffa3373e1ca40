/-
This file proves that a node calls each of its handlers once for a publish that the handler wants.
-/

import Chappe.Construction.Network
import Mathlib.Tactic.Common

namespace Chappe
open Foundation

variable {Client Handler : Type}

/-- The handler is registered, and the frame has its topic or matches its pattern. The codec of an
exact handler accepts the bytes. -/
def Node.wants (accepts : Handler → Bytes → Bool) (node : Node Client Handler)
    (handler : Registration) (frame : Frame) : Bool :=
  if handler.pattern then
    topicMatches handler.name frame.name &&
      (((node.patternSubs.lookup handler.name).getD [])[handler.place]?).isSome
  else
    decide (frame.name = handler.name) &&
      (((node.subs.lookup handler.name).getD [])[handler.place]?).any
        fun registered => accepts registered frame.payload

/-- One entry of a numbered list has a given number. -/
theorem filter_zipIdx {Item : Type*} (items : List Item) (start place : Nat) :
    (items.zipIdx start).filter (fun entry => decide (entry.2 = start + place)) =
      (items[place]?).toList.map fun item => (item, start + place) := by
  induction items generalizing start place with
  | nil => rfl
  | cons item rest ih =>
      rw [List.zipIdx_cons, List.filter_cons]
      cases place with
      | zero =>
          have later : (rest.zipIdx (start + 1)).filter
              (fun entry => decide (entry.2 = start + 0)) = [] := by
            rw [List.filter_eq_nil_iff]
            intro entry member
            have bound := List.le_snd_of_mem_zipIdx member
            simp only [decide_eq_true_eq]
            omega
          rw [if_pos (by simp), later]
          rfl
      | succ place =>
          have next := ih (start + 1) place
          rw [Nat.add_right_comm, Nat.add_assoc] at next
          rw [if_neg (by simp), next]
          rfl

theorem flatMap_single {Item Output : Type*} [DecidableEq Item] {items : List Item}
    (distinct : items.Nodup) (chosen : Item) (outputs : List Output) :
    items.flatMap (fun item => if item = chosen then outputs else []) =
      if chosen ∈ items then outputs else [] := by
  induction items with
  | nil => rfl
  | cons item rest ih =>
      obtain ⟨absent, rest⟩ := List.nodup_cons.mp distinct
      rw [List.flatMap_cons, ih rest]
      by_cases here : item = chosen
      · subst item
        simp [absent]
      · simp [here, Ne.symm here]

variable {node : Node Client Handler} {handler : Registration} {topic payload : Bytes}
  {cause : Option (Client × Nat)}

theorem exactCalls_of (accepts : Handler → Bytes → Bool) (exact : handler.pattern = false) :
    (node.exactCalls accepts topic payload cause).filter
        (fun call => decide (call.handler = handler)) =
      if node.wants accepts handler (Msg.publish.frame topic payload) then
        [⟨handler, topic, payload, cause⟩] else [] := by
  obtain ⟨pattern, name, place⟩ := handler
  cases exact
  have one := filter_zipIdx ((node.subs.lookup topic).getD []) 0 place
  simp only [Nat.zero_add] at one
  simp only [Node.exactCalls, List.filter_map, List.filter_filter, Node.wants, Msg.frame_name,
    Msg.frame_payload, Bool.false_eq_true, if_false]
  by_cases here : topic = name
  · subst name
    have pick : ((node.subs.lookup topic).getD []).zipIdx.filter (fun entry =>
        ((fun call : Invocation Client => decide (call.handler = ⟨false, topic, place⟩)) ∘
          fun entry : Handler × Nat =>
            (⟨⟨false, topic, entry.2⟩, topic, payload, cause⟩ : Invocation Client)) entry &&
          accepts entry.1 payload) =
        (((node.subs.lookup topic).getD []).zipIdx.filter fun entry =>
          decide (entry.2 = place)).filter fun entry => accepts entry.1 payload := by
      rw [List.filter_filter]
      congr 1
      funext entry
      simp [Bool.and_comm]
    rw [pick, one]
    cases found : ((node.subs.lookup topic).getD [])[place]? with
    | none => simp
    | some registered =>
        cases accepted : accepts registered payload with
        | true => simp [accepted]
        | false => simp [accepted]
  · simp [here]

theorem patternCalls_of (pattern : handler.pattern = true) (name : Bytes)
    (accepts : Handler → Bytes → Bool) :
    (node.patternCalls topic payload cause name).filter
        (fun call => decide (call.handler = handler)) =
      if name = handler.name then
        if node.wants accepts handler (Msg.publish.frame topic payload) then
          [⟨handler, topic, payload, cause⟩] else []
      else [] := by
  obtain ⟨kind, chosen, place⟩ := handler
  cases pattern
  have one := filter_zipIdx ((node.patternSubs.lookup name).getD []) 0 place
  simp only [Nat.zero_add] at one
  simp only [Node.patternCalls, Node.wants, Msg.frame_name, if_true]
  by_cases here : name = chosen
  · subst chosen
    by_cases matched : topicMatches name topic
    · have pick : ((node.patternSubs.lookup name).getD []).zipIdx.filter
          ((fun call : Invocation Client => decide (call.handler = ⟨true, name, place⟩)) ∘
            fun entry : Handler × Nat =>
              (⟨⟨true, name, entry.2⟩, topic, payload, cause⟩ : Invocation Client)) =
          ((node.patternSubs.lookup name).getD []).zipIdx.filter fun entry =>
            decide (entry.2 = place) := by
        congr 1
        funext entry
        simp
      rw [if_pos matched, List.filter_map, pick, one]
      cases found : ((node.patternSubs.lookup name).getD [])[place]? with
      | none => simp
      | some registered => simp [matched]
    · simp [matched]
  · rw [if_neg here, List.filter_eq_nil_iff]
    intro call called
    split at called
    · obtain ⟨entry, -, rfl⟩ := List.mem_map.mp called
      simp [here]
    · cases called

/-- A dispatch calls a handler once if the handler wants the publish, and else not at all. -/
theorem dispatch_of (accepts : Handler → Bytes → Bool) {order : List Bytes}
    (listed : (order : Multiset Bytes) = node.patternSubs.keys.val) (handler : Registration) :
    (node.dispatch accepts order topic payload cause).filter
        (fun call => decide (call.handler = handler)) =
      if node.wants accepts handler (Msg.publish.frame topic payload) then
        [⟨handler, topic, payload, cause⟩] else [] := by
  have distinct : order.Nodup := Multiset.coe_nodup.mp (listed ▸ node.patternSubs.keys.nodup)
  have member (name : Bytes) : name ∈ order ↔ name ∈ node.patternSubs := by
    rw [← Multiset.mem_coe, listed, Finset.mem_val, Finmap.mem_keys]
  rw [Node.dispatch, List.filter_append, List.filter_flatMap]
  cases kind : handler.pattern with
  | false =>
      have silent : (order.flatMap fun name => (node.patternCalls topic payload cause name).filter
          fun call => decide (call.handler = handler)) = [] := by
        rw [List.flatMap_eq_nil_iff]
        intro name _
        rw [List.filter_eq_nil_iff]
        intro call called
        unfold Node.patternCalls at called
        split at called
        · obtain ⟨entry, -, rfl⟩ := List.mem_map.mp called
          simp only [decide_eq_true_eq]
          rintro rfl
          cases kind
        · cases called
      rw [exactCalls_of accepts kind, silent, List.append_nil]
  | true =>
      have silent : (node.exactCalls accepts topic payload cause).filter
          (fun call => decide (call.handler = handler)) = [] := by
        rw [List.filter_eq_nil_iff]
        intro call called
        obtain ⟨entry, -, rfl⟩ := List.mem_map.mp called
        simp only [decide_eq_true_eq]
        rintro rfl
        cases kind
      simp only [patternCalls_of kind _ accepts]
      rw [silent, List.nil_append, flatMap_single distinct]
      split
      · rfl
      · rename_i missing
        have unregistered : node.patternSubs.lookup handler.name = none :=
          Finmap.lookup_eq_none.mpr fun present => missing ((member _).mpr present)
        simp [Node.wants, kind, unregistered]

/-- A node takes the causes of its calls from its wire. -/
theorem read_calls (accepts : Handler → Bytes → Bool) {node : Node Client Handler}
    {wire : List (Frame × Option (Client × Nat))} {order : List Bytes} {call : Invocation Client}
    (member : call ∈ (node.read accepts wire order).calls) :
    call ∈ node.calls ∨ ∃ entry ∈ wire, entry.2 = call.cause := by
  unfold Node.read at member
  split at member
  · exact .inl member
  · rename_i frame cause arrived
    have caused : (frame, cause) ∈ wire := List.mem_of_getElem? arrived
    split at member
    · split at member
      · rcases List.mem_append.mp member with before | now
        · exact .inl before
        · refine .inr ⟨(frame, cause), caused, ?_⟩
          rcases List.mem_append.mp now with exact' | pattern
          · obtain ⟨entry, -, rfl⟩ := List.mem_map.mp exact'
            rfl
          · obtain ⟨name, -, called⟩ := List.mem_flatMap.mp pattern
            unfold Node.patternCalls at called
            split at called
            · obtain ⟨entry, -, rfl⟩ := List.mem_map.mp called
              rfl
            · cases called
      · exact .inl member
    · exact .inl member

theorem read_taken (accepts : Handler → Bytes → Bool) {node : Node Client Handler}
    {wire : List (Frame × Option (Client × Nat))} {order : List Bytes}
    (taken : node.taken ≤ wire.length) : (node.read accepts wire order).taken ≤ wire.length := by
  unfold Node.read
  split
  · exact taken
  · rename_i arrived
    have next : node.taken < wire.length := (List.getElem?_eq_some_iff.mp arrived).1
    split
    · split
      · exact next
      · exact taken
    · exact next

theorem read_unsent (accepts : Handler → Bytes → Bool) (node : Node Client Handler)
    (wire : List (Frame × Option (Client × Nat))) (order : List Bytes) :
    (node.read accepts wire order).unsent = node.unsent := by
  unfold Node.read
  split
  · rfl
  · split
    · split <;> rfl
    · rfl

end Chappe
