/-
This file proves what the marks on the way to the nodes say in every run.
-/

import Chappe.Foundation.Run
import Chappe.Proof.Network.Dispatch
import Chappe.Proof.Network.Routing

namespace Chappe
open Foundation

variable {Client Handler : Type} [DecidableEq Client]

/-- The number of a publish of the sender after its first ones. -/
def since (sender : Client) (base : Nat) : Option (Client × Nat) → Option Nat
  | some (actor, number) => if actor = sender ∧ base < number then some number else none
  | none => none

/-- The frames by which the daemon routes the publishes of the sender after its first ones. -/
def routedBy (sender : Client) (base : Nat) (wire : List (Frame × Option (Client × Nat))) :
    List (Frame × Nat) :=
  wire.filterMap fun entry => (since sender base entry.2).map fun number => (entry.1, number)

/-- The calls of a handler that the publishes of the sender after its first ones have caused. -/
def Node.callsOf (node : Node Client Handler) (handler : Registration) (sender : Client)
    (base : Nat) : List (Nat × Bytes × Bytes) :=
  (node.calls.filter fun call => decide (call.handler = handler)).filterMap fun call =>
    (since sender base call.cause).map fun number => (number, call.topic, call.payload)

theorem routedBy_append (sender : Client) (base : Nat)
    (first second : List (Frame × Option (Client × Nat))) :
    routedBy sender base (first ++ second) =
      routedBy sender base first ++ routedBy sender base second := List.filterMap_append

/-- What holds of the marks in every run. A publish does not come back to its own client. -/
structure Network.Marked (network : Network Client Handler) : Prop where
  wire : ∀ client, (network.wire client).map Prod.fst = network.daemon.broker.sent client
  number : ∀ client, ∀ entry ∈ network.wire client, ∀ sender number,
    entry.2 = some (sender, number) → sender ≠ client ∧ number ≤ (network.routed sender).length
  apart : ∀ sender, (network.daemon.broker.thread sender).owes sender = []
  calls : ∀ client, ∀ call ∈ (network.node client).calls, ∀ sender number,
    call.cause = some (sender, number) → sender ≠ client ∧ number ≤ (network.routed sender).length
  taken : ∀ client, (network.node client).taken ≤ (network.wire client).length
  unsent : ∀ client, ∀ frame ∈ (network.node client).unsent, frame.isSubscription = true

variable {network : Network Client Handler}

theorem Network.Marked.initial : (Network.initial : Network Client Handler).Marked where
  wire := fun _ => rfl
  number := by simp [Network.initial]
  apart := fun _ => rfl
  calls := by simp [Network.initial]
  taken := fun _ => Nat.zero_le _
  unsent := by simp [Network.initial]

theorem become_node_self (network : Network Client Handler) (client : Client)
    (node : Node Client Handler) : (network.become client node).node client = node :=
  Function.update_self ..

theorem become_node_of_ne (network : Network Client Handler) {client other : Client}
    (different : other ≠ client) (node : Node Client Handler) :
    (network.become client node).node other = network.node other :=
  Function.update_of_ne different ..

/-- The wire to a client grows by what the daemon writes to it. -/
theorem daemonStep_wire (network : Network Client Handler) (action : DaemonAction Client)
    {client : Client} {extra : List Frame}
    (sent : (network.daemon.step action).broker.sent client =
      network.daemon.broker.sent client ++ extra) :
    (network.daemonStep action).wire client =
      network.wire client ++ extra.map fun frame => (frame, network.origin action) := by
  simp only [Network.daemonStep, sent, List.drop_left]

theorem Network.Marked.daemonStep (marked : network.Marked) (action : DaemonAction Client) :
    (network.daemonStep action).Marked := by
  have longer (sender : Client) : (network.routed sender).length ≤
      ((network.daemonStep action).routed sender).length := by
    simp [Network.daemonStep]
  refine ⟨?_, ?_, ?_, ?_, ?_, marked.unsent⟩
  · intro client
    obtain ⟨extra, sent⟩ := daemon_extends network.daemon action client
    rw [daemonStep_wire network action sent, List.map_append, marked.wire, List.map_map]
    exact (congrArg _ (List.map_id extra)).trans sent.symm
  · intro client entry member sender number cause
    obtain ⟨extra, sent⟩ := daemon_extends network.daemon action client
    rw [daemonStep_wire network action sent, List.mem_append] at member
    rcases member with before | written
    · obtain ⟨different, bound⟩ := marked.number client entry before sender number cause
      exact ⟨different, bound.trans (longer sender)⟩
    · obtain ⟨frame, wrote, rfl⟩ := List.mem_map.mp written
      obtain ⟨actor, router, origin⟩ := Option.map_eq_some_iff.mp cause
      cases origin
      refine ⟨?_, longer sender⟩
      rintro rfl
      have nothing (same : (network.daemon.step action).broker.sent sender =
          network.daemon.broker.sent sender) : False := by
        rw [sent, List.append_right_eq_self] at same
        rw [same] at wrote
        cases wrote
      cases daemon_routes network.daemon sender sender action with
      | begins _ _ _ _ same => exact nothing same
      | writes written _ _ before =>
          rw [marked.apart] at before
          cases before
      | rests _ _ same =>
          rcases same with same | ⟨silent, -⟩
          · exact nothing same
          · exact silent router
  · intro sender
    change ((network.daemon.step action).broker.thread sender).owes sender = []
    cases daemon_routes network.daemon sender sender action with
    | begins frame _ _ after =>
        rw [after, if_neg (Finset.notMem_erase sender _)]
    | writes _ _ _ _ after => exact after
    | rests _ same =>
        rw [same]
        exact marked.apart sender
  · intro client call member sender number cause
    obtain ⟨different, bound⟩ := marked.calls client call member sender number cause
    exact ⟨different, bound.trans (longer sender)⟩
  · intro client
    exact (marked.taken client).trans (by simp [Network.daemonStep])

theorem Network.Marked.write (marked : network.Marked) (client : Client) (frame : Frame) :
    (network.write client frame).Marked := by
  unfold Network.write
  split
  · exact ⟨marked.wire, marked.number, marked.apart, marked.calls, marked.taken, marked.unsent⟩
  · exact marked

/-- A node changes its state. Its calls are those before, or they come from its wire. -/
theorem Network.Marked.become (marked : network.Marked) {client : Client}
    {node : Node Client Handler}
    (calls : ∀ call ∈ node.calls, call ∈ (network.node client).calls ∨
      ∃ entry ∈ network.wire client, entry.2 = call.cause)
    (taken : node.taken ≤ (network.wire client).length)
    (unsent : ∀ frame ∈ node.unsent, frame.isSubscription = true) :
    (network.become client node).Marked := by
  refine ⟨marked.wire, marked.number, marked.apart, ?_, ?_, ?_⟩
  · intro other call member sender number cause
    by_cases mine : other = client
    · subst other
      rw [become_node_self] at member
      rcases calls call member with before | ⟨entry, arrived, same⟩
      · exact marked.calls client call before sender number cause
      · exact marked.number client entry arrived sender number (same.trans cause)
    · rw [become_node_of_ne _ mine] at member
      exact marked.calls other call member sender number cause
  · intro other
    by_cases mine : other = client
    · subst other
      rw [become_node_self]
      exact taken
    · rw [become_node_of_ne _ mine]
      exact marked.taken other
  · intro other
    by_cases mine : other = client
    · subst other
      rw [become_node_self]
      exact unsent
    · rw [become_node_of_ne _ mine]
      exact marked.unsent other

/-- A node changes its handlers and has the daemon told. -/
theorem Network.Marked.change (marked : network.Marked) {client : Client}
    {node : Node Client Handler} (calls : node.calls = (network.node client).calls)
    (taken : node.taken = (network.node client).taken)
    (unsent : ∀ frame ∈ node.unsent,
      frame ∈ (network.node client).unsent ∨ frame.isSubscription = true) :
    (network.become client node).Marked := by
  apply marked.become
  · rw [calls]
    exact fun _ member => .inl member
  · rw [taken]
    exact marked.taken client
  · intro frame member
    rcases unsent frame member with before | new
    · exact marked.unsent client frame before
    · exact new

/-- The frame that a node adds is about a subscription. -/
theorem mem_told {frames : List Frame} {last frame : Frame} (about : last.isSubscription = true)
    (member : frame ∈ frames ++ [last]) : frame ∈ frames ∨ frame.isSubscription = true := by
  rcases List.mem_append.mp member with before | new
  · exact .inl before
  · rw [List.mem_singleton.mp new]
    exact .inr about

theorem Network.Marked.step (accepts : Handler → Bytes → Bool) (network : Network Client Handler)
    (action : NetworkAction Client Handler) (marked : network.Marked) :
    (network.step accepts action).Marked := by
  cases action with
  | daemon action =>
      cases action with
      | arrive client frame => exact marked
      | connect client => exact marked.daemonStep _
      | thread client target order now later => exact marked.daemonStep _
      | hangUp client => exact marked.daemonStep _
      | sweep order read => exact marked.daemonStep _
  | subscribe client topic handler =>
      refine marked.change rfl rfl ?_
      intro frame member
      dsimp only [Node.subscribe] at member
      split at member
      · exact mem_told rfl member
      · exact .inl member
  | subscribePattern client pattern handler =>
      refine marked.change rfl rfl ?_
      intro frame member
      dsimp only [Node.subscribePattern] at member
      split at member
      · exact mem_told rfl member
      · exact .inl member
  | unsubscribe client topic =>
      simp only [Network.step, Node.unsubscribe]
      split
      · exact marked.change rfl rfl fun _ member => mem_told rfl member
      · exact marked.change rfl rfl fun _ member => .inl member
  | unsubscribePattern client pattern =>
      simp only [Network.step, Node.unsubscribePattern]
      split
      · exact marked.change rfl rfl fun _ member => mem_told rfl member
      · exact marked.change rfl rfl fun _ member => .inl member
  | send client place =>
      simp only [Network.step]
      split
      · apply Network.Marked.write
        exact marked.change rfl rfl fun _ member => .inl (List.mem_of_mem_eraseIdx member)
      · exact marked
  | publish client topic payload retain => exact marked.write client _
  | request client frame =>
      simp only [Network.step]
      split
      · exact marked
      · exact marked.write client frame
  | read client order =>
      apply marked.become
      · exact fun _ member => read_calls accepts member
      · exact read_taken accepts (marked.taken client)
      · rw [read_unsent]
        exact marked.unsent client

/-- A mark that a network has is not one of a later publish. -/
theorem since_routed {network : Network Client Handler} {sender client : Client}
    {cause : Option (Client × Nat)} (bound : ∀ actor number, cause = some (actor, number) →
      actor ≠ client ∧ number ≤ (network.routed actor).length) :
    since sender (network.routed sender).length cause = none := by
  unfold since
  split
  · rename_i actor number
    obtain ⟨-, bounded⟩ := bound actor number rfl
    rw [if_neg]
    rintro ⟨rfl, after⟩
    omega
  · rfl

/-- Nothing on the wires comes from a later publish. -/
theorem Network.Marked.unrouted (marked : network.Marked) (sender client : Client)
    {wire : List (Frame × Option (Client × Nat))}
    (within : ∀ entry ∈ wire, entry ∈ network.wire client) :
    routedBy sender (network.routed sender).length wire = [] := by
  rw [routedBy, List.filterMap_eq_nil_iff]
  intro entry member
  have bound := marked.number client entry (within entry member)
  rw [since_routed bound]
  rfl

/-- No call comes from a later publish. -/
theorem Network.Marked.uncalled (marked : network.Marked) (handler : Registration)
    (sender client : Client) :
    (network.node client).callsOf handler sender (network.routed sender).length = [] := by
  rw [Node.callsOf, List.filterMap_eq_nil_iff]
  intro call member
  have called := (List.mem_filter.mp member).1
  rw [since_routed (marked.calls client call called)]
  rfl

end Chappe
