/-
This file proves what one step of a fleet does to the daemon, and that a fleet only extends its
records.
-/

import Chappe.Construction.Fleet
import Chappe.Proof.Network.Delivery

namespace Chappe
open Foundation

variable {Client Handler : Type} [DecidableEq Client] {accepts : Handler → Bytes → Bool}

/-- The three things that a step can do to the daemon. -/
inductive Network.Moves (accepts : Handler → Bytes → Bool) (network : Network Client Handler)
    (action : NetworkAction Client Handler) (next : Network Client Handler) : Prop
  | rests (daemon : next.daemon = network.daemon) (wire : next.wire = network.wire)
      (takes : network.takes action = none) (performs : network.performs action = [])
  | writes (client : Client) (frame : Frame)
      (daemon : next.daemon = network.daemon.step (.arrive client frame))
      (wire : next.wire = network.wire)
      (takes : network.takes action = none) (performs : network.performs action = [])
  | serves (served : DaemonAction Client) (silent : ∀ client frame, served ≠ .arrive client frame)
      (daemon : next = network.daemonStep served)
      (takes : network.takes action = network.daemon.takes served)
      (performs : network.performs action = network.daemon.performs served)

theorem write_moves {network changed : Network Client Handler}
    {action : NetworkAction Client Handler} (client : Client) (frame : Frame)
    (daemon : changed.daemon = network.daemon) (wire : changed.wire = network.wire)
    (takes : network.takes action = none) (performs : network.performs action = []) :
    Network.Moves accepts network action (changed.write client frame) := by
  unfold Network.write
  split
  · exact .writes client frame (by rw [← daemon]) wire takes performs
  · exact .rests daemon wire takes performs

/-- Every step of the network does one of the three things. -/
theorem network_moves (accepts : Handler → Bytes → Bool) (network : Network Client Handler)
    (action : NetworkAction Client Handler) :
    Network.Moves accepts network action (network.step accepts action) := by
  cases action with
  | daemon served =>
      cases served with
      | arrive client frame => exact .rests rfl rfl rfl rfl
      | connect client => exact .serves (.connect client) (by simp) rfl rfl rfl
      | thread client target order now later =>
          exact .serves (.thread client target order now later) (by simp) rfl rfl rfl
      | hangUp client => exact .serves (.hangUp client) (by simp) rfl rfl rfl
      | sweep order read => exact .serves (.sweep order read) (by simp) rfl rfl rfl
  | subscribe client topic handler => exact .rests rfl rfl rfl rfl
  | subscribePattern client pattern handler => exact .rests rfl rfl rfl rfl
  | unsubscribe client topic => exact .rests rfl rfl rfl rfl
  | unsubscribePattern client pattern => exact .rests rfl rfl rfl rfl
  | read client order => exact .rests rfl rfl rfl rfl
  | send client place =>
      simp only [Network.step]
      split
      · exact write_moves client _ rfl rfl rfl rfl
      · exact .rests rfl rfl rfl rfl
  | publish client topic payload retain => exact write_moves client _ rfl rfl rfl rfl
  | request client frame =>
      simp only [Network.step]
      split
      · exact .rests rfl rfl rfl rfl
      · exact write_moves client frame rfl rfl rfl rfl

/-- The state in which the daemon takes a frame. -/
structure Daemon.Takes (daemon : Daemon Client) (client : Client) (frame : Frame)
    (action : DaemonAction Client) : Prop where
  serving : daemon.life client = .serving
  idle : daemon.broker.thread client = .idle
  handles : ∃ target order now later rest, action = .thread client target order now later ∧
    daemon.broker.inbox client = frame :: rest ∧
    daemon.step action = Daemon.handleFrame
      { daemon with
        broker := { daemon.broker with
          inbox := Function.update daemon.broker.inbox client rest }
        named := insert frame.name daemon.named }
      client frame now later

theorem takes_some {daemon : Daemon Client} {action : DaemonAction Client} {client : Client}
    {frame : Frame} (takes : daemon.takes action = some (client, frame)) :
    daemon.Takes client frame action := by
  unfold Daemon.takes at takes
  split at takes
  · rename_i actor target order now later
    split at takes
    · rename_i taken rest serving idle queued
      cases takes
      refine ⟨serving, idle, target, order, now, later, rest, rfl, queued, ?_⟩
      simp only [Daemon.step, Daemon.threadStep, serving, idle, queued]
    · cases takes
  · cases takes

omit [DecidableEq Client] in
theorem takes_none {daemon : Daemon Client} {client target : Client} {order : List Bytes}
    {now later : Nat} (takes : daemon.takes (.thread client target order now later) = none) :
    daemon.life client ≠ .serving ∨ daemon.broker.thread client ≠ .idle ∨
      daemon.broker.inbox client = [] := by
  by_contra all
  simp only [not_or, not_not] at all
  obtain ⟨serving, idle, queued⟩ := all
  cases inbox : daemon.broker.inbox client with
  | nil => exact queued inbox
  | cons frame rest => simp [Daemon.takes, serving, idle, inbox] at takes

/-- The daemon takes the frames of a client in their order. -/
theorem inbox_taken (daemon : Daemon Client) (client : Client) {action : DaemonAction Client}
    (silent : ∀ client frame, action ≠ .arrive client frame) :
    daemon.broker.inbox client =
      takenFrom client (daemon.takes action) ++ (daemon.step action).broker.inbox client := by
  have rests (takes : daemon.takes action = none)
      (same : (daemon.step action).broker.inbox client = daemon.broker.inbox client) :
      daemon.broker.inbox client =
        takenFrom client (daemon.takes action) ++ (daemon.step action).broker.inbox client := by
    rw [takes, same]
    rfl
  cases action with
  | connect actor =>
      apply rests rfl
      simp only [Daemon.step]
      split <;> rfl
  | arrive actor frame => exact absurd rfl (silent actor frame)
  | hangUp actor =>
      apply rests rfl
      simp only [Daemon.step]
      split <;> rfl
  | sweep order read => exact rests rfl rfl
  | thread actor target order now later =>
      cases takes : daemon.takes (.thread actor target order now later) with
      | some taken =>
          obtain ⟨taker, frame⟩ := taken
          obtain ⟨-, -, _, _, _, _, rest, -, queued, handled⟩ := takes_some takes
          rw [handled, handleFrame_inbox]
          dsimp only [takenFrom]
          by_cases mine : taker = client
          · subst taker
            rw [if_pos rfl, Function.update_self, queued]
            rfl
          · rw [if_neg mine, Function.update_of_ne (Ne.symm mine)]
            rfl
      | none =>
          dsimp only [takenFrom, List.nil_append, Daemon.step, Daemon.threadStep]
          cases life : daemon.life actor with
          | absent => rfl
          | gone => rfl
          | leaving departure => cases departure <;> rfl
          | reporting inquiry report =>
              dsimp only
              unfold Daemon.inquire
              split
              · rfl
              · split <;> rfl
              · rfl
              · rfl
              · rfl
          | serving =>
              dsimp only
              split
              · rename_i idle
                rcases takes_none takes with other | other | queued
                · exact absurd life other
                · exact absurd idle other
                · rw [queued]
              · rename_i busy
                exact (congrFun (step_inbox target busy) client).symm

/-- What a fleet has recorded stays, and its readers only go on. -/
structure Fleet.Extends (fleet next : Fleet Client Handler) : Prop where
  handled : ∀ client, fleet.handled client <+: next.handled client
  sent : ∀ client, fleet.sent client <+: next.sent client
  answers : ∀ client, fleet.answers client <+: next.answers client
  wire : ∀ client, fleet.network.wire client <+: next.network.wire client
  changes : fleet.changes <+: next.changes
  taken : ∀ client, (fleet.network.node client).taken ≤ (next.network.node client).taken

omit [DecidableEq Client] in
theorem Fleet.Extends.refl (fleet : Fleet Client Handler) : fleet.Extends fleet :=
  ⟨fun _ => List.prefix_rfl, fun _ => List.prefix_rfl, fun _ => List.prefix_rfl,
    fun _ => List.prefix_rfl, List.prefix_rfl, fun _ => Nat.le_refl _⟩

omit [DecidableEq Client] in
theorem Fleet.Extends.trans {first second third : Fleet Client Handler}
    (left : first.Extends second) (right : second.Extends third) : first.Extends third :=
  ⟨fun client => (left.handled client).trans (right.handled client),
    fun client => (left.sent client).trans (right.sent client),
    fun client => (left.answers client).trans (right.answers client),
    fun client => (left.wire client).trans (right.wire client),
    left.changes.trans right.changes,
    fun client => (left.taken client).trans (right.taken client)⟩

/-- A reader takes the frames in order. -/
theorem step_taken (accepts : Handler → Bytes → Bool) (network : Network Client Handler)
    (action : NetworkAction Client Handler) (client : Client) :
    (network.node client).taken ≤ ((network.step accepts action).node client).taken := by
  have become {actor : Client} {node : Node Client Handler}
      (grows : (network.node actor).taken ≤ node.taken) :
      (network.node client).taken ≤ ((network.become actor node).node client).taken := by
    by_cases mine : client = actor
    · subst actor
      rw [become_node_self]
      exact grows
    · rw [become_node_of_ne network mine]
  have write (changed : Network Client Handler) (actor : Client) (frame : Frame) :
      (changed.write actor frame).node = changed.node := by
    unfold Network.write
    split <;> rfl
  cases action with
  | daemon action => cases action <;> exact Nat.le_refl _
  | subscribe actor topic handler => exact become (Nat.le_refl _)
  | subscribePattern actor pattern handler => exact become (Nat.le_refl _)
  | unsubscribe actor topic =>
      apply become
      unfold Node.unsubscribe
      split <;> exact Nat.le_refl _
  | unsubscribePattern actor pattern =>
      apply become
      unfold Node.unsubscribePattern
      split <;> exact Nat.le_refl _
  | send actor place =>
      simp only [Network.step]
      split
      · rw [write]
        exact become (Nat.le_refl _)
      · exact Nat.le_refl _
  | publish actor topic payload retain =>
      simp only [Network.step, write]
      exact Nat.le_refl _
  | request actor frame =>
      simp only [Network.step]
      split
      · exact Nat.le_refl _
      · rw [write]
  | read actor order =>
      apply become
      unfold Node.read
      split
      · exact Nat.le_refl _
      · split
        · split
          · exact Nat.le_succ _
          · exact Nat.le_refl _
        · exact Nat.le_succ _

/-- The wire to a client grows by what the daemon writes to it. -/
theorem step_wire (accepts : Handler → Bytes → Bool) (network : Network Client Handler)
    (action : NetworkAction Client Handler) (client : Client) :
    network.wire client <+: (network.step accepts action).wire client := by
  cases network_moves accepts network action with
  | rests daemon wire => rw [wire]
  | writes actor frame daemon wire => rw [wire]
  | serves served silent daemon =>
      rw [daemon]
      exact List.prefix_append _ _

/-- What a client has sent grows by what it writes. -/
theorem step_sent (accepts : Handler → Bytes → Bool) (fleet : Fleet Client Handler)
    (action : NetworkAction Client Handler) (client : Client) :
    fleet.sent client <+: (fleet.step accepts action).sent client := by
  dsimp only [Fleet.sent, Fleet.step, Fleet.taken]
  cases network_moves accepts fleet.network action with
  | rests daemon wire takes =>
      rw [daemon, takes]
      simp [takenFrom]
  | writes actor frame daemon wire takes =>
      rw [daemon, takes]
      dsimp only [takenFrom, Daemon.step]
      rw [List.append_nil, List.prefix_append_right_inj]
      by_cases mine : client = actor
      · subst actor
        rw [Function.update_self]
        exact List.prefix_append _ _
      · rw [Function.update_of_ne mine]
  | serves served silent daemon takes =>
      rw [daemon, takes, inbox_taken fleet.network.daemon client silent, List.append_assoc]
      exact List.prefix_rfl

theorem Fleet.Extends.step (accepts : Handler → Bytes → Bool) (fleet : Fleet Client Handler)
    (action : NetworkAction Client Handler) : fleet.Extends (fleet.step accepts action) where
  handled := fun _ => List.prefix_append _ _
  sent := step_sent accepts fleet action
  answers := fun _ => List.prefix_append _ _
  wire := step_wire accepts fleet.network action
  changes := List.prefix_append _ _
  taken := step_taken accepts fleet.network action

theorem Fleet.Extends.run (accepts : Handler → Bytes → Bool)
    (actions : List (NetworkAction Client Handler)) (fleet : Fleet Client Handler) :
    fleet.Extends (run (Fleet.step accepts) fleet actions) :=
  run_invariant (fun next action grows => grows.trans (.step accepts next action)) actions fleet
    (.refl fleet)

end Chappe
