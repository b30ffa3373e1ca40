/-
This file proves that a node keeps a handler that it does not unregister, and that the daemon keeps
the subscription of a client that does not drop it.
-/

import Chappe.Proof.Sync.History

namespace Chappe
open Foundation

variable {Client Handler : Type}

/-- The frame makes the daemon drop the name. -/
def Frame.Drops (name : Bytes) (frame : Frame) : Prop :=
  frame.msg = some .unsubscribe ∧ frame.name = name

variable {node : Node Client Handler} {handler : Registration}

/-- What a handler wants is a matter of its own entry. -/
theorem wants_registered (accepts : Handler → Bytes → Bool) (frame : Frame) :
    node.wants accepts handler frame =
      if handler.pattern then
        topicMatches handler.name frame.name && (node.registered handler).isSome
      else
        decide (frame.name = handler.name) &&
          (node.registered handler).any fun registered => accepts registered frame.payload := by
  unfold Node.wants Node.registered
  cases handler.pattern <;> rfl

/-- A new handler comes after those of its name. -/
theorem register_getElem? {table : Handlers Bytes Handler} {name other : Bytes} {place : Nat}
    {found : Handler} (there : ((table.lookup other).getD [])[place]? = some found)
    (added : Handler) :
    (((table.register name added).1.lookup other).getD [])[place]? = some found := by
  unfold Handlers.register
  by_cases same : other = name
  · subst other
    rw [Finmap.lookup_insert, Option.getD_some,
      List.getElem?_append_left (List.getElem?_eq_some_iff.mp there).1]
    exact there
  · rw [Finmap.lookup_insert_of_ne _ same]
    exact there

theorem registered_subscribe {found : Handler} (there : node.registered handler = some found)
    (topic : Bytes) (added : Handler) :
    (node.subscribe topic added).registered handler = some found := by
  unfold Node.registered at there ⊢
  unfold Node.subscribe
  split
  · rename_i pattern
    rwa [if_pos pattern] at there
  · rename_i exact'
    rw [if_neg exact'] at there
    exact register_getElem? there added

theorem registered_subscribePattern {found : Handler}
    (there : node.registered handler = some found) (pattern : Bytes) (added : Handler) :
    (node.subscribePattern pattern added).registered handler = some found := by
  unfold Node.registered at there ⊢
  unfold Node.subscribePattern
  split
  · rename_i kind
    rw [if_pos kind] at there
    exact register_getElem? there added
  · rename_i kind
    rwa [if_neg kind] at there

theorem registered_unsubscribe {topic : Bytes} (other : topic ≠ handler.name) :
    (node.unsubscribe topic).registered handler = node.registered handler := by
  unfold Node.unsubscribe
  split
  · unfold Node.registered
    split
    · rfl
    · rw [Finmap.lookup_erase_ne (Ne.symm other)]
  · rfl

theorem registered_unsubscribePattern {pattern : Bytes} (other : pattern ≠ handler.name) :
    (node.unsubscribePattern pattern).registered handler = node.registered handler := by
  unfold Node.unsubscribePattern
  split
  · unfold Node.registered
    split
    · rw [Finmap.lookup_erase_ne (Ne.symm other)]
    · rfl
  · rfl

variable [DecidableEq Client] {tables : Tables Client} {client : Client} {name : Bytes}

omit [DecidableEq Client] in
theorem Tables.Holds.mono {changed : Tables Client} (holds : tables.Holds client name)
    (topics : client ∈ tables.subs.members name → client ∈ changed.subs.members name)
    (patterns : client ∈ tables.patternSubs.members name →
      client ∈ changed.patternSubs.members name) : changed.Holds client name := by
  unfold Tables.Holds at holds ⊢
  split
  · rename_i wildcard
    exact patterns (by rwa [if_pos wildcard] at holds)
  · rename_i plain
    exact topics (by rwa [if_neg plain] at holds)

theorem Tables.Holds.subscribe (holds : tables.Holds client name) (added : Bytes) :
    (tables.subscribe client added).Holds client name := by
  unfold Tables.subscribe
  split
  · exact holds.mono id fun member => Registry.mem_add.mpr (.inl member)
  · exact holds.mono (fun member => Registry.mem_add.mpr (.inl member)) id

theorem Tables.Holds.unsubscribe (holds : tables.Holds client name) {dropped : Bytes}
    (other : dropped ≠ name) : (tables.unsubscribe client dropped).Holds client name := by
  have stays : ¬ (name = dropped ∧ client = client) := fun same => other same.1.symm
  unfold Tables.unsubscribe
  split
  · exact holds.mono id fun member => Registry.mem_remove.mpr ⟨member, stays⟩
  · exact holds.mono (fun member => Registry.mem_remove.mpr ⟨member, stays⟩) id

/-- The daemon has the name of the client, which is connected, and is not about to drop it. -/
structure Daemon.Holds (daemon : Daemon Client) (client : Client) (name : Bytes) : Prop where
  connected : (daemon.life client).connected = true
  tables : daemon.broker.tables.Holds client name
  inbox : ∀ frame ∈ daemon.broker.inbox client, ¬ frame.Drops name

variable {daemon : Daemon Client}

omit [DecidableEq Client] in
theorem Daemon.Holds.of_same {next : Daemon Client} (holds : daemon.Holds client name)
    (same : daemon.SameFor client next) : next.Holds client name :=
  ⟨same.life ▸ holds.connected, (same.tables.holds name).mpr holds.tables,
    same.inbox ▸ holds.inbox⟩

theorem Daemon.Holds.become {next : Daemon Client} (holds : next.Holds client name) {life : Life}
    (connected : life.connected = true) : (next.become client life).Holds client name := by
  refine ⟨?_, holds.tables, holds.inbox⟩
  dsimp only [Daemon.become]
  rw [Function.update_self]
  exact connected

theorem Daemon.Holds.handleFrame (holds : daemon.Holds client name) {frame : Frame}
    (other : ¬ frame.Drops name) (now later : Nat) :
    (daemon.handleFrame client frame now later).Holds client name := by
  unfold Daemon.handleFrame
  split
  · exact ⟨holds.connected, holds.tables, holds.inbox⟩
  · split
    · exact holds
    · exact holds.become rfl
  · rename_i kind
    simp only [Broker.begin, kind]
    exact ⟨holds.connected, holds.tables.subscribe frame.name, holds.inbox⟩
  · rename_i kind
    simp only [Broker.begin, kind]
    exact ⟨holds.connected, holds.tables.unsubscribe fun same => other ⟨kind, same⟩, holds.inbox⟩
  · rename_i kind
    simp only [Broker.begin, kind]
    exact ⟨holds.connected, holds.tables, holds.inbox⟩
  · rename_i kind
    simp only [Broker.begin, kind]
    exact ⟨holds.connected, holds.tables, holds.inbox⟩
  · exact ⟨holds.connected, holds.tables, holds.inbox⟩

theorem Daemon.Holds.threadStep (holds : daemon.Holds client name) (target : Client)
    (order : List Bytes) (now later : Nat)
    (stays : ((daemon.threadStep client target order now later).life client).Stays) :
    (daemon.threadStep client target order now later).Holds client name := by
  have connected := holds.connected
  unfold Daemon.threadStep at stays ⊢
  cases life : daemon.life client with
  | absent => exact holds
  | gone => exact holds
  | leaving departure =>
      simp only [life] at stays
      exfalso
      unfold Daemon.depart at stays
      split at stays <;>
        · dsimp only [Daemon.become] at stays
          rw [Function.update_self] at stays
          exact stays
  | serving =>
      dsimp only
      split
      · split
        · exact holds
        · rename_i frame rest queued
          have queue : ∀ waiting ∈ frame :: rest, ¬ waiting.Drops name :=
            fun waiting member => holds.inbox waiting (queued ▸ member)
          apply Daemon.Holds.handleFrame _ (queue frame List.mem_cons_self)
          refine ⟨holds.connected, holds.tables, ?_⟩
          dsimp only
          rw [Function.update_self]
          exact fun waiting member => queue waiting (List.mem_cons_of_mem _ member)
      · rename_i busy
        refine ⟨holds.connected, ?_, ?_⟩
        · change (daemon.broker.step (client, target)).tables.Holds client name
          rw [step_tables _ target busy]
          exact holds.tables
        · change ∀ frame ∈ (daemon.broker.step (client, target)).inbox client, _
          rw [step_inbox target busy]
          exact holds.inbox
  | reporting inquiry report =>
      dsimp only
      unfold Daemon.inquire
      split
      · exact holds.become rfl
      · split
        · exact holds.become rfl
        · exact holds
      · exact holds.become rfl
      · exact holds.become rfl
      · refine Daemon.Holds.become ?_ rfl
        exact ⟨holds.connected, holds.tables, holds.inbox⟩

/-- A client that stays keeps the names that it does not drop itself. -/
theorem Daemon.Holds.step (holds : daemon.Holds client name) {action : DaemonAction Client}
    (stays : ((daemon.step action).life client).Stays)
    (kept : ∀ frame, action = .arrive client frame → ¬ frame.Drops name) :
    (daemon.step action).Holds client name := by
  have refl : daemon.SameFor client daemon := .refl client daemon
  cases action with
  | connect actor =>
      simp only [Daemon.step]
      split
      · rename_i absent
        have different : client ≠ actor := by
          rintro rfl
          have connected := holds.connected
          rw [absent] at connected
          cases connected
        exact holds.of_same ⟨Function.update_of_ne different .., rfl, rfl, .refl client _⟩
      · exact holds
  | arrive actor frame =>
      refine ⟨holds.connected, holds.tables, ?_⟩
      dsimp only [Daemon.step]
      by_cases mine : client = actor
      · subst actor
        rw [Function.update_self]
        intro waiting member
        rcases List.mem_append.mp member with before | last
        · exact holds.inbox waiting before
        · rw [List.mem_singleton.mp last]
          exact kept frame rfl
      · rw [Function.update_of_ne mine]
        exact holds.inbox
  | thread actor target order now later =>
      by_cases mine : client = actor
      · subst actor
        exact holds.threadStep target order now later stays
      · exact holds.of_same (threadStep_other mine daemon target order now later)
  | hangUp actor =>
      simp only [Daemon.step] at stays ⊢
      split
      · rename_i serving idle
        by_cases mine : client = actor
        · subst actor
          simp only [serving, idle, Daemon.become, Function.update_self] at stays
          exact stays.elim
        · exact holds.of_same (refl.become mine _)
      · exact holds
  | sweep order read => exact holds.of_same ⟨rfl, rfl, rfl, .refl client _⟩

end Chappe
