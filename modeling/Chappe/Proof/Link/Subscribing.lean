/-
This file proves which topics the daemon routes to a client that subscribes and never unsubscribes.
-/

import Chappe.Construction.LinkPair
import Chappe.Proof.Network.Routing

namespace Chappe
open Foundation

variable {Client : Type} {daemon : Daemon Client} {client : Client} {names : List Bytes}

/-- The client has asked for the names and for no other name. It holds each name, or its thread has
still to handle the subscription. -/
structure Daemon.Subscribes (client : Client) (names : List Bytes) (daemon : Daemon Client) :
    Prop where
  stays : (daemon.life client).Stays
  asks : ∀ frame ∈ daemon.broker.inbox client, frame.isSubscription = true →
    frame.msg = some .subscribe ∧ frame.name ∈ names
  exact : ∀ name, client ∈ daemon.broker.tables.subs.members name → name ∈ names
  patterns : ∀ name, client ∈ daemon.broker.tables.patternSubs.members name → name ∈ names
  held : ∀ name ∈ names, daemon.broker.tables.Holds client name ∨
    ∃ frame ∈ daemon.broker.inbox client, frame.msg = some .subscribe ∧ frame.name = name

theorem Daemon.Subscribes.initial (client : Client) :
    (Daemon.initial : Daemon Client).Subscribes client [] where
  stays := True.intro
  asks := by simp [Daemon.initial]
  exact := by simp [Daemon.initial, Tables.empty, Registry.members]
  patterns := by simp [Daemon.initial, Tables.empty, Registry.members]
  held := by simp

theorem Daemon.Subscribes.of_same {next : Daemon Client}
    (subscribes : daemon.Subscribes client names) (same : daemon.SameFor client next) :
    next.Subscribes client names where
  stays := same.life ▸ subscribes.stays
  asks := same.inbox ▸ subscribes.asks
  exact := fun name member => subscribes.exact name ((same.tables.topics name).mp member)
  patterns := fun name member => subscribes.patterns name ((same.tables.patterns name).mp member)
  held := by
    intro name member
    rw [same.tables.holds, same.inbox]
    exact subscribes.held name member

variable [DecidableEq Client]

/-- A client whose subscriptions are handled is routed what one of its names matches. -/
theorem Daemon.Subscribes.target (subscribes : daemon.Subscribes client names)
    (settled : daemon.Settled client) (topic : Bytes) :
    client ∈ daemon.broker.tables.targets topic ↔
      ∃ name ∈ names, topicMatches name topic = true := by
  constructor
  · intro target
    rcases mem_targets.mp target with exact' | ⟨pattern, member, matched⟩
    · exact ⟨topic, subscribes.exact topic exact', topicMatches_self topic⟩
    · exact ⟨pattern, subscribes.patterns pattern member, matched⟩
  · rintro ⟨name, member, matched⟩
    rcases subscribes.held name member with holds | ⟨frame, queued, kind, -⟩
    · exact holds.pattern matched
    · have handled := settled.handled frame queued
      simp [Frame.isSubscription, kind] at handled

theorem handleFrame_tables (daemon : Daemon Client) (actor : Client) (frame : Frame)
    (now later : Nat) : (daemon.handleFrame actor frame now later).broker.tables =
      (daemon.broker.begin actor frame).tables := by
  unfold Daemon.handleFrame Broker.begin
  split
  · rename_i kind
    simp only [kind]
    rfl
  · rename_i kind
    simp only [kind]
    split <;> rfl
  · rfl
  · rfl
  · rfl
  · rfl
  · rename_i subscribe unsubscribe publish retain
    split
    · exact absurd ‹_› subscribe
    · exact absurd ‹_› unsubscribe
    · exact absurd ‹_› publish
    · exact absurd ‹_› retain
    · rfl

/-- The thread of the client takes the next frame of the client. -/
theorem Daemon.Subscribes.handleFrame (subscribes : daemon.Subscribes client names)
    {frame : Frame} {rest : List Frame} (queued : daemon.broker.inbox client = frame :: rest)
    {next : Daemon Client} (life : (next.life client).Stays)
    (inbox : next.broker.inbox client = rest) {broker : Broker Client}
    (same : broker.tables = daemon.broker.tables)
    (tables : next.broker.tables = (broker.begin client frame).tables) :
    next.Subscribes client names := by
  have asked (about : frame.isSubscription = true) :=
    subscribes.asks frame (queued ▸ List.mem_cons_self) about
  have asks : ∀ later ∈ next.broker.inbox client, later.isSubscription = true →
      later.msg = some .subscribe ∧ later.name ∈ names := by
    intro later member
    rw [inbox] at member
    exact subscribes.asks later (queued ▸ List.mem_cons_of_mem _ member)
  have held : ∀ name ∈ names, daemon.broker.tables.Holds client name ∨
      (frame.msg = some .subscribe ∧ frame.name = name) ∨
      ∃ later ∈ next.broker.inbox client, later.msg = some .subscribe ∧ later.name = name := by
    intro name member
    rcases subscribes.held name member with holds | ⟨later, waits, about⟩
    · exact .inl holds
    · rw [queued] at waits
      rcases List.mem_cons.mp waits with rfl | after
      · exact .inr (.inl about)
      · exact .inr (.inr ⟨later, inbox ▸ after, about⟩)
  by_cases kind : frame.msg = some .subscribe
  · have named := (asked (by simp [Frame.isSubscription, kind])).2
    have changed : next.broker.tables = daemon.broker.tables.subscribe client frame.name := by
      rw [tables, ← same]
      simp only [Broker.begin, kind]
      rfl
    refine ⟨life, asks, ?_, ?_, ?_⟩
    · intro name member
      rw [changed] at member
      unfold Tables.subscribe at member
      split at member
      · exact subscribes.exact name member
      · rcases (Registry.mem_add ..).mp member with before | ⟨rfl, -⟩
        · exact subscribes.exact name before
        · exact named
    · intro name member
      rw [changed] at member
      unfold Tables.subscribe at member
      split at member
      · rcases (Registry.mem_add ..).mp member with before | ⟨rfl, -⟩
        · exact subscribes.patterns name before
        · exact named
      · exact subscribes.patterns name member
    · intro name member
      rw [changed]
      rcases held name member with holds | ⟨-, rfl⟩ | later
      · left
        unfold Tables.Holds at holds ⊢
        unfold Tables.subscribe
        split at holds
        · rename_i wildcard
          rw [if_pos wildcard]
          split
          · exact (Registry.mem_add ..).mpr (.inl holds)
          · exact holds
        · rename_i plain
          rw [if_neg plain]
          split
          · exact holds
          · exact (Registry.mem_add ..).mpr (.inl holds)
      · left
        unfold Tables.Holds Tables.subscribe
        split
        · exact (Registry.mem_add ..).mpr (.inr ⟨rfl, rfl⟩)
        · exact (Registry.mem_add ..).mpr (.inr ⟨rfl, rfl⟩)
      · exact .inr later
  · have changed : next.broker.tables = daemon.broker.tables := by
      rw [tables, ← same]
      unfold Broker.begin
      split
      · exact absurd ‹_› kind
      · rename_i unsubscribe
        exact absurd (asked (by simp [Frame.isSubscription, unsubscribe])).1 kind
      · rfl
      · rfl
      · rfl
    refine ⟨life, asks, changed ▸ subscribes.exact, changed ▸ subscribes.patterns, ?_⟩
    intro name member
    rw [changed]
    rcases held name member with holds | ⟨subscribe, -⟩ | later
    · exact .inl holds
    · exact absurd subscribe kind
    · exact .inr later

theorem Daemon.Subscribes.threadStep (subscribes : daemon.Subscribes client names)
    (target : Client) (order : List Bytes) (now later : Nat) :
    (daemon.threadStep client target order now later).Subscribes client names := by
  have stays := subscribes.stays
  have kept {next : Daemon Client} (life : (next.life client).Stays)
      (inbox : next.broker.inbox = daemon.broker.inbox)
      (tables : next.broker.tables = daemon.broker.tables) : next.Subscribes client names :=
    ⟨life, inbox ▸ subscribes.asks, tables ▸ subscribes.exact, tables ▸ subscribes.patterns,
      inbox ▸ tables ▸ subscribes.held⟩
  have becomes {next : Daemon Client} {life : Life} (stays : life.Stays) :
      ((next.become client life).life client).Stays := by
    dsimp only [Daemon.become]
    rwa [Function.update_self]
  unfold Daemon.threadStep
  cases life : daemon.life client with
  | absent => exact subscribes
  | gone => exact subscribes
  | leaving departure =>
      rw [life] at stays
      exact stays.elim
  | serving =>
      dsimp only
      split
      · split
        · exact subscribes
        · rename_i frame rest queued
          refine subscribes.handleFrame queued ?_ ?_ ?_
            (handleFrame_tables _ client frame now later)
          · unfold Daemon.handleFrame
            split
            · exact stays
            · split
              · exact stays
              · exact becomes True.intro
            · exact stays
            · exact stays
            · exact stays
            · exact stays
            · exact stays
          · rw [handleFrame_inbox]
            exact Function.update_self ..
          · rfl
      · rename_i busy
        exact kept stays (step_inbox target busy) (step_tables _ target busy)
  | reporting inquiry report =>
      dsimp only
      unfold Daemon.inquire
      split
      · exact kept (becomes True.intro) rfl rfl
      · split
        · exact kept (becomes True.intro) rfl rfl
        · exact subscribes
      · exact kept (becomes True.intro) rfl rfl
      · exact kept (becomes True.intro) rfl rfl
      · exact kept (becomes True.intro) rfl rfl

/-- The client does not hang up and sends nothing about its subscriptions. -/
theorem Daemon.Subscribes.step (subscribes : daemon.Subscribes client names)
    {action : DaemonAction Client} (stays : action ≠ .hangUp client)
    (handled : ∀ frame, action = .arrive client frame → frame.isSubscription = false) :
    (daemon.step action).Subscribes client names := by
  have refl : daemon.SameFor client daemon := .refl client daemon
  cases action with
  | connect actor =>
      simp only [Daemon.step]
      split
      · refine ⟨?_, subscribes.asks, subscribes.exact, subscribes.patterns, subscribes.held⟩
        dsimp only [Daemon.become]
        by_cases mine : client = actor
        · subst actor
          rw [Function.update_self]
          exact True.intro
        · rw [Function.update_of_ne mine]
          exact subscribes.stays
      · exact subscribes
  | arrive actor frame =>
      by_cases mine : client = actor
      · subst actor
        simp only [Daemon.step]
        refine ⟨subscribes.stays, ?_, subscribes.exact, subscribes.patterns, ?_⟩
        · dsimp only
          rw [Function.update_self]
          intro later member about
          rcases List.mem_append.mp member with before | last
          · exact subscribes.asks later before about
          · rw [List.mem_singleton.mp last, handled frame rfl] at about
            cases about
        · dsimp only
          rw [Function.update_self]
          intro name member
          rcases subscribes.held name member with holds | ⟨later, waits, about⟩
          · exact .inl holds
          · exact .inr ⟨later, List.mem_append_left _ waits, about⟩
      · exact subscribes.of_same ⟨rfl, rfl, Function.update_of_ne mine .., .refl client _⟩
  | thread actor target order now later =>
      by_cases mine : client = actor
      · subst actor
        exact subscribes.threadStep target order now later
      · exact subscribes.of_same (threadStep_other mine daemon target order now later)
  | hangUp actor =>
      have different : client ≠ actor := by
        rintro rfl
        exact stays rfl
      simp only [Daemon.step]
      split
      · exact subscribes.of_same (refl.become different _)
      · exact subscribes
  | sweep order read => exact subscribes.of_same ⟨rfl, rfl, rfl, .refl client _⟩

/-- The client asks for one name more. -/
theorem Daemon.Subscribes.ask (subscribes : daemon.Subscribes client names) (name : Bytes) :
    (daemon.step (.arrive client (Msg.subscribe.frame name []))).Subscribes client
      (names ++ [name]) := by
  simp only [Daemon.step]
  refine ⟨subscribes.stays, ?_, ?_, ?_, ?_⟩
  · dsimp only
    rw [Function.update_self]
    intro later member about
    rcases List.mem_append.mp member with before | last
    · obtain ⟨kind, asked⟩ := subscribes.asks later before about
      exact ⟨kind, List.mem_append_left _ asked⟩
    · rw [List.mem_singleton.mp last]
      exact ⟨Msg.frame_msg .., List.mem_append_right _ (List.mem_singleton.mpr rfl)⟩
  · exact fun found member => List.mem_append_left _ (subscribes.exact found member)
  · exact fun found member => List.mem_append_left _ (subscribes.patterns found member)
  · dsimp only
    rw [Function.update_self]
    intro found member
    rcases List.mem_append.mp member with before | last
    · rcases subscribes.held found before with holds | ⟨later, waits, about⟩
      · exact .inl holds
      · exact .inr ⟨later, List.mem_append_left _ waits, about⟩
    · rw [List.mem_singleton.mp last]
      exact .inr ⟨_, List.mem_append_right _ (List.mem_singleton.mpr rfl), Msg.frame_msg .., rfl⟩

end Chappe
