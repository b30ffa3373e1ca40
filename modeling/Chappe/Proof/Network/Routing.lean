/-
This file proves how the daemon routes the publishes of one client to another one that stays
connected and keeps its subscriptions.
-/

import Chappe.Construction.Network
import Chappe.Proof.Daemon.Indices
import Chappe.Proof.Network.Matching

namespace Chappe
open Foundation

section Tables

variable {Client : Type} {tables : Tables Client}

/-- The tables have the same entries for the client. -/
structure Tables.SameFor (client : Client) (tables changed : Tables Client) : Prop where
  topics : ∀ name, client ∈ changed.subs.members name ↔ client ∈ tables.subs.members name
  patterns : ∀ name,
    client ∈ changed.patternSubs.members name ↔ client ∈ tables.patternSubs.members name

theorem Tables.SameFor.refl (client : Client) (tables : Tables Client) :
    tables.SameFor client tables := ⟨fun _ => Iff.rfl, fun _ => Iff.rfl⟩

variable [DecidableEq Client]

/-- The client is registered for the name. -/
def Tables.Holds (tables : Tables Client) (client : Client) (name : Bytes) : Prop :=
  if topicHasWildcard name then client ∈ tables.patternSubs.members name
  else client ∈ tables.subs.members name

instance Tables.Holds.decidable (tables : Tables Client) (client : Client) (name : Bytes) :
    Decidable (tables.Holds client name) := by
  unfold Tables.Holds
  infer_instance

omit [DecidableEq Client] in
theorem Tables.SameFor.holds {client : Client} {changed : Tables Client}
    (same : tables.SameFor client changed) (name : Bytes) :
    changed.Holds client name ↔ tables.Holds client name := by
  unfold Tables.Holds
  split
  · exact same.patterns name
  · exact same.topics name

theorem mem_targets {client : Client} {topic : Bytes} : client ∈ tables.targets topic ↔
    client ∈ tables.subs.members topic ∨
      ∃ pattern, client ∈ tables.patternSubs.members pattern ∧
        topicMatches pattern topic = true := by
  simp only [Tables.targets, Finset.mem_union, Registry.matching, Finset.mem_biUnion,
    Finset.mem_filter]
  constructor
  · rintro (exact' | ⟨pattern, ⟨-, matched⟩, member⟩)
    · exact .inl exact'
    · exact .inr ⟨pattern, member, matched⟩
  · rintro (exact' | ⟨pattern, member, matched⟩)
    · exact .inl exact'
    · exact .inr ⟨pattern, ⟨Registry.mem_keys member, matched⟩, member⟩

/-- A client is routed the topics of its exact handlers. -/
theorem Tables.Holds.topic {client : Client} {topic : Bytes} (holds : tables.Holds client topic) :
    client ∈ tables.targets topic := by
  unfold Tables.Holds at holds
  rw [mem_targets]
  split at holds
  · exact .inr ⟨topic, holds, topicMatches_self topic⟩
  · exact .inl holds

/-- A client is routed the topics of its pattern handlers. -/
theorem Tables.Holds.pattern {client : Client} {pattern topic : Bytes}
    (holds : tables.Holds client pattern) (matched : topicMatches pattern topic = true) :
    client ∈ tables.targets topic := by
  unfold Tables.Holds at holds
  rw [mem_targets]
  split at holds
  · exact .inr ⟨pattern, holds, matched⟩
  · rename_i plain
    rw [topicMatches_plain (Bool.eq_false_of_not_eq_true plain) matched]
    exact .inl holds

theorem Tables.SameFor.targets {client : Client} {changed : Tables Client}
    (same : tables.SameFor client changed) (topic : Bytes) :
    client ∈ changed.targets topic ↔ client ∈ tables.targets topic := by
  simp only [mem_targets, same.topics, same.patterns]

theorem Tables.SameFor.subscribe {client other : Client} (different : client ≠ other)
    (name : Bytes) : tables.SameFor client (tables.subscribe other name) := by
  unfold Tables.subscribe
  split
  · refine ⟨fun _ => Iff.rfl, fun found => ?_⟩
    rw [Registry.mem_add]
    tauto
  · refine ⟨fun found => ?_, fun _ => Iff.rfl⟩
    rw [Registry.mem_add]
    tauto

theorem Tables.SameFor.unsubscribe {client other : Client} (different : client ≠ other)
    (name : Bytes) : tables.SameFor client (tables.unsubscribe other name) := by
  unfold Tables.unsubscribe
  split
  · refine ⟨fun _ => Iff.rfl, fun found => ?_⟩
    rw [Registry.mem_remove]
    tauto
  · refine ⟨fun found => ?_, fun _ => Iff.rfl⟩
    rw [Registry.mem_remove]
    tauto

theorem Tables.SameFor.removeClient {client other : Client} (different : client ≠ other) :
    tables.SameFor client (tables.removeClient other) := by
  unfold Tables.removeClient
  refine ⟨fun found => ?_, fun found => ?_⟩
  · rw [Registry.mem_removeAll]
    tauto
  · rw [Registry.mem_removeAll]
    tauto

end Tables

variable {Client : Type} {daemon : Daemon Client} {client other : Client}

/-- The client is connected and its thread has no subscription left to handle. -/
structure Daemon.Settled (client : Client) (daemon : Daemon Client) : Prop where
  stays : (daemon.life client).connected = true ∧ (daemon.life client).Stays
  handled : ∀ frame ∈ daemon.broker.inbox client, frame.isSubscription = false

/-- A step of one thread leaves another client alone. -/
structure Daemon.SameFor (client : Client) (daemon next : Daemon Client) : Prop where
  life : next.life client = daemon.life client
  thread : next.broker.thread client = daemon.broker.thread client
  inbox : next.broker.inbox client = daemon.broker.inbox client
  tables : daemon.broker.tables.SameFor client next.broker.tables

theorem Daemon.SameFor.refl (client : Client) (daemon : Daemon Client) :
    daemon.SameFor client daemon := ⟨rfl, rfl, rfl, .refl client _⟩

theorem Daemon.SameFor.deliver {next : Daemon Client} (same : daemon.SameFor other next)
    (outbox : Outbox Client) : daemon.SameFor other (next.deliver outbox) :=
  ⟨same.life, same.thread, same.inbox, same.tables⟩

theorem Daemon.Settled.of_same {next : Daemon Client} (settled : daemon.Settled client)
    (same : daemon.SameFor client next) : next.Settled client := by
  refine ⟨?_, ?_⟩
  · rw [same.life]
    exact settled.stays
  · rw [same.inbox]
    exact settled.handled

variable [DecidableEq Client]

theorem Daemon.SameFor.become {next : Daemon Client} (same : daemon.SameFor other next)
    (different : other ≠ client) (life : Life) : daemon.SameFor other (next.become client life) :=
  ⟨(Function.update_of_ne different ..).trans same.life, same.thread, same.inbox, same.tables⟩

theorem begin_other (different : other ≠ client) (broker : Broker Client) (frame : Frame) :
    (broker.begin client frame).thread other = broker.thread other ∧
      (broker.begin client frame).inbox = broker.inbox ∧
      broker.tables.SameFor other (broker.begin client frame).tables := by
  have goto (place : Thread Client) :
      Function.update broker.thread client place other = broker.thread other :=
    Function.update_of_ne different ..
  unfold Broker.begin
  split
  · exact ⟨goto _, rfl, .subscribe different frame.name⟩
  · exact ⟨rfl, rfl, .unsubscribe different frame.name⟩
  · exact ⟨goto _, rfl, .refl other _⟩
  · exact ⟨goto _, rfl, .refl other _⟩
  · exact ⟨rfl, rfl, .refl other _⟩

theorem handleFrame_other_client {next : Daemon Client} (same : daemon.SameFor other next)
    (different : other ≠ client) (frame : Frame) (now later : Nat) :
    daemon.SameFor other (next.handleFrame client frame now later) := by
  have begun : daemon.SameFor other { next with broker := next.broker.begin client frame } := by
    obtain ⟨thread, inbox, tables⟩ := begin_other different next.broker frame
    refine ⟨same.life, thread.trans same.thread, (congrFun inbox other).trans same.inbox, ?_⟩
    exact ⟨fun name => (tables.topics name).trans (same.tables.topics name),
      fun name => (tables.patterns name).trans (same.tables.patterns name)⟩
  unfold Daemon.handleFrame
  split
  · exact same.deliver _
  · split
    · exact same
    · exact same.become different _
  · exact begun
  · exact begun
  · exact begun
  · exact begun
  · exact ⟨same.life, same.thread, same.inbox, same.tables⟩

theorem step_thread_other (broker : Broker Client) (target : Client)
    (busy : broker.thread client ≠ .idle) (different : other ≠ client) :
    (broker.step (client, target)).thread other = broker.thread other := by
  have goto (place : Thread Client) :
      Function.update broker.thread client place other = broker.thread other :=
    Function.update_of_ne different ..
  unfold Broker.step
  cases here : broker.thread client with
  | idle => exact absurd here busy
  | registered topic =>
      dsimp only
      split <;> exact goto _
  | replaying topic value => exact goto _
  | routing frame retain targets remaining =>
      dsimp only
      split
      · exact goto _
      · split
        · split <;> exact goto _
        · rfl

/-- The thread of one client leaves the others alone. -/
theorem threadStep_other (different : other ≠ client) (daemon : Daemon Client) (target : Client)
    (order : List Bytes) (now later : Nat) :
    daemon.SameFor other (daemon.threadStep client target order now later) := by
  have same : daemon.SameFor other daemon := .refl other daemon
  unfold Daemon.threadStep
  split
  · exact same
  · exact same
  · split
    · split
      · exact same
      · rename_i frame rest _
        apply handleFrame_other_client _ different
        exact ⟨rfl, rfl, Function.update_of_ne different .., .refl other _⟩
    · rename_i busy
      refine ⟨rfl, step_thread_other _ target busy different, ?_, ?_⟩
      · exact congrFun (step_inbox target busy) other
      · change daemon.broker.tables.SameFor other (daemon.broker.step (client, target)).tables
        rw [step_tables _ target busy]
        exact .refl other _
  · rename_i inquiry report _
    unfold Daemon.inquire
    split
    · exact same.become different _
    · split
      · exact same.become different _
      · exact same
    · exact same.become different _
    · exact same.become different _
    · exact (same.deliver _).become different _
  · rename_i departure _
    unfold Daemon.depart
    split
    · exact ⟨Function.update_of_ne different .., rfl, rfl, .removeClient different⟩
    · exact ⟨Function.update_of_ne different .., rfl, rfl, .refl other _⟩
    · exact same.become different _
    · exact ⟨Function.update_of_ne different .., rfl, rfl, .refl other _⟩

/-- A frame that is not about a subscription leaves the tables and keeps its client. -/
theorem Daemon.Settled.handleFrame (settled : daemon.Settled client) {frame : Frame}
    (other : frame.isSubscription = false) (now later : Nat) :
    (daemon.handleFrame client frame now later).Settled client ∧
      (daemon.handleFrame client frame now later).broker.tables = daemon.broker.tables := by
  unfold Frame.isSubscription at other
  unfold Daemon.handleFrame
  split
  · exact ⟨⟨settled.stays, settled.handled⟩, rfl⟩
  · split
    · exact ⟨settled, rfl⟩
    · refine ⟨⟨?_, settled.handled⟩, rfl⟩
      dsimp only [Daemon.become]
      rw [Function.update_self]
      exact ⟨rfl, True.intro⟩
  · rename_i kind
    simp [kind] at other
  · rename_i kind
    simp [kind] at other
  · rename_i kind
    simp only [Broker.begin, kind]
    exact ⟨⟨settled.stays, settled.handled⟩, rfl⟩
  · rename_i kind
    simp only [Broker.begin, kind]
    exact ⟨⟨settled.stays, settled.handled⟩, rfl⟩
  · exact ⟨⟨settled.stays, settled.handled⟩, rfl⟩

theorem Daemon.Settled.threadStep (settled : daemon.Settled client) (target : Client)
    (order : List Bytes) (now later : Nat) :
    (daemon.threadStep client target order now later).Settled client ∧
      (daemon.threadStep client target order now later).broker.tables = daemon.broker.tables := by
  obtain ⟨connected, stays⟩ := settled.stays
  unfold Daemon.threadStep
  cases life : daemon.life client with
  | absent => exact ⟨settled, rfl⟩
  | gone => exact ⟨settled, rfl⟩
  | leaving departure =>
      rw [life] at stays
      exact stays.elim
  | serving =>
      dsimp only
      split
      · split
        · exact ⟨settled, rfl⟩
        · rename_i frame rest queued
          have within : ∀ later ∈ frame :: rest, later.isSubscription = false :=
            fun later member => settled.handled later (queued ▸ member)
          apply Daemon.Settled.handleFrame _ (within frame List.mem_cons_self) now later
          refine ⟨settled.stays, ?_⟩
          dsimp only
          rw [Function.update_self]
          exact fun later member => within later (List.mem_cons_of_mem _ member)
      · rename_i busy
        refine ⟨⟨settled.stays, ?_⟩, step_tables _ target busy⟩
        change ∀ frame ∈ (daemon.broker.step (client, target)).inbox client, _
        rw [step_inbox target busy]
        exact settled.handled
  | reporting inquiry report =>
      have become {next : Daemon Client} {life : Life} (handled : next.Settled client)
          (connected : life.connected = true) (stays : life.Stays) :
          (next.become client life).Settled client := by
        refine ⟨?_, handled.handled⟩
        dsimp only [Daemon.become]
        rw [Function.update_self]
        exact ⟨connected, stays⟩
      dsimp only
      unfold Daemon.inquire
      split
      · exact ⟨become settled rfl True.intro, rfl⟩
      · split
        · exact ⟨become settled rfl True.intro, rfl⟩
        · exact ⟨settled, rfl⟩
      · exact ⟨become settled rfl True.intro, rfl⟩
      · exact ⟨become settled rfl True.intro, rfl⟩
      · exact ⟨become ⟨settled.stays, settled.handled⟩ rfl True.intro, rfl⟩

/-- A client that does not hang up and sends nothing about its subscriptions keeps them. -/
theorem Daemon.Settled.step (settled : daemon.Settled client) {action : DaemonAction Client}
    (stays : action ≠ .hangUp client)
    (handled : ∀ frame, action = .arrive client frame → frame.isSubscription = false) :
    (daemon.step action).Settled client ∧
      daemon.broker.tables.SameFor client (daemon.step action).broker.tables := by
  have kept {next : Daemon Client} (same : daemon.SameFor client next) :
      next.Settled client ∧ daemon.broker.tables.SameFor client next.broker.tables :=
    ⟨settled.of_same same, same.tables⟩
  have refl : daemon.SameFor client daemon := .refl client daemon
  cases action with
  | connect actor =>
      simp only [Daemon.step]
      split
      · rename_i absent
        have different : client ≠ actor := by
          rintro rfl
          have connected := settled.stays.1
          rw [absent] at connected
          cases connected
        exact kept ⟨Function.update_of_ne different .., rfl, rfl, .refl client _⟩
      · exact kept refl
  | arrive actor frame =>
      simp only [Daemon.step]
      refine ⟨⟨settled.stays, ?_⟩, .refl client _⟩
      dsimp only
      by_cases mine : client = actor
      · subst actor
        rw [Function.update_self]
        intro later member
        rcases List.mem_append.mp member with before | last
        · exact settled.handled later before
        · rw [List.mem_singleton.mp last]
          exact handled frame rfl
      · rw [Function.update_of_ne mine]
        exact settled.handled
  | thread actor target order now later =>
      simp only [Daemon.step]
      by_cases mine : client = actor
      · subst actor
        obtain ⟨next, same⟩ := settled.threadStep target order now later
        refine ⟨next, ?_⟩
        rw [same]
        exact .refl client _
      · exact kept (threadStep_other mine daemon target order now later)
  | hangUp actor =>
      have different : client ≠ actor := by
        rintro rfl
        exact stays rfl
      simp only [Daemon.step]
      split
      · exact kept (refl.become different _)
      · exact kept refl
  | sweep order read => exact kept ⟨rfl, rfl, rfl, .refl client _⟩

/-- The daemon only appends to what it has written to a client. -/
def Daemon.Extends (client : Client) (daemon next : Daemon Client) : Prop :=
  ∃ extra, next.broker.sent client = daemon.broker.sent client ++ extra

omit [DecidableEq Client] in
theorem Daemon.Extends.of_eq {next : Daemon Client}
    (same : next.broker.sent client = daemon.broker.sent client) : daemon.Extends client next :=
  ⟨[], same.trans (List.append_nil _).symm⟩

omit [DecidableEq Client] in
theorem deliver_extends (daemon : Daemon Client) (outbox : Outbox Client) (client : Client) :
    daemon.Extends client (daemon.deliver outbox) := by
  by_cases connected : (daemon.life client).connected
  · exact ⟨outbox client, if_pos connected⟩
  · exact .of_eq (if_neg connected)

theorem step_extends (broker : Broker Client) {actor : Client} (target : Client)
    (busy : broker.thread actor ≠ .idle) (client : Client) :
    ∃ extra, (broker.step (actor, target)).sent client = broker.sent client ++ extra := by
  have sendTo (receiver : Client) (frame : Frame) :
      ∃ extra, (broker.sendTo receiver frame).sent client = broker.sent client ++ extra := by
    by_cases here : client = receiver
    · subst receiver
      exact ⟨[frame], Function.update_self ..⟩
    · exact ⟨[], (Function.update_of_ne here ..).trans (List.append_nil _).symm⟩
  have same : ∃ extra, broker.sent client = broker.sent client ++ extra :=
    ⟨[], (List.append_nil _).symm⟩
  unfold Broker.step
  cases place : broker.thread actor with
  | idle => exact absurd place busy
  | registered topic =>
      dsimp only
      split <;> exact same
  | replaying topic value => exact sendTo actor _
  | routing frame retain targets remaining =>
      dsimp only
      split
      · exact sendTo target _
      · split
        · split <;> exact same
        · exact same

theorem route_extends {actor : Client} (target : Client)
    (busy : daemon.broker.thread actor ≠ .idle) (client : Client) :
    daemon.Extends client (daemon.route (daemon.broker.step (actor, target))) := by
  by_cases connected : (daemon.life client).connected
  · obtain ⟨extra, sent⟩ := step_extends daemon.broker target busy client
    exact ⟨extra, (if_pos connected).trans sent⟩
  · exact .of_eq (if_neg connected)

theorem handleFrame_extends (daemon : Daemon Client) (actor : Client) (frame : Frame)
    (now later : Nat) (client : Client) :
    daemon.Extends client (daemon.handleFrame actor frame now later) := by
  have begun : daemon.Extends client { daemon with broker := daemon.broker.begin actor frame } :=
    .of_eq (congrFun (begin_sent daemon.broker actor frame) client)
  unfold Daemon.handleFrame
  split
  · exact deliver_extends _ _ client
  · split <;> exact .of_eq rfl
  · exact begun
  · exact begun
  · exact begun
  · exact begun
  · exact deliver_extends { daemon with
      store := (daemon.store.handleFrame now later actor frame).1 } _ client

theorem inquire_extends (daemon : Daemon Client) (actor : Client) (order : List Bytes)
    (report : Report) (inquiry : Inquiry) (client : Client) :
    daemon.Extends client (daemon.inquire actor order report inquiry) := by
  unfold Daemon.inquire
  split
  · exact .of_eq rfl
  · split <;> exact .of_eq rfl
  · exact .of_eq rfl
  · exact .of_eq rfl
  · exact deliver_extends daemon (.sendTo actor _) client

theorem depart_same (daemon : Daemon Client) (actor : Client) (departure : Departure) :
    (daemon.depart actor departure).broker.sent = daemon.broker.sent ∧
      (daemon.depart actor departure).broker.thread = daemon.broker.thread := by
  cases departure <;> exact ⟨rfl, rfl⟩

theorem threadStep_extends (daemon : Daemon Client) (actor target : Client) (order : List Bytes)
    (now later : Nat) (client : Client) :
    daemon.Extends client (daemon.threadStep actor target order now later) := by
  unfold Daemon.threadStep
  split
  · exact .of_eq rfl
  · exact .of_eq rfl
  · split
    · split
      · exact .of_eq rfl
      · exact handleFrame_extends _ actor _ now later client
    · rename_i busy
      exact route_extends target busy client
  · exact inquire_extends daemon actor order _ _ client
  · exact .of_eq (congrFun (depart_same daemon actor _).1 client)

theorem daemon_extends (daemon : Daemon Client) (action : DaemonAction Client) (client : Client) :
    daemon.Extends client (daemon.step action) := by
  cases action with
  | connect actor =>
      simp only [Daemon.step]
      split <;> exact .of_eq rfl
  | arrive actor frame => exact .of_eq rfl
  | thread actor target order now later =>
      exact threadStep_extends daemon actor target order now later client
  | hangUp actor =>
      simp only [Daemon.step]
      split <;> exact .of_eq rfl
  | sweep order read =>
      exact deliver_extends { daemon with store := (daemon.store.sweep read order).1 } _ client

/-- The write of its publish that a routing thread has still to make to the client. -/
def Thread.owes (client : Client) : Thread Client → List Frame
  | .routing frame _ _ remaining =>
      if client ∈ remaining then [Msg.publish.frame frame.name frame.payload] else []
  | _ => []

/-- The three things that a step can do to the publishes of the sender for the client. -/
inductive Daemon.Routes (sender client : Client) (daemon : Daemon Client)
    (action : DaemonAction Client) (next : Daemon Client) : Prop where
  | begins (frame : Frame) (begun : daemon.begins sender action = [frame])
      (before : (daemon.broker.thread sender).owes client = [])
      (after : (next.broker.thread sender).owes client =
        if client ∈ (daemon.broker.tables.targets frame.name).erase sender then
          [Msg.publish.frame frame.name frame.payload] else [])
      (sent : next.broker.sent client = daemon.broker.sent client)
  | writes (frame : Frame) (begun : daemon.begins sender action = [])
      (router : daemon.router action = some sender)
      (before : (daemon.broker.thread sender).owes client = [frame])
      (after : (next.broker.thread sender).owes client = [])
      (sent : (daemon.life client).connected = true →
        next.broker.sent client = daemon.broker.sent client ++ [frame])
  | rests (begun : daemon.begins sender action = [])
      (same : (next.broker.thread sender).owes client =
        (daemon.broker.thread sender).owes client)
      (sent : next.broker.sent client = daemon.broker.sent client ∨
        daemon.router action ≠ some sender ∧ daemon.Extends client next)

variable {sender : Client}

/-- A thread that is not routing rests, whatever its step writes. -/
theorem Daemon.Routes.rest {action : DaemonAction Client} {next : Daemon Client}
    (begun : daemon.begins sender action = [])
    (same : (next.broker.thread sender).owes client = (daemon.broker.thread sender).owes client)
    (router : daemon.router action = none) (grows : daemon.Extends client next) :
    Daemon.Routes sender client daemon action next :=
  .rests begun same (.inr ⟨by simp [router], grows⟩)

/-- The thread of the sender handles its next frame. -/
theorem routes_handleFrame {target : Client} {order : List Bytes} {now later : Nat}
    (serving : daemon.life sender = .serving)
    (idle : daemon.broker.thread sender = .idle) {frame : Frame} {rest : List Frame}
    (queued : daemon.broker.inbox sender = frame :: rest) :
    Daemon.Routes sender client daemon (.thread sender target order now later)
      (Daemon.handleFrame
        { daemon with
          broker := { daemon.broker with
            inbox := Function.update daemon.broker.inbox sender rest }
          named := insert frame.name daemon.named } sender frame now later) := by
  have router : daemon.router (.thread sender target order now later) = none := by
    simp only [Daemon.router, serving, idle]
  have none : (daemon.broker.thread sender).owes client = [] := by
    rw [idle]
    rfl
  have grows := handleFrame_extends { daemon with
    broker := { daemon.broker with inbox := Function.update daemon.broker.inbox sender rest }
    named := insert frame.name daemon.named } sender frame now later client
  by_cases publish : frame.isPublish
  · have begun : daemon.begins sender (.thread sender target order now later) = [frame] := by
      simp only [Daemon.begins, serving, idle, queued, publish, if_true]
    refine .begins frame begun none ?_ ?_
    · simp only [Frame.isPublish, Bool.or_eq_true, decide_eq_true_eq] at publish
      rcases publish with kind | kind
      · simp only [Daemon.handleFrame, kind, Broker.begin, Broker.goto, Function.update_self,
          Thread.owes]
      · simp only [Daemon.handleFrame, kind, Broker.begin, Broker.goto, Function.update_self,
          Thread.owes]
    · simp only [Frame.isPublish, Bool.or_eq_true, decide_eq_true_eq] at publish
      rcases publish with kind | kind
      · simp only [Daemon.handleFrame, kind, Broker.begin, Broker.goto]
      · simp only [Daemon.handleFrame, kind, Broker.begin, Broker.goto]
  · have begun : daemon.begins sender (.thread sender target order now later) = [] := by
      simp only [Daemon.begins, serving, idle, queued, publish, Bool.false_eq_true, if_false,
        ite_self]
    refine .rest begun ?_ router grows
    rw [none]
    simp only [Frame.isPublish, Bool.or_eq_true, decide_eq_true_eq, not_or] at publish
    unfold Daemon.handleFrame
    split
    · exact none
    · split <;> exact none
    · rename_i kind
      simp only [Broker.begin, kind, Broker.goto, Function.update_self]
      split <;> rfl
    · rename_i kind
      simp only [Broker.begin, kind]
      exact none
    · rename_i kind
      exact absurd kind publish.1
    · rename_i kind
      exact absurd kind publish.2
    · exact none

/-- The thread of the sender makes its next write or its last step. -/
theorem routes_route {target : Client} {order : List Bytes} {now later : Nat}
    (serving : daemon.life sender = .serving) (busy : daemon.broker.thread sender ≠ .idle) :
    Daemon.Routes sender client daemon (.thread sender target order now later)
      (daemon.route (daemon.broker.step (sender, target))) := by
  have begun : daemon.begins sender (.thread sender target order now later) = [] := by
    simp only [Daemon.begins, serving, if_true]
    split
    · rename_i idle _
      exact absurd idle busy
    · rfl
  have grows := route_extends target busy client
  cases place : daemon.broker.thread sender with
  | idle => exact absurd place busy
  | registered topic =>
      have router : daemon.router (.thread sender target order now later) = none := by
        simp only [Daemon.router, serving, place]
      refine .rest begun ?_ router grows
      simp only [Daemon.route, Broker.step, place]
      split <;> simp only [Broker.goto, Function.update_self, Thread.owes]
  | replaying topic value =>
      have router : daemon.router (.thread sender target order now later) = none := by
        simp only [Daemon.router, serving, place]
      refine .rest begun ?_ router grows
      simp only [Daemon.route, Broker.step, place, Broker.goto, Function.update_self, Thread.owes]
  | routing frame retain targets remaining =>
      by_cases among : target ∈ remaining
      · have router : daemon.router (.thread sender target order now later) = some sender := by
          simp only [Daemon.router, serving, place, among, if_true]
        by_cases mine : client = target
        · subst target
          refine .writes (Msg.publish.frame frame.name frame.payload) begun router ?_ ?_ ?_
          · rw [place, Thread.owes, if_pos among]
          · simp only [Daemon.route, Broker.step, place, among, if_true, Broker.goto,
              Function.update_self, Thread.owes, Finset.mem_erase, ne_eq, not_true_eq_false,
              false_and, if_false]
          · intro connected
            simp only [Daemon.route, Broker.step, place, among, if_true, connected, Broker.goto,
              Broker.sendTo, Function.update_self]
        · refine .rests begun ?_ (.inl ?_)
          · simp only [Daemon.route, Broker.step, place, among, if_true, Broker.goto,
              Function.update_self, Thread.owes, Finset.mem_erase, ne_eq, mine, not_false_eq_true,
              true_and]
          · simp only [Daemon.route, Broker.step, place, among, if_true, Broker.goto,
              Broker.sendTo, Function.update_of_ne mine, ite_self]
      · have router : daemon.router (.thread sender target order now later) = none := by
          simp only [Daemon.router, serving, place, among, if_false]
        refine .rest begun ?_ router grows
        simp only [Daemon.route, Broker.step, place, among, if_false]
        split
        · rename_i none
          subst remaining
          simp only [Broker.goto, Function.update_self, Thread.owes, Finset.notMem_empty, if_false]
        · rw [place]

/-- Every step of the daemon does one of the three things. -/
theorem daemon_routes (daemon : Daemon Client) (sender client : Client)
    (action : DaemonAction Client) :
    Daemon.Routes sender client daemon action (daemon.step action) := by
  have grows := daemon_extends daemon action client
  cases action with
  | connect actor =>
      refine .rest rfl ?_ rfl grows
      simp only [Daemon.step]
      split <;> rfl
  | arrive actor frame => exact .rest rfl rfl rfl grows
  | hangUp actor =>
      refine .rest rfl ?_ rfl grows
      simp only [Daemon.step]
      split <;> rfl
  | sweep order read => exact .rest rfl rfl rfl grows
  | thread actor target order now later =>
      by_cases mine : sender = actor
      · subst actor
        simp only [Daemon.step] at grows ⊢
        have moved (elsewhere : daemon.life sender ≠ .serving) :
            daemon.begins sender (.thread sender target order now later) = [] ∧
              daemon.router (.thread sender target order now later) = none := by
          constructor
          · simp only [Daemon.begins, if_true]
            split
            · rename_i serving _ _
              exact absurd serving elsewhere
            · rfl
          · simp only [Daemon.router]
            split
            · rename_i serving _
              exact absurd serving elsewhere
            · rfl
        unfold Daemon.threadStep at grows ⊢
        cases life : daemon.life sender with
        | absent =>
            obtain ⟨begun, router⟩ := moved (by simp [life])
            simp only [life] at grows ⊢
            exact .rest begun rfl router grows
        | gone =>
            obtain ⟨begun, router⟩ := moved (by simp [life])
            simp only [life] at grows ⊢
            exact .rest begun rfl router grows
        | leaving departure =>
            obtain ⟨begun, router⟩ := moved (by simp [life])
            simp only [life] at grows ⊢
            refine .rest begun ?_ router grows
            rw [(depart_same daemon sender departure).2]
        | reporting inquiry report =>
            obtain ⟨begun, router⟩ := moved (by simp [life])
            simp only [life] at grows ⊢
            refine .rest begun ?_ router grows
            unfold Daemon.inquire
            split
            · rfl
            · split <;> rfl
            · rfl
            · rfl
            · rfl
        | serving =>
            simp only [life] at grows ⊢
            split
            · rename_i idle
              cases queued : daemon.broker.inbox sender with
              | nil =>
                  refine .rests ?_ rfl (.inl rfl)
                  simp only [Daemon.begins, life, idle, queued, if_true]
              | cons frame rest => exact routes_handleFrame life idle queued
            · rename_i busy
              exact routes_route life busy
      · have same := threadStep_other mine daemon target order now later
        refine .rests ?_ ?_ (.inr ⟨?_, grows⟩)
        · simp only [Daemon.begins, Ne.symm mine, if_false]
        · simp only [Daemon.step, same.thread]
        · simp only [Daemon.router]
          split
          · split
            · exact fun equal => mine (Option.some.inj equal).symm
            · simp
          · simp

theorem handleFrame_inbox (daemon : Daemon Client) (actor : Client) (frame : Frame)
    (now later : Nat) :
    (daemon.handleFrame actor frame now later).broker.inbox = daemon.broker.inbox := by
  have begun : (daemon.broker.begin actor frame).inbox = daemon.broker.inbox := by
    unfold Broker.begin
    split <;> rfl
  unfold Daemon.handleFrame
  split
  · rfl
  · split <;> rfl
  · exact begun
  · exact begun
  · exact begun
  · exact begun
  · rfl

/-- The daemon takes the publishes of a client in their order. -/
theorem daemon_inbox (daemon : Daemon Client) (sender : Client) {action : DaemonAction Client}
    (silent : ∀ frame, action ≠ .arrive sender frame) :
    (daemon.broker.inbox sender).filter Frame.isPublish = daemon.begins sender action ++
      ((daemon.step action).broker.inbox sender).filter Frame.isPublish := by
  cases action with
  | connect actor =>
      simp only [Daemon.step]
      split <;> rfl
  | arrive actor frame =>
      have different : sender ≠ actor := by
        rintro rfl
        exact silent frame rfl
      simp only [Daemon.step, Daemon.begins, Function.update_of_ne different, List.nil_append]
  | hangUp actor =>
      simp only [Daemon.step]
      split <;> rfl
  | sweep order read => rfl
  | thread actor target order now later =>
      by_cases mine : sender = actor
      · subst actor
        simp only [Daemon.step, Daemon.threadStep, Daemon.begins, if_true]
        cases life : daemon.life sender with
        | absent => rfl
        | gone => rfl
        | leaving departure => cases departure <;> rfl
        | reporting inquiry report =>
            dsimp only
            unfold Daemon.inquire
            split
            · rfl
            · split <;> rfl
            · rfl
            · rfl
            · rfl
        | serving =>
            cases place : daemon.broker.thread sender with
            | idle =>
                cases queued : daemon.broker.inbox sender with
                | nil =>
                    dsimp only
                    rw [queued]
                    rfl
                | cons frame rest =>
                    dsimp only
                    rw [handleFrame_inbox]
                    dsimp only
                    rw [Function.update_self, List.filter_cons]
                    split <;> rfl
            | registered _ | replaying _ _ | routing _ _ _ _ =>
                have busy : daemon.broker.thread sender ≠ .idle := by simp [place]
                dsimp only [Daemon.route]
                rw [step_inbox target busy]
                rfl
      · rw [Daemon.begins, if_neg (Ne.symm mine), Daemon.step,
          (threadStep_other mine daemon target order now later).inbox]
        rfl

end Chappe
