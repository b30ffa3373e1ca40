/-
This file proves when the subscribers of a topic and its retained value end on the same publish.
-/

import Chappe.Proof.Broker.RetainedRace

namespace Chappe
open Foundation

variable {Client : Type}

/-- Clients publish retained values on a topic whose subscribers are in the tables. -/
def Broker.publishing (tables : Tables Client) (retained : Table Bytes Bytes) (topic : Bytes)
    (values : Client → List Bytes) : Broker Client where
  tables := tables
  retained := retained
  inbox := fun client => (values client).map (Msg.publishRetain.frame topic)
  thread := fun _ => .idle
  sent := fun _ => []

/-- A publish begins when no other one is between its snapshot and its store. -/
def BeginsAlone (broker : Broker Client) (action : Client × Client) : Prop :=
  broker.thread action.1 = .idle → broker.inbox action.1 ≠ [] →
    ∀ other, broker.thread other = .idle

/-- The publishes of a run go one after the other. The one under way has been written to the
subscribers that do not remain, and between two of them everyone agrees with the store. -/
structure Serving (start : Broker Client) (subscribed : Client → Prop) (topic : Bytes)
    (broker : Broker Client) : Prop where
  tables : broker.tables = start.tables
  retains : ∀ client, ∀ frame ∈ broker.inbox client, frame.Retains topic
  silent : ∀ client, subscribed client → broker.inbox client = []
  alone : ∀ first second, broker.thread first ≠ .idle → broker.thread second ≠ .idle →
    first = second
  routing : ∀ client, broker.thread client ≠ .idle → ∃ frame targets remaining,
    broker.thread client = .routing frame true targets remaining ∧ frame.Retains topic ∧
      ∀ subscriber, subscribed subscriber → subscriber ∉ remaining →
        broker.lastPublish subscriber topic = some frame.payload
  rest : (∀ client, broker.thread client = .idle) → broker.inbox = start.inbox ∨
    ∃ value, broker.retained topic = some value ∧
      ∀ subscriber, subscribed subscriber → broker.lastPublish subscriber topic = some value

variable [DecidableEq Client] {start broker : Broker Client} {subscribed : Client → Prop}
  {topic : Bytes} {client : Client}

/-- A client takes the snapshot of its next publish. -/
theorem Serving.begin (serving : Serving start subscribed topic broker)
    (targeted : ∀ subscriber, subscribed subscriber →
      subscriber ∈ start.tables.targets topic)
    (idle : ∀ other, broker.thread other = .idle) {frame : Frame} {rest : List Frame}
    (queued : broker.inbox client = frame :: rest) :
    Serving start subscribed topic (Broker.begin
      { broker with inbox := Function.update broker.inbox client rest } client frame) := by
  have retains := serving.retains client frame (queued ▸ List.mem_cons_self)
  have publisher : ¬ subscribed client := by
    intro subscriber
    rw [serving.silent client subscriber] at queued
    cases queued
  have begun : Broker.begin { broker with inbox := Function.update broker.inbox client rest }
      client frame = Broker.goto
        { broker with inbox := Function.update broker.inbox client rest } client
        (.routing frame true (broker.tables.targets frame.name)
          ((broker.tables.targets frame.name).erase client)) := by
    simp only [Broker.begin, retains.1]
  have busy (other : Client) : (Broker.goto
      { broker with inbox := Function.update broker.inbox client rest } client
        (.routing frame true (broker.tables.targets frame.name)
          ((broker.tables.targets frame.name).erase client))).thread other ≠ .idle →
      other = client := by
    intro busy
    by_contra different
    apply busy
    exact (Function.update_of_ne different ..).trans (idle other)
  rw [begun]
  refine ⟨serving.tables, ?_, ?_, ?_, ?_, ?_⟩
  · intro other later member
    by_cases mine : other = client
    · subst other
      dsimp only [Broker.goto] at member
      rw [Function.update_self] at member
      exact serving.retains client later (queued ▸ List.mem_cons_of_mem _ member)
    · dsimp only [Broker.goto] at member
      rw [Function.update_of_ne mine] at member
      exact serving.retains other later member
  · intro other subscriber
    have different : other ≠ client := by
      rintro rfl
      exact publisher subscriber
    exact (Function.update_of_ne different ..).trans (serving.silent other subscriber)
  · intro first second firstBusy secondBusy
    exact (busy first firstBusy).trans (busy second secondBusy).symm
  · intro other otherBusy
    obtain rfl := busy other otherBusy
    refine ⟨frame, _, _, Function.update_self .., retains, ?_⟩
    intro subscriber member apart
    have different : subscriber ≠ other := by
      rintro rfl
      exact publisher member
    rw [Finset.mem_erase, retains.2.1, serving.tables] at apart
    exact absurd ⟨different, targeted subscriber member⟩ apart
  · intro still
    have here := still client
    dsimp only [Broker.goto] at here
    rw [Function.update_self] at here
    cases here

/-- The publish under way is written to one more target. -/
theorem Serving.write (serving : Serving start subscribed topic broker) {frame : Frame}
    {targets remaining : Finset Client} {target : Client}
    (here : broker.thread client = .routing frame true targets remaining) :
    Serving start subscribed topic ((broker.sendTo target
      (Msg.publish.frame frame.name frame.payload)).goto client
        (.routing frame true targets (remaining.erase target))) := by
  have mine : broker.thread client ≠ .idle := by simp [here]
  obtain ⟨found, _, _, same, retains, written⟩ := serving.routing client mine
  rw [here] at same
  cases same
  have busy (other : Client) (otherBusy : ((broker.sendTo target
      (Msg.publish.frame frame.name frame.payload)).goto client
        (.routing frame true targets (remaining.erase target))).thread other ≠ .idle) :
      other = client := by
    by_contra different
    apply different
    apply serving.alone other client _ mine
    dsimp only [Broker.goto, Broker.sendTo] at otherBusy
    rw [Function.update_of_ne different] at otherBusy
    exact otherBusy
  refine ⟨serving.tables, serving.retains, serving.silent, ?_, ?_, ?_⟩
  · intro first second firstBusy secondBusy
    exact (busy first firstBusy).trans (busy second secondBusy).symm
  · intro other otherBusy
    obtain rfl := busy other otherBusy
    refine ⟨frame, targets, remaining.erase target, Function.update_self .., retains, ?_⟩
    intro subscriber member apart
    change (broker.sendTo target _).lastPublish subscriber topic = _
    by_cases now : subscriber = target
    · subst target
      rw [retains.2.1]
      exact lastPublish_append broker subscriber topic frame.payload
    · rw [lastPublish_other broker _ topic now]
      apply written subscriber member
      intro remains
      exact apart (Finset.mem_erase.mpr ⟨now, remains⟩)
  · intro still
    have there := still client
    dsimp only [Broker.goto] at there
    rw [Function.update_self] at there
    cases there

/-- The publish under way has been written to every target and is stored. -/
theorem Serving.store (serving : Serving start subscribed topic broker) {frame : Frame}
    {targets : Finset Client} (here : broker.thread client = .routing frame true targets ∅) :
    Serving start subscribed topic ((broker.retain frame).goto client .idle) := by
  have mine : broker.thread client ≠ .idle := by simp [here]
  obtain ⟨found, _, _, same, retains, written⟩ := serving.routing client mine
  rw [here] at same
  cases same
  have idle (other : Client) : ((broker.retain frame).goto client .idle).thread other = .idle := by
    by_cases same : other = client
    · subst other
      exact Function.update_self ..
    · refine (Function.update_of_ne same ..).trans ?_
      by_contra busy
      exact same (serving.alone other client busy mine)
  refine ⟨serving.tables, serving.retains, serving.silent, ?_, ?_, ?_⟩
  · intro first _ busy
    exact absurd (idle first) busy
  · intro other busy
    exact absurd (idle other) busy
  · intro _
    right
    refine ⟨frame.payload, ?_, ?_⟩
    · simp only [Broker.goto, Broker.retain, retains.2.2, if_false, retains.2.1]
      exact Table.insert_self ..
    · intro subscriber member
      exact written subscriber member (Finset.notMem_empty subscriber)

theorem Serving.step (targeted : ∀ subscriber, subscribed subscriber →
      subscriber ∈ start.tables.targets topic) (broker : Broker Client)
    (action : Client × Client) (serving : Serving start subscribed topic broker)
    (alone : BeginsAlone broker action) :
    Serving start subscribed topic (broker.step action) := by
  obtain ⟨actor, target⟩ := action
  unfold Broker.step
  cases place : broker.thread actor with
  | idle =>
      dsimp only
      split
      · exact serving
      · rename_i frame rest queued
        apply serving.begin targeted _ queued
        exact alone place (by simp [queued])
  | registered _ | replaying _ _ =>
      obtain ⟨_, _, _, same, -⟩ := serving.routing actor (by simp [place])
      rw [place] at same
      cases same
  | routing frame retain targets remaining =>
      obtain ⟨_, _, _, same, -⟩ := serving.routing actor (by simp [place])
      rw [place] at same
      cases same
      dsimp only
      split
      · exact serving.write place
      · split
        · rename_i none
          subst remaining
          exact serving.store place
        · exact serving

/-- When the retained publishes of a topic go one after the other, the last one that every
subscriber was sent is the one that the daemon retains. -/
theorem retained_agrees (tables : Tables Client) (retained : Table Bytes Bytes) (topic : Bytes)
    (values : Client → List Bytes) (nonempty : ∀ client, ∀ value ∈ values client, value ≠ [])
    (published : ∃ client, values client ≠ []) (actions : List (Client × Client))
    (alone : Meets Broker.step BeginsAlone (.publishing tables retained topic values) actions)
    (finished : (run Broker.step (.publishing tables retained topic values) actions).Finished) :
    ∃ value,
      (run Broker.step (.publishing tables retained topic values) actions).retained topic =
          some value ∧
        ∀ subscriber ∈ tables.targets topic, values subscriber = [] →
          (run Broker.step (.publishing tables retained topic values) actions).lastPublish
            subscriber topic = some value := by
  have first : Serving (.publishing tables retained topic values)
      (fun client => client ∈ tables.targets topic ∧ values client = []) topic
      (.publishing tables retained topic values) := by
    refine ⟨rfl, ?_, ?_, ?_, ?_, fun _ => .inl rfl⟩
    · intro client frame member
      obtain ⟨value, listed, rfl⟩ := List.mem_map.mp member
      exact ⟨rfl, rfl, nonempty client value listed⟩
    · intro client subscriber
      simp [Broker.publishing, subscriber.2]
    · exact fun _ _ busy => absurd rfl busy
    · exact fun _ busy => absurd rfl busy
  have serving := run_invariant_of_meets
    (Serving.step fun subscriber member => member.1) actions _ first alone
  rcases serving.rest fun client => (finished client).1 with same | ⟨value, stored, agreed⟩
  · obtain ⟨client, some⟩ := published
    have none := (congrFun same client).symm.trans (finished client).2
    simp [Broker.publishing, some] at none
  · exact ⟨value, stored, fun subscriber member silent => agreed subscriber ⟨member, silent⟩⟩

/-- The clients 0 and 3 are subscribed to the topic `[1]`, on which the clients 1 and 2 publish one
retained value each. -/
def twoPublishers : Broker (Fin 4) :=
  .publishing ((Tables.empty.subscribe 0 [1]).subscribe 3 [1]) .empty [1]
    fun client => if client = 1 then [[10]] else if client = 2 then [[20]] else []

/-- Both snapshots are taken first, and the writes and the stores cross. -/
def crossedWrites : List (Fin 4 × Fin 4) :=
  [(1, 0), (2, 0), (1, 0), (2, 0), (2, 3), (1, 3), (2, 0), (1, 0)]

/-- The subscribers end on different values. -/
theorem retained_disagrees :
    (run Broker.step twoPublishers crossedWrites).Finished ∧
      (run Broker.step twoPublishers crossedWrites).lastPublish 0 [1] = some [20] ∧
      (run Broker.step twoPublishers crossedWrites).lastPublish 3 [1] = some [10] ∧
      (run Broker.step twoPublishers crossedWrites).retained [1] = some [10] := by
  refine ⟨?_, by decide +kernel, by decide +kernel, by decide +kernel⟩
  intro client
  fin_cases client <;> exact ⟨rfl, rfl⟩

/-- The publishes go one after the other. -/
def serialWrites : List (Fin 4 × Fin 4) :=
  [(1, 0), (1, 0), (1, 3), (1, 0), (2, 0), (2, 0), (2, 3), (2, 0)]

theorem retained_agrees_small :
    ∃ value, (run Broker.step twoPublishers serialWrites).retained [1] = some value ∧
      (run Broker.step twoPublishers serialWrites).lastPublish 0 [1] = some value ∧
      (run Broker.step twoPublishers serialWrites).lastPublish 3 [1] = some value := by
  have alone : Meets Broker.step BeginsAlone twoPublishers serialWrites := by
    refine ⟨?_, ?_, ?_, ?_, ?_, ?_, ?_, ?_, True.intro⟩
    · intro _ _ other
      fin_cases other <;> rfl
    · exact fun busy => by cases busy
    · exact fun busy => by cases busy
    · exact fun busy => by cases busy
    · intro _ _ other
      fin_cases other <;> rfl
    · exact fun busy => by cases busy
    · exact fun busy => by cases busy
    · exact fun busy => by cases busy
  have finished : (run Broker.step twoPublishers serialWrites).Finished := by
    intro client
    fin_cases client <;> exact ⟨rfl, rfl⟩
  obtain ⟨value, stored, agreed⟩ := retained_agrees
    ((Tables.empty.subscribe 0 [1]).subscribe 3 [1]) .empty [1]
    (fun client : Fin 4 => if client = 1 then [[10]] else if client = 2 then [[20]] else [])
    (by decide) ⟨1, by decide⟩ serialWrites alone finished
  exact ⟨value, stored, agreed 0 (by decide +kernel) rfl, agreed 3 (by decide +kernel) rfl⟩

end Chappe
