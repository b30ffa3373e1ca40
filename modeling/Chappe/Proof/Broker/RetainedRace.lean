/-
This file proves when a subscription that races a retained publish ends on the retained value.
-/

import Chappe.Construction.Broker
import Chappe.Foundation.Run

namespace Chappe
open Foundation

variable {Client : Type} [DecidableEq Client]

/-- One client subscribes to a topic while another client publishes retained values on it. -/
def Broker.race (tables : Tables Client) (retained : Table Bytes Bytes)
    (subscriber publisher : Client) (topic : Bytes) (values : List Bytes) : Broker Client where
  tables := tables
  retained := retained
  inbox := fun client =>
    if client = subscriber then [Msg.subscribe.frame topic []]
    else if client = publisher then values.map (Msg.publishRetain.frame topic)
    else []
  thread := fun _ => .idle
  sent := fun _ => []

/-- Every frame is handled. -/
def Broker.Finished (broker : Broker Client) : Prop :=
  ∀ client, broker.thread client = .idle ∧ broker.inbox client = []

/-- The publish in progress has still to be written to the client. -/
def Thread.Awaits (thread : Thread Client) (client : Client) : Prop :=
  match thread with
  | .routing _ _ _ remaining => client ∈ remaining
  | _ => False

/-- The publish in progress took its snapshot without the client. -/
def Thread.Misses (thread : Thread Client) (client : Client) : Prop :=
  match thread with
  | .routing _ _ targets _ => client ∉ targets
  | _ => False

/-- The retained value of the topic once the publish in progress is stored. -/
def Broker.settled (broker : Broker Client) (publisher : Client) (topic : Bytes) : Option Bytes :=
  match broker.thread publisher with
  | .routing frame _ _ _ => some frame.payload
  | _ => broker.retained topic

/-- The subscriber finds no retained value only when no publish misses it, and it sends a replay
only when the value is the latest or a later value has still to follow. -/
def ReplayInOrder (subscriber publisher : Client) (topic : Bytes) (broker : Broker Client)
    (action : Client × Client) : Prop :=
  action.1 = subscriber →
    match broker.thread subscriber with
    | .registered _ =>
        broker.retained topic = none → ¬ (broker.thread publisher).Misses subscriber
    | .replaying _ value =>
        (broker.thread publisher).Awaits subscriber ∨
          broker.settled publisher topic = some value
    | _ => True

/-- A retained publish of a value on the topic. -/
def Frame.Retains (frame : Frame) (topic : Bytes) : Prop :=
  frame.msg = some .publishRetain ∧ frame.name = topic ∧ frame.payload ≠ []

/-- The subscriber has its subscription ahead of it, or registered, or copied, or done. -/
inductive Subscribing (topic : Bytes) : List Frame → Thread Client → Prop where
  | ahead : Subscribing topic [Msg.subscribe.frame topic []] .idle
  | registered : Subscribing topic [] (.registered topic)
  | replaying (value : Bytes) : Subscribing topic [] (.replaying topic value)
  | done : Subscribing topic [] .idle

inductive Publishing (topic : Bytes) : Thread Client → Prop where
  | idle : Publishing topic .idle
  | routing (frame : Frame) (targets remaining : Finset Client) (retains : frame.Retains topic) :
      Publishing topic (.routing frame true targets remaining)

/-- The state of the race. The subscriber ends on the value that the topic will retain. -/
structure Racing (subscriber publisher : Client) (topic : Bytes) (broker : Broker Client) :
    Prop where
  others : ∀ client, client ≠ subscriber → client ≠ publisher →
    broker.thread client = .idle ∧ broker.inbox client = []
  subscribing : Subscribing topic (broker.inbox subscriber) (broker.thread subscriber)
  publishing : Publishing topic (broker.thread publisher)
  retains : ∀ frame ∈ broker.inbox publisher, frame.Retains topic
  member : broker.inbox subscriber = [] ∨ broker.lastPublish subscriber topic ≠ none ∨
    (broker.thread publisher).Awaits subscriber → subscriber ∈ broker.tables.targets topic
  written : ¬ (broker.thread publisher).Misses subscriber →
    ¬ (broker.thread publisher).Awaits subscriber → broker.thread publisher ≠ .idle →
    broker.lastPublish subscriber topic = broker.settled publisher topic
  live : broker.lastPublish subscriber topic = none ∨
    (broker.thread publisher).Awaits subscriber ∨
    broker.lastPublish subscriber topic = broker.settled publisher topic
  done : broker.inbox subscriber = [] → broker.thread subscriber = .idle →
    (broker.thread publisher).Awaits subscriber ∨
    broker.lastPublish subscriber topic = broker.settled publisher topic

theorem lastPublish_append (broker : Broker Client) (client : Client) (topic value : Bytes) :
    (broker.sendTo client (Msg.publish.frame topic value)).lastPublish client topic =
      some value := by
  simp [Broker.lastPublish, Broker.sendTo]

theorem lastPublish_other (broker : Broker Client) {client other : Client} (frame : Frame)
    (topic : Bytes) (different : other ≠ client) :
    (broker.sendTo client frame).lastPublish other topic = broker.lastPublish other topic := by
  simp [Broker.lastPublish, Broker.sendTo, Function.update_of_ne different]

/-- A subscription makes its client a target of the topic. -/
theorem targets_subscribe (tables : Tables Client) (client : Client) {topic : Bytes}
    (plain : topicHasWildcard topic = false) :
    client ∈ (tables.subscribe client topic).targets topic := by
  simp only [Tables.subscribe, plain, Tables.targets, Finset.mem_union]
  exact .inl (Registry.mem_add.mpr (.inr ⟨rfl, rfl⟩))

variable {subscriber publisher : Client} {topic : Bytes} {broker : Broker Client}

/-- The subscriber registers, and from then on every snapshot has it. -/
theorem Racing.register (racing : Racing subscriber publisher topic broker)
    (different : subscriber ≠ publisher) (plain : topicHasWildcard topic = false) :
    Racing subscriber publisher topic
      (Broker.begin { broker with inbox := Function.update broker.inbox subscriber [] }
        subscriber (Msg.subscribe.frame topic [])) := by
  have apart := different.symm
  simp only [Broker.begin, Msg.frame_msg, Msg.frame_name, plain, Broker.goto]
  refine ⟨?_, ?_, ?_, ?_, ?_, ?_, ?_, ?_⟩
  · intro client notSubscriber notPublisher
    simp only [Function.update_of_ne notSubscriber]
    exact racing.others client notSubscriber notPublisher
  · simp only [Function.update_self]
    exact .registered
  · simp only [Function.update_of_ne apart]
    exact racing.publishing
  · simp only [Function.update_of_ne apart]
    exact racing.retains
  · intro _
    exact targets_subscribe broker.tables subscriber plain
  · simp only [Broker.settled, Function.update_of_ne apart]
    exact racing.written
  · simp only [Broker.settled, Function.update_of_ne apart]
    exact racing.live
  · intro _ idle
    simp at idle

/-- The subscriber moves on without a write. -/
theorem Racing.move (racing : Racing subscriber publisher topic broker)
    (different : subscriber ≠ publisher) (place : Thread Client)
    (subscribing : Subscribing topic (broker.inbox subscriber) place)
    (done : place = .idle → (broker.thread publisher).Awaits subscriber ∨
      broker.lastPublish subscriber topic = broker.settled publisher topic) :
    Racing subscriber publisher topic (broker.goto subscriber place) := by
  have apart := different.symm
  simp only [Broker.goto]
  refine ⟨?_, ?_, ?_, racing.retains, ?_, ?_, ?_, ?_⟩
  · intro client notSubscriber notPublisher
    simp only [Function.update_of_ne notSubscriber]
    exact racing.others client notSubscriber notPublisher
  · simp only [Function.update_self]
    exact subscribing
  · simp only [Function.update_of_ne apart]
    exact racing.publishing
  · simp only [Function.update_of_ne apart]
    exact racing.member
  · simp only [Broker.settled, Function.update_of_ne apart]
    exact racing.written
  · simp only [Broker.settled, Function.update_of_ne apart]
    exact racing.live
  · intro _ idle
    simp only [Function.update_self] at idle
    simp only [Broker.settled, Function.update_of_ne apart]
    exact done idle

/-- A read that finds nothing ends the subscription. No publish is on its way past it. -/
theorem Racing.settled_of_absent (racing : Racing subscriber publisher topic broker)
    (absent : broker.retained topic = none)
    (seen : ¬ (broker.thread publisher).Misses subscriber) :
    (broker.thread publisher).Awaits subscriber ∨
      broker.lastPublish subscriber topic = broker.settled publisher topic := by
  rcases racing.live with never | later | same
  · by_cases waits : (broker.thread publisher).Awaits subscriber
    · exact .inl waits
    · by_cases idle : broker.thread publisher = .idle
      · refine .inr (never.trans ?_)
        simp only [Broker.settled, idle, absent]
      · exact .inr (racing.written seen waits idle)
  · exact .inl later
  · exact .inr same

/-- The replay is written while its value is the latest, or before a later one. -/
theorem Racing.replay (racing : Racing subscriber publisher topic broker)
    (different : subscriber ≠ publisher) {value : Bytes}
    (replaying : broker.inbox subscriber = [])
    (inOrder : (broker.thread publisher).Awaits subscriber ∨
      broker.settled publisher topic = some value) :
    Racing subscriber publisher topic
      ((broker.sendTo subscriber (Msg.publish.frame topic value)).goto subscriber .idle) := by
  have last := lastPublish_append broker subscriber topic value
  have written : Racing subscriber publisher topic
      (broker.sendTo subscriber (Msg.publish.frame topic value)) := by
    refine ⟨racing.others, racing.subscribing, racing.publishing, racing.retains, ?_, ?_, ?_, ?_⟩
    · intro _
      exact racing.member (.inl replaying)
    · intro _ waits _
      exact last.trans (inOrder.resolve_left waits).symm
    · exact .inr (inOrder.imp_right fun latest => last.trans latest.symm)
    · intro _ _
      exact inOrder.imp_right fun latest => last.trans latest.symm
  refine written.move different .idle ?_ ?_
  · rw [show (broker.sendTo subscriber _).inbox subscriber = [] from replaying]
    exact .done
  · intro _
    exact inOrder.imp_right fun latest => last.trans latest.symm

/-- The snapshot of a publish has the subscriber unless the subscriber has yet to register. -/
theorem Racing.snapshot (racing : Racing subscriber publisher topic broker)
    (different : subscriber ≠ publisher) {frame : Frame} {rest : List Frame}
    (queued : broker.inbox publisher = frame :: rest) :
    Racing subscriber publisher topic
      (Broker.begin { broker with inbox := Function.update broker.inbox publisher rest }
        publisher frame) := by
  have retains := racing.retains frame (by rw [queued]; exact List.mem_cons_self)
  have later : ∀ later ∈ rest, later.Retains topic := by
    intro later member
    exact racing.retains later (by rw [queued]; exact List.mem_cons_of_mem _ member)
  have here : subscriber ∈ broker.tables.targets frame.name ∨
      broker.inbox subscriber ≠ [] ∧ broker.lastPublish subscriber topic = none := by
    rw [retains.2.1]
    by_cases among : subscriber ∈ broker.tables.targets topic
    · exact .inl among
    · refine .inr ⟨fun empty => among (racing.member (.inl empty)), ?_⟩
      by_contra seen
      exact among (racing.member (.inr (.inl seen)))
  simp only [Broker.begin, retains.1, Broker.goto]
  refine ⟨?_, ?_, ?_, ?_, ?_, ?_, ?_, ?_⟩
  · intro client notSubscriber notPublisher
    simp only [Function.update_of_ne notPublisher]
    exact racing.others client notSubscriber notPublisher
  · simp only [Function.update_of_ne different]
    exact racing.subscribing
  · simp only [Function.update_self]
    exact .routing frame _ _ retains
  · simp only [Function.update_self]
    exact later
  · simp only [Function.update_of_ne different, Function.update_self, Thread.Awaits,
      Finset.mem_erase]
    rintro (empty | seen | waits)
    · exact racing.member (.inl empty)
    · exact racing.member (.inr (.inl seen))
    · rw [← retains.2.1]
      exact waits.2
  · simp only [Function.update_self, Thread.Misses, Thread.Awaits, Finset.mem_erase]
    intro seen waits
    exact absurd ⟨different, not_not.mp seen⟩ waits
  · rcases here with among | ⟨-, never⟩
    · refine .inr (.inl ?_)
      simp only [Function.update_self, Thread.Awaits, Finset.mem_erase]
      exact ⟨different, among⟩
    · exact .inl never
  · simp only [Function.update_of_ne different, Function.update_self, Thread.Awaits,
      Finset.mem_erase]
    intro empty _
    rcases here with among | ⟨ahead, -⟩
    · exact .inl ⟨different, among⟩
    · exact absurd empty ahead

/-- The publisher moves on and leaves what the subscriber has seen and will see. -/
theorem Racing.advance (racing : Racing subscriber publisher topic broker)
    (different : subscriber ≠ publisher) {after : Broker Client} {place : Thread Client}
    (tables : after.tables = broker.tables) (inbox : after.inbox = broker.inbox)
    (thread : after.thread = Function.update broker.thread publisher place)
    (publishing : Publishing topic place)
    (last : after.lastPublish subscriber topic = broker.lastPublish subscriber topic)
    (settled : after.settled publisher topic = broker.settled publisher topic)
    (awaits : place.Awaits subscriber ↔ (broker.thread publisher).Awaits subscriber)
    (misses : place ≠ .idle → broker.thread publisher ≠ .idle ∧
      (place.Misses subscriber ↔ (broker.thread publisher).Misses subscriber)) :
    Racing subscriber publisher topic after := by
  have self : after.thread publisher = place := by rw [thread, Function.update_self]
  have other {client : Client} (apart : client ≠ publisher) :
      after.thread client = broker.thread client := by rw [thread, Function.update_of_ne apart]
  refine ⟨?_, ?_, ?_, ?_, ?_, ?_, ?_, ?_⟩
  · intro client notSubscriber notPublisher
    rw [other notPublisher, inbox]
    exact racing.others client notSubscriber notPublisher
  · rw [other different, inbox]
    exact racing.subscribing
  · rw [self]
    exact publishing
  · rw [inbox]
    exact racing.retains
  · rw [self, inbox, last, awaits, tables]
    exact racing.member
  · rw [self, last, settled, awaits]
    intro seen waits busy
    obtain ⟨before, same⟩ := misses busy
    exact racing.written (fun missed => seen (same.mpr missed)) waits before
  · rw [self, last, settled, awaits]
    exact racing.live
  · rw [self, inbox, other different, last, settled, awaits]
    exact racing.done

/-- The write of the publish in progress to the subscriber. -/
theorem Racing.receive (racing : Racing subscriber publisher topic broker)
    (different : subscriber ≠ publisher) {frame : Frame} {targets remaining : Finset Client}
    (routing : broker.thread publisher = .routing frame true targets remaining)
    (retains : frame.Retains topic) (awaits : subscriber ∈ remaining) :
    Racing subscriber publisher topic
      ((broker.sendTo subscriber (Msg.publish.frame frame.name frame.payload)).goto publisher
        (.routing frame true targets (remaining.erase subscriber))) := by
  have last : (broker.sendTo subscriber (Msg.publish.frame frame.name
      frame.payload)).lastPublish subscriber topic = some frame.payload := by
    rw [retains.2.1]
    exact lastPublish_append _ _ _ _
  have latest : ((broker.sendTo subscriber (Msg.publish.frame frame.name frame.payload)).goto
      publisher (.routing frame true targets (remaining.erase subscriber))).settled publisher
        topic = some frame.payload := by
    simp only [Broker.settled, Broker.goto, Function.update_self]
  have among : subscriber ∈ broker.tables.targets topic := by
    apply racing.member
    rw [routing]
    exact .inr (.inr awaits)
  refine ⟨?_, ?_, ?_, racing.retains, fun _ => among, fun _ _ _ => last.trans latest.symm,
    .inr (.inr (last.trans latest.symm)), fun _ _ => .inr (last.trans latest.symm)⟩
  · intro client notSubscriber notPublisher
    simp only [Broker.goto, Function.update_of_ne notPublisher]
    exact racing.others client notSubscriber notPublisher
  · simp only [Broker.goto, Function.update_of_ne different]
    exact racing.subscribing
  · simp only [Broker.goto, Function.update_self]
    exact .routing frame _ _ retains

/-- The write of the publish in progress to another target. -/
theorem Racing.write (racing : Racing subscriber publisher topic broker)
    (different : subscriber ≠ publisher) {frame : Frame} {targets remaining : Finset Client}
    (routing : broker.thread publisher = .routing frame true targets remaining)
    (retains : frame.Retains topic) {target : Client} (apart : subscriber ≠ target) :
    Racing subscriber publisher topic
      ((broker.sendTo target (Msg.publish.frame frame.name frame.payload)).goto publisher
        (.routing frame true targets (remaining.erase target))) := by
  refine racing.advance different rfl rfl rfl (.routing frame _ _ retains)
    (lastPublish_other broker _ _ apart) ?_ ?_ ?_
  · simp only [Broker.settled, Broker.goto, Function.update_self, routing]
  · rw [routing]
    simp only [Thread.Awaits, Finset.mem_erase, apart, ne_eq, not_false_eq_true, true_and]
  · rw [routing]
    exact fun _ => ⟨by simp, Iff.rfl⟩

/-- The store of the published value after the last write. -/
theorem Racing.store (racing : Racing subscriber publisher topic broker)
    (different : subscriber ≠ publisher) {frame : Frame} {targets : Finset Client}
    (routing : broker.thread publisher = .routing frame true targets ∅)
    (retains : frame.Retains topic) :
    Racing subscriber publisher topic ((broker.retain frame).goto publisher .idle) := by
  obtain ⟨-, name, filled⟩ := retains
  refine racing.advance different rfl rfl rfl .idle rfl ?_ ?_ (fun busy => absurd rfl busy)
  · simp only [Broker.settled, Broker.goto, Function.update_self, routing, Broker.retain, filled,
      if_false, name, Table.insert_self]
  · rw [routing]
    simp only [Thread.Awaits, Finset.notMem_empty]

/-- Every step in replay order keeps the state of the race. -/
theorem Racing.step (different : subscriber ≠ publisher) (plain : topicHasWildcard topic = false)
    (broker : Broker Client) (action : Client × Client)
    (racing : Racing subscriber publisher topic broker)
    (inOrder : ReplayInOrder subscriber publisher topic broker action) :
    Racing subscriber publisher topic (broker.step action) := by
  obtain ⟨client, target⟩ := action
  by_cases isSubscriber : client = subscriber
  · subst client
    have admitted := inOrder rfl
    have subscribing := racing.subscribing
    simp only [Broker.step]
    generalize inbox : broker.inbox subscriber = frames at subscribing
    generalize thread : broker.thread subscriber = place at subscribing admitted
    cases subscribing with
    | ahead => exact racing.register different plain
    | registered =>
        cases held : broker.retained topic with
        | some value =>
            simp only [held]
            refine racing.move different _ ?_ (by simp)
            rw [inbox]
            exact .replaying value
        | none =>
            simp only [held]
            refine racing.move different _ ?_ fun _ => racing.settled_of_absent held (admitted held)
            rw [inbox]
            exact .done
    | replaying value => exact racing.replay different inbox admitted
    | done => exact racing
  · by_cases isPublisher : client = publisher
    · subst client
      have publishing := racing.publishing
      simp only [Broker.step]
      generalize thread : broker.thread publisher = place at publishing
      cases publishing with
      | idle =>
          cases queued : broker.inbox publisher with
          | nil => exact racing
          | cons frame rest => exact racing.snapshot different queued
      | routing frame targets remaining retains =>
          simp only [if_true]
          by_cases awaits : target ∈ remaining
          · rw [if_pos awaits]
            by_cases mine : target = subscriber
            · subst target
              exact racing.receive different thread retains awaits
            · exact racing.write different thread retains (Ne.symm mine)
          · rw [if_neg awaits]
            split
            · subst remaining
              exact racing.store different thread retains
            · exact racing
    · obtain ⟨idle, empty⟩ := racing.others client isSubscriber isPublisher
      simp only [Broker.step, idle, empty]
      exact racing

theorem Racing.initial (different : subscriber ≠ publisher) (tables : Tables Client)
    (retained : Table Bytes Bytes) {values : List Bytes} (filled : ∀ value ∈ values, value ≠ []) :
    Racing subscriber publisher topic
      (Broker.race tables retained subscriber publisher topic values) := by
  refine ⟨?_, ?_, .idle, ?_, ?_, ?_, .inl rfl, ?_⟩
  · intro client notSubscriber notPublisher
    simp only [Broker.race, notSubscriber, notPublisher, if_false, and_self]
  · simp only [Broker.race, if_true]
    exact .ahead
  · intro frame member
    simp only [Broker.race, Ne.symm different, if_false, if_true, List.mem_map] at member
    obtain ⟨value, among, rfl⟩ := member
    exact ⟨Msg.frame_msg _ _ _, rfl, filled value among⟩
  · simp [Broker.race, Broker.lastPublish, Thread.Awaits]
  · intro _ _ busy
    exact absurd rfl busy
  · simp [Broker.race]

/-- In every race whose replay is in order, the last publish that the subscriber gets carries the
value that the topic retains. -/
theorem retained_delivered (different : subscriber ≠ publisher)
    (plain : topicHasWildcard topic = false) (tables : Tables Client) (retained : Table Bytes Bytes)
    (values : List Bytes) (filled : ∀ value ∈ values, value ≠ [])
    (actions : List (Client × Client))
    (inOrder : Meets Broker.step (ReplayInOrder subscriber publisher topic)
      (Broker.race tables retained subscriber publisher topic values) actions)
    (finished : (run Broker.step
      (Broker.race tables retained subscriber publisher topic values) actions).Finished) :
    (run Broker.step (Broker.race tables retained subscriber publisher topic values)
        actions).lastPublish subscriber topic =
      (run Broker.step (Broker.race tables retained subscriber publisher topic values)
        actions).retained topic := by
  have racing := run_invariant_of_meets (Racing.step different plain) actions _
    (Racing.initial different tables retained filled) inOrder
  have idle := (finished publisher).1
  have ended := racing.done (finished subscriber).2 (finished subscriber).1
  simp only [Broker.settled, idle] at ended
  exact ended.resolve_left id

/-- The subscriber `false` of topic `[1]` races one retained publish of the client `true`. -/
def smallRace (retained : Table Bytes Bytes) : Broker Bool :=
  Broker.race .empty retained false true [1] [[20]]

def retainedTen : Table Bytes Bytes := Table.insert .empty [1] [10]

/-- The subscriber copies the old value, the new value is sent and stored, and the old value is
sent last. -/
def staleReplay : List (Bool × Bool) :=
  [(false, false), (false, false), (true, false), (true, false), (true, false), (false, false)]

/-- The publish takes its snapshot before the subscriber registers and stores its value after the
subscriber has looked. -/
def lostPublish : List (Bool × Bool) :=
  [(true, false), (false, false), (false, false), (true, false)]

theorem retained_overtaken :
    (run Broker.step (smallRace retainedTen) staleReplay).Finished ∧
    (run Broker.step (smallRace retainedTen) staleReplay).lastPublish false [1] = some [10] ∧
    (run Broker.step (smallRace retainedTen) staleReplay).retained [1] = some [20] ∧
    (run Broker.step (smallRace .empty) lostPublish).Finished ∧
    (run Broker.step (smallRace .empty) lostPublish).lastPublish false [1] = none ∧
    (run Broker.step (smallRace .empty) lostPublish).retained [1] = some [20] := by
  refine ⟨?_, by decide, by decide, ?_, by decide, by decide⟩
  · intro client
    cases client <;> exact ⟨rfl, rfl⟩
  · intro client
    cases client <;> exact ⟨rfl, rfl⟩

/-- The subscription finishes before the publish starts. -/
def replayFirst : List (Bool × Bool) :=
  [(false, false), (false, false), (false, false), (true, false), (true, false), (true, false)]

theorem retained_delivered_small :
    (run Broker.step (smallRace retainedTen) replayFirst).lastPublish false [1] =
      (run Broker.step (smallRace retainedTen) replayFirst).retained [1] := by
  apply retained_delivered (by decide) (by decide) .empty retainedTen [[20]] (by decide)
  · refine ⟨?_, ?_, ?_, ?_, ?_, ?_, True.intro⟩
    · exact fun _ => True.intro
    · intro _ absent
      cases absent
    · exact fun _ => .inr rfl
    all_goals exact fun other => absurd other (by decide)
  · intro client
    cases client <;> exact ⟨rfl, rfl⟩

end Chappe
