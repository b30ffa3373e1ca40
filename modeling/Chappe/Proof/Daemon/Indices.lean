/-
This file proves that the tables of the daemon agree with the names that each client holds.
-/

import Chappe.Construction.Daemon
import Chappe.Foundation.Run
import Chappe.Proof.Kv.Watching

namespace Chappe
open Foundation

variable {Client : Type}

/-- The function `remove_client` has not started for the client. -/
def Life.Stays : Life → Prop
  | .absent | .serving | .reporting _ _ => True
  | .leaving _ | .gone => False

/-- The client is still in the tables of its subscriptions. -/
def Life.Subscribed : Life → Prop
  | .leaving .subs => True
  | life => life.Stays

/-- The client is still in the table of its watches. -/
def Life.Watching : Life → Prop
  | .leaving .subs | .leaving .watchers => True
  | life => life.Stays

/-- The client is in the list of all clients. -/
def Life.Listed : Life → Prop
  | .absent | .gone => False
  | _ => True

theorem Life.Stays.subscribed {life : Life} (stays : life.Stays) : life.Subscribed := by
  cases life with
  | absent => exact True.intro
  | serving => exact True.intro
  | reporting inquiry report => exact True.intro
  | leaving departure => exact stays.elim
  | gone => exact stays.elim

theorem Life.Stays.watching {life : Life} (stays : life.Stays) : life.Watching := by
  cases life with
  | absent => exact True.intro
  | serving => exact True.intro
  | reporting inquiry report => exact True.intro
  | leaving departure => exact stays.elim
  | gone => exact stays.elim

/-- The names that a client holds are those it is registered for. -/
structure Tables.Agrees (tables : Tables Client) (client : Client) : Prop where
  topics : tables.subs.Agrees tables.topics client
  patterns : tables.patternSubs.Agrees tables.patterns client

structure Tables.Lacks (tables : Tables Client) (client : Client) : Prop where
  topics : tables.subs.Lacks client
  patterns : tables.patternSubs.Lacks client

/-- Exact names and patterns are kept apart, and no entry is empty. -/
structure Tables.Sorted (tables : Tables Client) : Prop where
  topics : tables.subs.Populated fun topic => topicHasWildcard topic = false
  patterns : tables.patternSubs.Populated fun pattern => topicHasWildcard pattern = true

/-- The tables change for one client. -/
structure Tables.Changes (tables : Tables Client) (client : Client) (changed : Tables Client) :
    Prop where
  topics : tables.subs.Changes tables.topics changed.subs changed.topics client
  patterns : tables.patternSubs.Changes tables.patterns changed.patternSubs changed.patterns client
  sorted : tables.Sorted → changed.Sorted

theorem Tables.Changes.refl (tables : Tables Client) (client : Client) :
    tables.Changes client tables := ⟨.refl client, .refl client, id⟩

/-- The subscriptions agree with the indices of the clients that still have them. -/
structure Tables.Indexed (tables : Tables Client) (life : Client → Life) : Prop where
  sorted : tables.Sorted
  subscribed : ∀ client, (life client).Subscribed → tables.Agrees client
  unsubscribed : ∀ client, ¬ (life client).Subscribed → tables.Lacks client

/-- The watches agree with the indices of the clients that still have them. -/
structure Store.Indexed (store : Store Client) (life : Client → Life) : Prop where
  occupied : ∀ key, store.watchers key ≠ some ∅
  watching : ∀ client, (life client).Watching →
    ∀ key, store.Watches client key ↔ key ∈ store.keys client
  unwatched : ∀ client, ¬ (life client).Watching → ∀ key, ¬ store.Watches client key

structure Daemon.Indexed (daemon : Daemon Client) : Prop where
  tables : daemon.broker.tables.Indexed daemon.life
  store : daemon.store.Indexed daemon.life
  listed : ∀ client, client ∈ daemon.clients ↔ (daemon.life client).Listed
  distinct : daemon.clients.Nodup

variable {tables : Tables Client} {life : Client → Life} {store : Store Client}
  {daemon : Daemon Client}

theorem Tables.Indexed.change (indexed : tables.Indexed life) {client : Client}
    (here : (life client).Subscribed) {changed : Tables Client}
    (changes : tables.Changes client changed) : changed.Indexed life := by
  refine ⟨changes.sorted indexed.sorted, ?_, ?_⟩
  · intro other stays
    have agrees := indexed.subscribed other stays
    exact ⟨changes.topics.agrees other agrees.topics,
      changes.patterns.agrees other agrees.patterns⟩
  · intro other left
    have different : other ≠ client := fun same => left (same ▸ here)
    have lacks := indexed.unsubscribed other left
    exact ⟨changes.topics.lacks other different lacks.topics,
      changes.patterns.lacks other different lacks.patterns⟩

theorem Store.Indexed.same (indexed : store.Indexed life) {changed : Store Client}
    (same : SameWatches changed store) : changed.Indexed life := by
  refine ⟨?_, ?_, ?_⟩
  · rw [same.1]
    exact indexed.occupied
  · intro client stays key
    rw [same.watches client key, same.2]
    exact indexed.watching client stays key
  · intro client left key
    rw [same.watches client key]
    exact indexed.unwatched client left key

theorem Daemon.Indexed.initial : (Daemon.initial : Daemon Client).Indexed where
  tables :=
    { sorted := ⟨.empty, .empty⟩
      subscribed := fun _ _ => ⟨fun _ => by simp [Daemon.initial, Tables.empty, Registry.members],
        fun _ => by simp [Daemon.initial, Tables.empty, Registry.members]⟩
      unsubscribed := fun _ left => absurd True.intro left }
  store :=
    { occupied := nofun
      watching := fun _ _ _ => by simp [Daemon.initial, Store.empty, Store.Watches]
      unwatched := fun _ left => absurd True.intro left }
  listed := fun _ => by simp [Daemon.initial, Life.Listed]
  distinct := List.nodup_nil

variable [DecidableEq Client]

theorem Tables.Changes.subscribe (client : Client) (name : Bytes) :
    tables.Changes client (tables.subscribe client name) := by
  unfold Tables.subscribe
  split
  · rename_i wildcard
    exact ⟨.refl client, .add name client,
      fun sorted => ⟨sorted.topics, sorted.patterns.add wildcard client⟩⟩
  · rename_i plain
    exact ⟨.add name client, .refl client,
      fun sorted => ⟨sorted.topics.add (Bool.eq_false_of_not_eq_true plain) client,
        sorted.patterns⟩⟩

theorem Tables.Changes.unsubscribe (client : Client) (name : Bytes) :
    tables.Changes client (tables.unsubscribe client name) := by
  unfold Tables.unsubscribe
  split
  · exact ⟨.refl client, .remove name client,
      fun sorted => ⟨sorted.topics, sorted.patterns.remove name client⟩⟩
  · exact ⟨.remove name client, .refl client,
      fun sorted => ⟨sorted.topics.remove name client, sorted.patterns⟩⟩

/-- A reader thread changes the tables for its own client only. -/
theorem Tables.Changes.begin (broker : Broker Client) (client : Client) (frame : Frame) :
    broker.tables.Changes client (broker.begin client frame).tables := by
  unfold Broker.begin
  split
  · exact .subscribe client frame.name
  · exact .unsubscribe client frame.name
  · exact .refl _ client
  · exact .refl _ client
  · exact .refl _ client

/-- A thread that is past its first critical section leaves the tables alone. -/
theorem step_tables (broker : Broker Client) {client : Client} (target : Client)
    (busy : broker.thread client ≠ .idle) :
    (broker.step (client, target)).tables = broker.tables := by
  unfold Broker.step
  cases here : broker.thread client with
  | idle => exact absurd here busy
  | registered topic =>
      dsimp only
      split <;> rfl
  | replaying topic value => rfl
  | routing frame retain targets remaining =>
      dsimp only
      split
      · rfl
      · split
        · split <;> rfl
        · rfl

theorem step_inbox {broker : Broker Client} {client : Client} (target : Client)
    (busy : broker.thread client ≠ .idle) :
    (broker.step (client, target)).inbox = broker.inbox := by
  unfold Broker.step
  cases place : broker.thread client with
  | idle => exact absurd place busy
  | registered topic =>
      dsimp only
      split <;> rfl
  | replaying topic value => rfl
  | routing frame retain targets remaining =>
      dsimp only
      split
      · rfl
      · split
        · split <;> rfl
        · rfl

theorem begin_sent (broker : Broker Client) (client : Client) (frame : Frame) :
    (broker.begin client frame).sent = broker.sent := by
  unfold Broker.begin
  split <;> rfl

theorem Tables.Indexed.become (indexed : tables.Indexed life) {client : Client} {next : Life}
    (same : (life client).Subscribed ↔ next.Subscribed) :
    tables.Indexed (Function.update life client next) := by
  have kept (other : Client) :
      (Function.update life client next other).Subscribed ↔ (life other).Subscribed := by
    by_cases here : other = client
    · rw [here, Function.update_self, same]
    · rw [Function.update_of_ne here]
  refine ⟨indexed.sorted, ?_, ?_⟩
  · intro other stays
    exact indexed.subscribed other ((kept other).mp stays)
  · intro other left
    exact indexed.unsubscribed other ((kept other).not.mp left)

/-- The first section of `remove_client` takes the client out of both tables. -/
theorem Tables.Indexed.removeClient (indexed : tables.Indexed life) {client : Client}
    (here : (life client).Subscribed) {next : Life} (left : ¬ next.Subscribed) :
    (tables.removeClient client).Indexed (Function.update life client next) := by
  have sorted := indexed.sorted
  refine ⟨⟨sorted.topics.removeAll client, sorted.patterns.removeAll client⟩, ?_, ?_⟩
  · intro other stays
    have different : other ≠ client := by
      rintro rfl
      rw [Function.update_self] at stays
      exact left stays
    rw [Function.update_of_ne different] at stays
    have agrees := indexed.subscribed other stays
    exact ⟨agrees.topics.removeAll_other different _, agrees.patterns.removeAll_other different _⟩
  · intro other gone
    by_cases same : other = client
    · subst other
      have agrees := indexed.subscribed client here
      exact ⟨agrees.topics.removeAll fun _ => (Finset.mem_sort _).mpr,
        agrees.patterns.removeAll fun _ => (Finset.mem_sort _).mpr⟩
    · rw [Function.update_of_ne same] at gone
      have lacks := indexed.unsubscribed other gone
      exact ⟨lacks.topics.removeAll _ client, lacks.patterns.removeAll _ client⟩

theorem Store.Indexed.become (indexed : store.Indexed life) {client : Client} {next : Life}
    (same : (life client).Watching ↔ next.Watching) :
    store.Indexed (Function.update life client next) := by
  have kept (other : Client) :
      (Function.update life client next other).Watching ↔ (life other).Watching := by
    by_cases here : other = client
    · rw [here, Function.update_self, same]
    · rw [Function.update_of_ne here]
  refine ⟨indexed.occupied, ?_, ?_⟩
  · intro other stays
    exact indexed.watching other ((kept other).mp stays)
  · intro other left
    exact indexed.unwatched other ((kept other).not.mp left)

/-- A get registers its watch in the table and in the index. -/
theorem Store.Indexed.watch (indexed : store.Indexed life) {client : Client}
    (here : (life client).Watching) (name : Bytes) : (store.watch client name).Indexed life := by
  refine ⟨?_, ?_, ?_⟩
  · intro key
    by_cases same : key = name
    · simp only [Store.watch, same, Table.insert_self]
      exact fun empty => Finset.insert_ne_empty _ _ (Option.some.inj empty)
    · simp only [Store.watch, Table.insert_of_ne _ _ same]
      exact indexed.occupied key
  · intro other stays key
    rw [watch_watches, indexed.watching other stays key]
    by_cases same : other = client
    · simp only [Store.watch, same, Function.update_self, Finset.mem_insert]
      tauto
    · simp only [Store.watch, Function.update_of_ne same]
      tauto
  · intro other left key
    rw [watch_watches]
    rintro (before | ⟨rfl, _⟩)
    · exact indexed.unwatched other left key before
    · exact left here

theorem Store.Indexed.handleFrame (indexed : store.Indexed life) {client : Client}
    (here : (life client).Watching) (now later : Nat) (frame : Frame) :
    (store.handleFrame now later client frame).1.Indexed life := by
  rcases handleFrame_watching store now later client frame with same | ⟨_, _, started⟩
  · exact indexed.same same
  · exact (indexed.watch here frame.name).same started

/-- The second section of `remove_client` takes the client out of the watchers. -/
theorem Store.Indexed.removeClient (indexed : store.Indexed life) {client : Client}
    (here : (life client).Watching) {next : Life} (left : ¬ next.Watching) :
    (store.removeClient client).Indexed (Function.update life client next) := by
  refine ⟨?_, ?_, ?_⟩
  · intro key
    simp only [Store.removeClient]
    split
    · split
      · split
        · simp
        · rename_i some
          exact fun empty => some (Option.some.inj empty)
      · simp
    · exact indexed.occupied key
  · intro other stays key
    have different : other ≠ client := by
      rintro rfl
      rw [Function.update_self] at stays
      exact left stays
    rw [Function.update_of_ne different] at stays
    rw [removeClient_watches, indexed.watching other stays key]
    simp only [different, and_false, not_false_eq_true, and_true]
    rfl
  · intro other gone key
    rw [removeClient_watches]
    by_cases same : other = client
    · subst other
      rw [indexed.watching client here key]
      tauto
    · rw [Function.update_of_ne same] at gone
      exact fun both => indexed.unwatched other gone key both.1

/-- The client moves on without a change of the tables. -/
theorem Daemon.Indexed.become (indexed : daemon.Indexed) {client : Client} {next : Life}
    (subscribed : (daemon.life client).Subscribed ↔ next.Subscribed)
    (watching : (daemon.life client).Watching ↔ next.Watching)
    (listed : (daemon.life client).Listed ↔ next.Listed) :
    (daemon.become client next).Indexed := by
  refine ⟨indexed.tables.become subscribed, indexed.store.become watching, ?_, indexed.distinct⟩
  intro other
  by_cases here : other = client
  · simp only [Daemon.become, here, Function.update_self, ← listed]
    exact indexed.listed client
  · simp only [Daemon.become, Function.update_of_ne here]
    exact indexed.listed other

theorem Daemon.Indexed.handleFrame (indexed : daemon.Indexed) {client : Client}
    (serving : daemon.life client = .serving) (frame : Frame) (now later : Nat) :
    (daemon.handleFrame client frame now later).Indexed := by
  have subscribed : (daemon.life client).Subscribed := by rw [serving]; exact True.intro
  have watching : (daemon.life client).Watching := by rw [serving]; exact True.intro
  have routed : ({ daemon with broker := daemon.broker.begin client frame } :
      Daemon Client).Indexed :=
    ⟨indexed.tables.change subscribed (.begin daemon.broker client frame), indexed.store,
      indexed.listed, indexed.distinct⟩
  unfold Daemon.handleFrame
  split
  · exact ⟨indexed.tables, indexed.store, indexed.listed, indexed.distinct⟩
  · split
    · exact indexed
    · apply indexed.become <;> rw [serving] <;> exact Iff.rfl
  · exact routed
  · exact routed
  · exact routed
  · exact routed
  · exact ⟨indexed.tables, indexed.store.handleFrame watching now later frame, indexed.listed,
      indexed.distinct⟩

theorem Daemon.Indexed.inquire (indexed : daemon.Indexed) {client : Client} {report : Report}
    {inquiry : Inquiry} (reporting : daemon.life client = .reporting inquiry report)
    (order : List Bytes) : (daemon.inquire client order report inquiry).Indexed := by
  have moves (next : Life) (serves : next.Stays) (listed : next.Listed) :
      (daemon.become client next).Indexed := by
    apply indexed.become
    · rw [reporting]
      exact iff_of_true True.intro serves.subscribed
    · rw [reporting]
      exact iff_of_true True.intro serves.watching
    · rw [reporting]
      exact iff_of_true True.intro listed
  cases inquiry with
  | clients => exact moves _ True.intro True.intro
  | topics =>
      simp only [Daemon.inquire]
      split
      · exact moves _ True.intro True.intro
      · exact indexed
  | retained => exact moves _ True.intro True.intro
  | keys => exact moves _ True.intro True.intro
  | reply =>
      have moved := moves .serving True.intro True.intro
      exact ⟨moved.tables, moved.store, moved.listed, moved.distinct⟩

/-- The list of clients after a client has come or gone. -/
theorem Daemon.Indexed.relist (indexed : daemon.Indexed) {client : Client} {next : Life}
    {clients : List Client} (listed : client ∈ clients ↔ next.Listed)
    (others : ∀ other, other ≠ client → (other ∈ clients ↔ other ∈ daemon.clients))
    (distinct : clients.Nodup)
    (subscribed : (daemon.life client).Subscribed ↔ next.Subscribed)
    (watching : (daemon.life client).Watching ↔ next.Watching) :
    ({ daemon with clients := clients }.become client next).Indexed := by
  refine ⟨indexed.tables.become subscribed, indexed.store.become watching, ?_, distinct⟩
  intro other
  by_cases here : other = client
  · simp only [Daemon.become, here, Function.update_self, listed]
  · simp only [Daemon.become, Function.update_of_ne here, others other here]
    exact indexed.listed other

theorem Daemon.Indexed.depart (indexed : daemon.Indexed) {client : Client} {departure : Departure}
    (leaving : daemon.life client = .leaving departure) :
    (daemon.depart client departure).Indexed := by
  have listed (next : Life) (stays : next.Listed) (other : Client) :
      other ∈ daemon.clients ↔ (Function.update daemon.life client next other).Listed := by
    by_cases here : other = client
    · rw [here, Function.update_self, indexed.listed client, leaving]
      exact iff_of_true True.intro stays
    · rw [Function.update_of_ne here]
      exact indexed.listed other
  cases departure with
  | subs =>
      refine ⟨indexed.tables.removeClient ?_ id, indexed.store.become ?_, listed _ True.intro,
        indexed.distinct⟩
      · rw [leaving]
        exact True.intro
      · rw [leaving]
        exact Iff.rfl
  | watchers =>
      refine ⟨indexed.tables.become ?_, indexed.store.removeClient ?_ id, listed _ True.intro,
        indexed.distinct⟩
      · rw [leaving]
        exact Iff.rfl
      · rw [leaving]
        exact True.intro
  | socket => apply indexed.become <;> rw [leaving] <;> exact Iff.rfl
  | clients =>
      refine indexed.relist ?_ ?_ (indexed.distinct.erase client) ?_ ?_
      · exact iff_of_false indexed.distinct.not_mem_erase id
      · exact fun other different => List.mem_erase_of_ne different
      · rw [leaving]
        exact Iff.rfl
      · rw [leaving]
        exact Iff.rfl

theorem Daemon.Indexed.threadStep (indexed : daemon.Indexed) (client target : Client)
    (order : List Bytes) (now later : Nat) :
    (daemon.threadStep client target order now later).Indexed := by
  unfold Daemon.threadStep
  cases life : daemon.life client with
  | absent => exact indexed
  | gone => exact indexed
  | serving =>
      have routed (busy : daemon.broker.thread client ≠ .idle) :
          (daemon.route (daemon.broker.step (client, target))).Indexed := by
        refine ⟨?_, indexed.store, indexed.listed, indexed.distinct⟩
        simp only [Daemon.route, step_tables daemon.broker target busy]
        exact indexed.tables
      dsimp only
      cases place : daemon.broker.thread client with
      | idle =>
          dsimp only
          split
          · exact indexed
          · apply Daemon.Indexed.handleFrame
            · exact ⟨indexed.tables, indexed.store, indexed.listed, indexed.distinct⟩
            · exact life
      | registered topic => exact routed (by rw [place]; nofun)
      | replaying topic value => exact routed (by rw [place]; nofun)
      | routing frame retain targets remaining => exact routed (by rw [place]; nofun)
  | reporting inquiry report => exact indexed.inquire life order
  | leaving departure => exact indexed.depart life

theorem Daemon.Indexed.step (daemon : Daemon Client) (action : DaemonAction Client)
    (indexed : daemon.Indexed) : (daemon.step action).Indexed := by
  cases action with
  | connect client =>
      cases life : daemon.life client with
      | absent =>
          simp only [Daemon.step, life]
          have unlisted : client ∉ daemon.clients := by
            rw [indexed.listed client, life]
            exact id
          refine indexed.relist ?_ ?_ ?_ ?_ ?_
          · exact iff_of_true (List.mem_append_right _ List.mem_cons_self) True.intro
          · intro other different
            rw [List.mem_append, List.mem_singleton]
            exact or_iff_left different
          · rw [← List.concat_eq_append]
            exact indexed.distinct.concat unlisted
          · rw [life]
            exact Iff.rfl
          · rw [life]
            exact Iff.rfl
      | serving | reporting | leaving | gone =>
          simp only [Daemon.step, life]
          exact indexed
  | arrive client frame =>
      exact ⟨indexed.tables, indexed.store, indexed.listed, indexed.distinct⟩
  | thread client target order now later =>
      exact indexed.threadStep client target order now later
  | hangUp client =>
      simp only [Daemon.step]
      split
      · rename_i serving _
        apply indexed.become <;> rw [serving] <;> exact Iff.rfl
      · exact indexed
  | sweep order read =>
      exact ⟨indexed.tables, indexed.store.same (sweep_watching daemon.store read order),
        indexed.listed, indexed.distinct⟩

/-- In every reachable state the tables and the indices of the staying clients agree, exact names
and patterns are apart, no entry is empty, and a client that is gone is in no table. -/
theorem tables_consistent (actions : List (DaemonAction Client)) :
    let daemon := run Daemon.step Daemon.initial actions
    let tables := daemon.broker.tables
    (∀ client, (daemon.life client).Stays →
      (∀ topic, client ∈ tables.subs.members topic ↔ topic ∈ tables.topics client) ∧
      (∀ pattern, client ∈ tables.patternSubs.members pattern ↔ pattern ∈ tables.patterns client) ∧
      (∀ key, client ∈ (daemon.store.watchers key).getD ∅ ↔ key ∈ daemon.store.keys client)) ∧
    (∀ topic ∈ tables.subs.keys, topicHasWildcard topic = false) ∧
    (∀ pattern ∈ tables.patternSubs.keys, topicHasWildcard pattern = true) ∧
    (∀ name, tables.subs.lookup name ≠ some ∅ ∧ tables.patternSubs.lookup name ≠ some ∅ ∧
      daemon.store.watchers name ≠ some ∅) ∧
    (∀ client, daemon.life client = .gone →
      (∀ name, client ∉ tables.subs.members name ∧ client ∉ tables.patternSubs.members name ∧
        client ∉ (daemon.store.watchers name).getD ∅) ∧
      client ∉ daemon.clients) := by
  intro daemon tables
  have indexed : daemon.Indexed := run_invariant Daemon.Indexed.step actions _ .initial
  have sorted := indexed.tables.sorted
  refine ⟨?_, sorted.topics.admitted, sorted.patterns.admitted, ?_, ?_⟩
  · intro client stays
    have agrees := indexed.tables.subscribed client stays.subscribed
    exact ⟨agrees.topics, agrees.patterns, indexed.store.watching client stays.watching⟩
  · intro name
    exact ⟨sorted.topics.occupied name, sorted.patterns.occupied name,
      indexed.store.occupied name⟩
  · intro client gone
    have left : ¬ (daemon.life client).Subscribed := by rw [gone]; exact id
    have unwatched : ¬ (daemon.life client).Watching := by rw [gone]; exact id
    have lacks := indexed.tables.unsubscribed client left
    refine ⟨?_, ?_⟩
    · intro name
      exact ⟨lacks.topics name, lacks.patterns name, indexed.store.unwatched client unwatched name⟩
    · rw [indexed.listed client, gone]
      exact id

end Chappe
