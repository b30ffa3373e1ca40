/-
This file proves that the two subscription tables of the daemon implement one matcher.
-/

import Chappe.Proof.Network.Routing

namespace Chappe
open Foundation

variable {Client : Type} [DecidableEq Client] {tables : Tables Client} {client : Client}

/-- A client is routed the topics that one of its names matches. -/
theorem mem_targets_names (sorted : tables.Sorted) (agrees : tables.Agrees client)
    (topic : Bytes) : client ∈ tables.targets topic ↔
      ∃ name ∈ tables.topics client ∪ tables.patterns client,
        topicMatches name topic = true := by
  rw [mem_targets]
  constructor
  · rintro (plain | ⟨pattern, member, matched⟩)
    · exact ⟨topic, Finset.mem_union_left _ ((agrees.topics topic).mp plain),
        topicMatches_self topic⟩
    · exact ⟨pattern, Finset.mem_union_right _ ((agrees.patterns pattern).mp member), matched⟩
  · rintro ⟨name, held, matched⟩
    rcases Finset.mem_union.mp held with topics | patterns
    · have member := (agrees.topics name).mpr topics
      have plain := sorted.topics.admitted name (Registry.mem_keys member)
      rw [topicMatches_plain plain matched]
      exact .inl member
    · exact .inr ⟨name, (agrees.patterns name).mpr patterns, matched⟩

/-- A first subscription routes the topics that its name matches, whichever table has it. -/
theorem mem_targets_subscribe (lacks : tables.Lacks client) (name topic : Bytes) :
    client ∈ (tables.subscribe client name).targets topic ↔ topicMatches name topic = true := by
  rw [mem_targets]
  unfold Tables.subscribe
  split
  · simp only [Registry.mem_add, lacks.topics topic, lacks.patterns _, false_or]
    constructor
    · rintro ⟨pattern, ⟨rfl, -⟩, matched⟩
      exact matched
    · exact fun matched => ⟨name, ⟨rfl, True.intro⟩, matched⟩
  · rename_i plain
    simp only [Registry.mem_add, lacks.topics topic, lacks.patterns _, false_or, false_and,
      exists_false, or_false, and_true]
    constructor
    · rintro rfl
      exact topicMatches_self topic
    · exact topicMatches_plain (Bool.eq_false_of_not_eq_true plain)

/-- A client whose only subscription is one name is routed the topics that this name matches. A name
without a wildcard matches only itself, every name matches itself, and the match follows the rule on
the levels. -/
theorem one_matcher :
    (∀ (actions : List (DaemonAction Client)) (client : Client) (name topic : Bytes),
      ((run Daemon.step Daemon.initial actions).life client).Subscribed →
      (run Daemon.step Daemon.initial actions).broker.tables.topics client ∪
        (run Daemon.step Daemon.initial actions).broker.tables.patterns client = {name} →
      (client ∈ (run Daemon.step Daemon.initial actions).broker.tables.targets topic ↔
        topicMatches name topic = true)) ∧
    (∀ (tables : Tables Client) (client : Client) (name topic : Bytes), tables.Lacks client →
      (client ∈ (tables.subscribe client name).targets topic ↔
        topicMatches name topic = true)) ∧
    ∀ name topic : Bytes,
      (topicHasWildcard name = false → (topicMatches name topic = true ↔ name = topic)) ∧
      topicMatches name name = true ∧
      (topicMatches name topic = true ↔ LevelRule (topicLevels name) (topicLevels topic)) := by
  refine ⟨?_, fun tables client name topic lacks => mem_targets_subscribe lacks name topic, ?_⟩
  · intro actions client name topic subscribed only
    have indexed : (run Daemon.step Daemon.initial actions).Indexed :=
      run_invariant Daemon.Indexed.step actions _ .initial
    rw [mem_targets_names indexed.tables.sorted (indexed.tables.subscribed client subscribed), only]
    simp
  · intro name topic
    refine ⟨?_, topicMatches_self name, levelsMatch_iff _ _⟩
    intro plain
    constructor
    · exact fun matched => (topicMatches_plain plain matched).symm
    · rintro rfl
      exact topicMatches_self name

/-- A client connects and subscribes to `a/+`. -/
def patternSubscribed : List (DaemonAction Bool) :=
  [.connect true, .arrive true (Msg.subscribe.frame [97, 47, 43] []), .thread true true [] 0 0]

theorem one_matcher_small :
    true ∈ (run Daemon.step Daemon.initial patternSubscribed).broker.tables.targets [97, 47, 98] ∧
      true ∉ (run Daemon.step Daemon.initial patternSubscribed).broker.tables.targets [97] := by
  have serving : (run Daemon.step Daemon.initial patternSubscribed).life true = .serving := rfl
  have subscribed : ((run Daemon.step Daemon.initial patternSubscribed).life true).Subscribed := by
    rw [serving]
    exact True.intro
  have routes (topic : Bytes) := one_matcher.1 patternSubscribed true [97, 47, 43] topic
    subscribed (by decide +kernel)
  exact ⟨(routes _).mpr (by decide), fun member => absurd ((routes _).mp member) (by decide)⟩

end Chappe
