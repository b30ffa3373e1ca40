/-
This file proves that a topic pattern matches its own text, and that a name without a wildcard
matches nothing else.
-/

import Chappe.Construction.Transport
import Mathlib.Tactic.Common

namespace Chappe
open Foundation

theorem mem_joined {levels : List Bytes} {level : Bytes} (member : level ∈ levels) {byte : UInt8}
    (inside : byte ∈ level) : byte ∈ [47].intercalate levels := by
  induction levels with
  | nil => cases member
  | cons first rest ih =>
      cases rest with
      | nil =>
          rw [List.mem_singleton.mp member] at inside
          rw [List.intercalate_singleton]
          exact inside
      | cons second others =>
          rw [List.intercalate_cons_cons, List.append_assoc]
          rcases List.mem_cons.mp member with rfl | later
          · exact List.mem_append_left _ inside
          · exact List.mem_append_right _ (List.mem_append_right _ (ih later))

theorem joined_topicLevels (topic : Bytes) : [47].intercalate (topicLevels topic) = topic :=
  List.intercalate_splitOn 47

/-- The bytes of a level are bytes of the topic. -/
theorem mem_topicLevels {topic level : Bytes} (member : level ∈ topicLevels topic) {byte : UInt8}
    (inside : byte ∈ level) : byte ∈ topic := by
  rw [← joined_topicLevels topic]
  exact mem_joined member inside

theorem topicLevels_injective {first second : Bytes}
    (same : topicLevels first = topicLevels second) : first = second := by
  rw [← joined_topicLevels first, ← joined_topicLevels second, same]

/-- The split loop computes the levels between the slashes. -/
theorem levelsFrom_eq (topic : Bytes) (start : Nat) :
    levelsFrom topic start = topicLevels (topic.drop start) := by
  fun_induction levelsFrom topic start with
  | case1 start missing =>
      symm
      apply List.splitOn_eq_singleton
      intro slash
      simpa using List.findIdx?_eq_none_iff.mp missing 47 slash
  | case2 start size found ih =>
      obtain ⟨inside, slash, before⟩ := List.findIdx?_eq_some_iff_getElem.mp found
      have free : (47 : UInt8) ∉ (topic.drop start).take size := by
        intro member
        obtain ⟨index, below, value⟩ := List.mem_iff_getElem.mp member
        rw [List.length_take] at below
        rw [List.getElem_take] at value
        simpa [value] using before index (by omega)
      have parts : topic.drop start =
          (topic.drop start).take size ++ 47 :: topic.drop (start + size + 1) := by
        rw [← beq_iff_eq.mp slash, Nat.add_assoc, ← List.drop_drop,
          ← List.drop_eq_getElem_cons inside, List.take_append_drop]
      rw [ih]
      conv_rhs => rw [parts]
      exact (List.splitOn_append_cons_self_of_not_mem free _).symm

theorem levelsMatch_self (levels : List Bytes) : levelsMatch levels levels = true := by
  induction levels with
  | nil => rfl
  | cons level rest ih => simp [levelsMatch, ih]

/-- A pattern matches its own text. -/
theorem topicMatches_self (name : Bytes) : topicMatches name name = true := levelsMatch_self _

theorem levelsMatch_plain {levels topic : List Bytes}
    (plain : ∀ level ∈ levels, level ≠ [42] ∧ level ≠ [43])
    (matched : levelsMatch levels topic = true) : topic = levels := by
  induction levels generalizing topic with
  | nil => simpa [levelsMatch] using matched
  | cons level rest ih =>
      obtain ⟨star, plus⟩ := plain level List.mem_cons_self
      cases topic with
      | nil => simp [levelsMatch, star] at matched
      | cons head tail =>
          simp only [levelsMatch, star, if_false, Bool.and_eq_true, Bool.or_eq_true,
            decide_eq_true_eq, plus, false_or] at matched
          rw [matched.1, ih (fun other member => plain other (List.mem_cons_of_mem _ member))
            matched.2]

/-- A name without a wildcard matches only itself. -/
theorem topicMatches_plain {name topic : Bytes} (plain : topicHasWildcard name = false)
    (matched : topicMatches name topic = true) : topic = name := by
  apply topicLevels_injective
  apply levelsMatch_plain _ matched
  simp only [topicHasWildcard, Bool.or_eq_false_iff] at plain
  intro level member
  constructor
  · rintro rfl
    have inside : (42 : UInt8) ∈ name := mem_topicLevels member (List.mem_singleton_self _)
    simp [inside] at plain
  · rintro rfl
    have inside : (43 : UInt8) ∈ name := mem_topicLevels member (List.mem_singleton_self _)
    simp [inside] at plain

/-- A level of a pattern is `+`, or it is the level of the topic. -/
def LevelFits (pattern topic : List Bytes) (index : Nat) : Prop :=
  pattern[index]? = some [43] ∨ pattern[index]? = topic[index]?

/-- The rule of the patterns. The first `*` matches the remaining levels, and every level before it
has to fit. Without a `*` the pattern has as many levels as the topic. -/
def LevelRule (pattern topic : List Bytes) : Prop :=
  (∃ star, pattern[star]? = some [42] ∧ (∀ index < star, pattern[index]? ≠ some [42]) ∧
    star ≤ topic.length ∧ ∀ index < star, LevelFits pattern topic index) ∨
  [42] ∉ pattern ∧ pattern.length = topic.length ∧
    ∀ index < pattern.length, LevelFits pattern topic index

/-- The fits of two longer lists are those of their heads and their tails. -/
theorem levelFits_cons {level head : Bytes} {rest tail : List Bytes} {bound : Nat} :
    (∀ index < bound + 1, LevelFits (level :: rest) (head :: tail) index) ↔
      (level = [43] ∨ level = head) ∧ ∀ index < bound, LevelFits rest tail index := by
  rw [Nat.forall_lt_succ_left]
  simp [LevelFits]

theorem levelRule_cons {level head : Bytes} {rest tail : List Bytes} (other : level ≠ [42]) :
    LevelRule (level :: rest) (head :: tail) ↔
      (level = [43] ∨ level = head) ∧ LevelRule rest tail := by
  constructor
  · rintro (⟨star, there, first, within, fits⟩ | ⟨none, same, fits⟩)
    · cases star with
      | zero => exact absurd (Option.some.inj there) other
      | succ star =>
          obtain ⟨fit, later⟩ := levelFits_cons.mp fits
          refine ⟨fit, .inl ⟨star, there, ?_, Nat.le_of_succ_le_succ within, later⟩⟩
          intro index below
          exact first (index + 1) (by omega)
    · obtain ⟨fit, later⟩ := levelFits_cons.mp fits
      exact ⟨fit, .inr ⟨fun member => none (List.mem_cons_of_mem _ member), Nat.succ.inj same,
        later⟩⟩
  · rintro ⟨fit, ⟨star, there, first, within, fits⟩ | ⟨none, same, fits⟩⟩
    · refine .inl ⟨star + 1, there, ?_, Nat.succ_le_succ within, levelFits_cons.mpr ⟨fit, fits⟩⟩
      intro index below
      cases index with
      | zero => exact fun here => other (Option.some.inj here)
      | succ index => exact first index (by omega)
    · refine .inr ⟨?_, congrArg Nat.succ same, levelFits_cons.mpr ⟨fit, fits⟩⟩
      rw [List.mem_cons]
      exact not_or_intro (fun here => other here.symm) none

/-- The level loop follows the rule. -/
theorem levelsMatch_iff (pattern topic : List Bytes) :
    levelsMatch pattern topic = true ↔ LevelRule pattern topic := by
  induction pattern generalizing topic with
  | nil =>
      cases topic with
      | nil => simp [levelsMatch, LevelRule]
      | cons head tail => simp [levelsMatch, LevelRule]
  | cons level rest ih =>
      by_cases star : level = [42]
      · subst level
        refine iff_of_true rfl (.inl ⟨0, rfl, ?_, Nat.zero_le _, ?_⟩)
        · intro index below
          exact absurd below (Nat.not_lt_zero index)
        · intro index below
          exact absurd below (Nat.not_lt_zero index)
      · cases topic with
        | nil =>
            refine iff_of_false (by simp [levelsMatch, star]) ?_
            rintro (⟨index, there, first, within, fits⟩ | ⟨none, same, fits⟩)
            · rw [Nat.le_zero.mp within] at there
              exact star (Option.some.inj there)
            · cases same
        | cons head tail =>
            rw [levelRule_cons star, ← ih]
            simp [levelsMatch, star]

end Chappe
