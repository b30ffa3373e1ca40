/-
This file relates the names of a Python node to their bytes: UTF-8 is one to one and keeps the
slashes and the wildcards, so that both clients match topics alike.
-/

import Chappe.Construction.PythonNode
import Chappe.Foundation.Coding

namespace Chappe
open Foundation

theorem encodeChars_toArray (chars : List Char) :
    (⟨(encodeChars chars).toArray⟩ : ByteArray) = chars.utf8Encode := by
  rw [List.utf8Encode]
  ext1
  rw [List.data_toByteArray]
  rfl

theorem decodeChars_encodeChars (chars : List Char) :
    decodeChars (encodeChars chars) = some chars := by
  rw [decodeChars, encodeChars_toArray, List.utf8Decode?_utf8Encode]
  rfl

/-- Bytes decode exactly when they are the encoding of characters. -/
theorem decodeChars_eq_some {bytes : Bytes} {chars : List Char} :
    decodeChars bytes = some chars ↔ bytes = encodeChars chars := by
  constructor
  · intro decoded
    obtain ⟨array, found, -⟩ := Option.map_eq_some_iff.mp decoded
    have valid : (ByteArray.utf8Decode? ⟨bytes.toArray⟩).isSome := by
      rw [found]
      rfl
    obtain ⟨back, same⟩ := ByteArray.isSome_utf8Decode?_iff.mp valid
    have encoded : bytes = encodeChars back := by
      rw [← encodeChars_toArray] at same
      simpa using congrArg (fun bytes : ByteArray => bytes.data.toList) same
    rw [encoded, decodeChars_encodeChars] at decoded
    rw [encoded, Option.some.inj decoded]
  · rintro rfl
    exact decodeChars_encodeChars chars

theorem decodeName_encodeChars (chars : List Char) :
    decodeName (encodeChars chars) = some (pointsOf chars) := by
  rw [decodeName, decodeChars_encodeChars]
  rfl

/-- A name decodes exactly when it is the encoding of characters. -/
theorem decodeName_eq_some {key : Bytes} {name : PythonString} :
    decodeName key = some name ↔ ∃ chars, key = encodeChars chars ∧ name = pointsOf chars := by
  constructor
  · intro decoded
    obtain ⟨chars, found, rfl⟩ := Option.map_eq_some_iff.mp decoded
    exact ⟨chars, decodeChars_eq_some.mp found, rfl⟩
  · rintro ⟨chars, rfl, rfl⟩
    exact decodeName_encodeChars chars

theorem ofChar_injective : Function.Injective CodePoint.ofChar := by
  intro first second same
  exact Char.toNat_inj.mp (Fin.mk.inj same)

theorem pointsOf_injective : Function.Injective pointsOf :=
  List.map_injective_iff.mpr ofChar_injective

theorem encodeChars_injective : Function.Injective encodeChars := by
  intro first second same
  have decoded := congrArg decodeChars same
  rw [decodeChars_encodeChars, decodeChars_encodeChars] at decoded
  exact Option.some.inj decoded

/-- Two byte strings do not decode to the same name. -/
theorem decodeName_injective {first second : Bytes} {name : PythonString}
    (one : decodeName first = some name) (other : decodeName second = some name) :
    first = second := by
  obtain ⟨chars, rfl, rfl⟩ := decodeName_eq_some.mp one
  obtain ⟨more, rfl, same⟩ := decodeName_eq_some.mp other
  rw [pointsOf_injective same]

/-- A decoder goes on after the encoding of some characters. -/
theorem decodeChars_append (front : List Char) (rest : Bytes) :
    decodeChars (encodeChars front ++ rest) = (decodeChars rest).map (front ++ ·) := by
  induction front with
  | nil => simp [encodeChars]
  | cons char front ih =>
      have bytes : (⟨(encodeChars (char :: front) ++ rest).toArray⟩ : ByteArray) =
          [char].utf8Encode ++ ⟨(encodeChars front ++ rest).toArray⟩ := by
        rw [← encodeChars_toArray]
        ext1
        simp [encodeChars]
      rw [decodeChars, bytes, ByteArray.utf8Decode?_utf8Encode_singleton_append, Option.map_map]
      have later : Array.toList ∘ (#[char] ++ ·) = (char :: ·) ∘ Array.toList := by
        funext chars
        simp
      rw [later, ← Option.map_map, ← decodeChars, ih, Option.map_map]
      rfl

/-- An ASCII byte is in the encoding of its own character only. -/
theorem mem_utf8EncodeChar {char : Char} {byte : UInt8} (small : byte.toNat < 128)
    (member : byte ∈ String.utf8EncodeChar char) : char.toNat = byte.toNat := by
  have large (value : Nat) (low : 128 ≤ value) (high : value < 256) :
      byte ≠ UInt8.ofNat value := by
    rintro rfl
    rw [UInt8.toNat_ofNat', Nat.mod_eq_of_lt high] at small
    omega
  unfold String.utf8EncodeChar at member
  dsimp only at member
  split at member
  · rename_i ascii
    rw [List.mem_singleton.mp member, UInt8.toNat_ofNat']
    exact (Nat.mod_eq_of_lt (Nat.lt_of_le_of_lt ascii (by decide))).symm
  · split at member
    · rcases List.mem_pair.mp member with first | second
      · exact absurd first (large _ (by omega) (by omega))
      · exact absurd second (large _ (by omega) (by omega))
    · split at member
      · simp only [List.mem_cons, List.not_mem_nil, or_false] at member
        rcases member with first | second | third
        · exact absurd first (large _ (by omega) (by omega))
        · exact absurd second (large _ (by omega) (by omega))
        · exact absurd third (large _ (by omega) (by omega))
      · simp only [List.mem_cons, List.not_mem_nil, or_false] at member
        rcases member with first | second | third | fourth
        · exact absurd first (large _ (by omega) (by omega))
        · exact absurd second (large _ (by omega) (by omega))
        · exact absurd third (large _ (by omega) (by omega))
        · exact absurd fourth (large _ (by omega) (by omega))

theorem topicLevels_encodeChars (chars : List Char) :
    topicLevels (encodeChars chars) = (chars.splitOn '/').map encodeChars := by
  refine splitOn_flatMap String.utf8EncodeChar (by decide) ?_ chars
  intro char other member
  exact other (Char.toNat_inj.mp (mem_utf8EncodeChar (by decide) member))

theorem pythonLevels_pointsOf (chars : List Char) :
    pythonLevels (pointsOf chars) = (chars.splitOn '/').map pointsOf := by
  have coded (items : List Char) : pointsOf items = items.flatMap fun char => [.ofChar char] :=
    List.map_eq_flatMap
  have pieces : (chars.flatMap fun char => [CodePoint.ofChar char]).splitOn 47 =
      (chars.splitOn '/').map (·.flatMap fun char => [CodePoint.ofChar char]) := by
    have free (char : Char) (other : char ≠ '/') : 47 ∉ [CodePoint.ofChar char] := by
      intro member
      exact other (ofChar_injective (List.mem_singleton.mp member).symm)
    exact splitOn_flatMap (fun char => [CodePoint.ofChar char]) rfl free chars
  rw [pythonLevels, coded, pieces]
  exact List.map_congr_left fun piece _ => (coded piece).symm

/-- The two matchers agree level by level. -/
theorem levelsMatch_encodeChars (pattern topic : List (List Char)) :
    levelsMatch (pattern.map encodeChars) (topic.map encodeChars) =
      pythonLevelsMatch (pattern.map pointsOf) (topic.map pointsOf) := by
  have star (level : List Char) : encodeChars level = [42] ↔ pointsOf level = [42] := by
    rw [show ([42] : Bytes) = encodeChars ['*'] by decide, encodeChars_injective.eq_iff,
      show ([42] : PythonString) = pointsOf ['*'] from rfl, pointsOf_injective.eq_iff]
  have plus (level : List Char) : encodeChars level = [43] ↔ pointsOf level = [43] := by
    rw [show ([43] : Bytes) = encodeChars ['+'] by decide, encodeChars_injective.eq_iff,
      show ([43] : PythonString) = pointsOf ['+'] from rfl, pointsOf_injective.eq_iff]
  have equal (level head : List Char) :
      encodeChars level = encodeChars head ↔ pointsOf level = pointsOf head := by
    rw [encodeChars_injective.eq_iff, pointsOf_injective.eq_iff]
  induction pattern generalizing topic with
  | nil => cases topic <;> rfl
  | cons level rest ih =>
      cases topic with
      | nil => simp only [List.map_cons, List.map_nil, levelsMatch, pythonLevelsMatch, star level]
      | cons head tail =>
          simp only [List.map_cons, levelsMatch, pythonLevelsMatch, star level, plus level,
            equal level head, ih tail]

/-- Python matches code points as `topic_matches` matches their bytes. -/
theorem topicMatches_decoded {pattern topic : Bytes} {patternName topicName : PythonString}
    (first : decodeName pattern = some patternName) (second : decodeName topic = some topicName) :
    pythonTopicMatches patternName topicName = topicMatches pattern topic := by
  obtain ⟨chars, rfl, rfl⟩ := decodeName_eq_some.mp first
  obtain ⟨more, rfl, rfl⟩ := decodeName_eq_some.mp second
  rw [pythonTopicMatches, topicMatches, pythonLevels_pointsOf, pythonLevels_pointsOf,
    topicLevels_encodeChars, topicLevels_encodeChars, levelsMatch_encodeChars]

end Chappe
