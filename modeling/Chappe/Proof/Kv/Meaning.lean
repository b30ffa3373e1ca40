/-
This file proves that the calls of the nodes mean over the wire what they mean for one timed table
of values and signed counters.
-/

import Chappe.Construction.NodeCalls
import Chappe.Proof.Daemon.ReplySizes
import Chappe.Proof.Kv.TimedRefinement
import Chappe.Proof.Requests.Answers

namespace Chappe
open Foundation

/-- The deadline that a call gives to a key. The wire cannot carry a longer time. -/
def limitOf (later : Nat) (ttl : Int) : Option Nat :=
  if 0 < ttl then some (later + milliseconds (min ttl (2 ^ 32 - 1)).toNat) else none

/-- The word of a signed number of 64 bits, which wraps. -/
def word64 (count : Int) : Bytes := littleEndian 8 (count % 2 ^ 64).toNat

/-- A value for which there is room in a reply, after the number of the request and the flag. -/
def Replied (value : Bytes) : Bool := value.length + 5 ≤ maxFrameBytes

/-- What a call does to a timed table, and what it returns. -/
def KvCall.meaning (table : TimedTable Bytes Bytes) (now later : Nat) :
    KvCall → TimedTable Bytes Bytes × Returned
  | .set key value ttl => (table.insert key (value, limitOf later ttl), .nothing)
  | .del key => (table.erase key, .nothing)
  | .get key => (table, .value (((table.at now key).map Prod.fst).filter Replied))
  | .incr key count =>
      match table.at now key with
      | none => (table.insert key (word64 count, none), .count (some (count.bmod (2 ^ 64))))
      | some (value, limit) =>
          match decodeInt64 value with
          | none => (table, .count none)
          | some total =>
              (table.insert key (word64 (total + count), limit),
                .count (some ((total + count).bmod (2 ^ 64))))
  | .setnx key value ttl =>
      match table.at now key with
      | none => (table.insert key (value, limitOf later ttl), .won true)
      | some _ => (table, .won false)

def KvCall.key : KvCall → Bytes
  | .set key _ _ | .del key | .get key | .incr key _ | .setnx key _ _ => key

/-- The length of the payload of a call. -/
def KvCall.size : KvCall → Nat
  | .set _ value ttl => (if 0 < ttl then 4 else 0) + value.length
  | .del _ => 0
  | .get _ => 4
  | .incr _ _ => 12
  | .setnx _ value _ => 8 + value.length

/-- The daemon reads the frame of the call. -/
def KvCall.isRead (call : KvCall) : Bool :=
  call.key.length ≤ maxFrameBytes && call.size ≤ maxFrameBytes

/-- What a call means. One that the daemon does not read is lost. -/
def KvCall.outcome (table : TimedTable Bytes Bytes) (now later : Nat) (call : KvCall) :
    TimedTable Bytes Bytes × Returned :=
  if call.isRead then call.meaning table now later else (table, call.returns none)

/-- A call of a client with its number, or a pass of the sweep, with the values of the clock. -/
inductive CallEvent (Client : Type) where
  | made (client : Client) (number : Nat) (call : KvCall) (now later : Nat)
  | sweep (order : List Bytes) (read now : Nat)

variable {Client : Type}

/-- What the daemon takes for an event. -/
def CallEvent.kv : CallEvent Client → KvEvent Client
  | .made client number call now later => .frame client (call.frame number) now later
  | .sweep order read now => .sweep order read now

/-- The wire can say how long the frame of a call is. -/
def CallEvent.Sized : CallEvent Client → Prop
  | .made _ _ call _ _ => call.key.length < 2 ^ 32 ∧ call.size < 2 ^ 32
  | .sweep _ _ _ => True

/-- The request that the daemon reads for a call. -/
def KvCall.request (number : Nat) : KvCall → KvRequest
  | .set _ value ttl => if 0 < ttl then .setex (ttlToWire ttl) value else .set value
  | .del _ => .del
  | .get _ => .get (wireId number)
  | .incr _ count => .incr (wireId number) (count % 2 ^ 64).toNat
  | .setnx _ value ttl => .setnx (wireId number) (ttlToWire ttl) value

theorem KvCall.frame_name (number : Nat) (call : KvCall) : (call.frame number).name = call.key := by
  cases call with
  | set key value ttl =>
      simp only [KvCall.frame, setFrame, KvCall.key]
      split <;> rfl
  | del key | get key | incr key count | setnx key value ttl => rfl

theorem isBounded_iff {frame : Frame} : frame.isBounded = true ↔ frame.Fits := by
  rw [Frame.isBounded, Bool.and_eq_true, decide_eq_true_eq, decide_eq_true_eq]
  rfl

/-- The daemon reads every call as it was made. -/
theorem KvCall.ofFrame (number : Nat) (call : KvCall) :
    KvRequest.ofFrame (call.frame number) = some (call.request number) := by
  cases call with
  | set key value ttl => exact ofFrame_setFrame key value ttl
  | del key => exact ofFrame_delFrame key
  | get key => exact ofFrame_getRequest key number
  | incr key count => exact ofFrame_incrRequest key count number
  | setnx key value ttl => exact ofFrame_setnxRequest key value ttl number

theorem deadlineAfter_wire (later : Nat) (ttl : Int) :
    deadlineAfter later (ttlToWire ttl) = limitOf later ttl := by
  unfold deadlineAfter limitOf
  by_cases positive : 0 < ttl
  · have some : ttlToWire ttl ≠ 0 := fun zero => by
      rw [ttlToWire_eq_zero] at zero
      omega
    have wire : ttlToWire ttl = (min ttl (2 ^ 32 - 1)).toNat := if_neg (by omega)
    rw [if_pos some, if_pos positive, wire]
  · have none : ttlToWire ttl = 0 := ttlToWire_eq_zero.mpr (by omega)
    rw [none, if_neg positive]
    rfl

theorem word64_length (count : Int) : (word64 count).length = 8 := littleEndian_length ..

theorem decodeInt64_word (count : Int) :
    decodeInt64 (word64 count) = some (count.bmod (2 ^ 64)) := by
  have small : (count % 2 ^ 64).toNat < 256 ^ 8 := by omega
  have cast : (((count % 2 ^ 64).toNat : Nat) : Int) = count % 2 ^ 64 := by omega
  simp only [decodeInt64, word64, littleEndian_length, ne_eq, not_true_eq_false, if_false,
    ofLittleEndian_littleEndian]
  rw [Nat.mod_eq_of_lt small, cast]
  exact congrArg some (Int.emod_bmod count (2 ^ 64))

/-- The sum of the daemon is the sum of the signed numbers. -/
theorem counterSum_word (current : Nat) (count : Int) :
    counterSum current (count % 2 ^ 64).toNat =
      word64 ((current : Int).bmod (2 ^ 64) + count) := by
  have wraps : (current : Int).bmod (2 ^ 64) % 2 ^ 64 = (current : Int) % 2 ^ 64 :=
    Int.bmod_emod
  have same : (current + (count % 2 ^ 64).toNat) % 2 ^ 64 =
      (((current : Int).bmod (2 ^ 64) + count) % 2 ^ 64).toNat := by
    omega
  rw [counterSum, same]
  rfl

theorem answerId_payload (number : Nat) (flag : Bool) (value : Bytes) :
    answerId (answerPayload (wireId number) flag value) = wireId number := by
  rw [answerId, answerPayload, read_u32 (wireId_lt number)]

theorem answerValue_false (id : Nat) : answerValue (answerPayload id false []) = none := by
  simp [answerValue, answerPayload, appendU32, littleEndian]

theorem answerValue_true (id : Nat) (value : Bytes) :
    answerValue (answerPayload id true value) = some value := by
  simp [answerValue, answerPayload, appendU32, littleEndian]

theorem kvResult_fulfills (key : Bytes) (number : Nat) (ok : Bool) (value : Bytes) :
    (kvResult key (wireId number) ok value).fulfills = some (wireId number,
      answerValue (answerPayload (wireId number) ok value)) := by
  have long : ¬ (answerPayload (wireId number) ok value).length < 5 := by
    rw [answerPayload_length]
    omega
  simp only [Frame.fulfills, kvResult, Msg.frame_msg, Msg.frame_payload, if_neg long,
    answerId_payload]

theorem kvReply_fulfills (key : Bytes) (number : Nat) (found : Option Bytes) :
    (kvReply key (wireId number) found).fulfills = some (wireId number, found) := by
  have long : ¬ (answerPayload (wireId number) found.isSome (found.getD [])).length < 5 := by
    rw [answerPayload_length]
    omega
  have value : answerValue (answerPayload (wireId number) found.isSome (found.getD [])) =
      found := by
    cases found with
    | none => exact answerValue_false _
    | some value => exact answerValue_true _ value
  simp only [Frame.fulfills, kvReply, Msg.frame_msg, Msg.frame_payload, if_neg long,
    answerId_payload, value]

/-- A request that is answered once returns what the answer holds. -/
theorem KvCall.received_single {call : KvCall} {number : Nat} {frame : Frame} {value : Option Bytes}
    (fits : frame.Fits) (fulfills : frame.fulfills = some (wireId number, value)) :
    call.received number [frame] = some (call.returns value) := by
  have bounded := isBounded_iff.mpr fits
  cases call <;> simp [KvCall.received, bounded, fulfills, KvCall.returns]

/-- A request whose answer is out of bounds returns without a value. -/
theorem KvCall.received_refused {call : KvCall} {number : Nat} {frame : Frame}
    (refused : frame.isBounded = false) (waits : ∀ found, call.returns found ≠ .nothing) :
    call.received number [frame] = some (call.returns none) := by
  cases call with
  | set key value ttl => exact absurd rfl (waits none)
  | del key => exact absurd rfl (waits none)
  | get key | incr key count | setnx key value ttl => simp [KvCall.received, refused]

/-- The answer of the reference to the request of a call is the meaning of the call. -/
theorem KvCall.answered (table : TimedTable Bytes Bytes) (now later number : Nat) {call : KvCall}
    (name : Small call.key) :
    (Reference.answer table now later call.key (call.request number)).1 =
        (call.meaning table now later).1 ∧
      call.received number
          (Reference.answer table now later call.key (call.request number)).2.toList =
        some (call.meaning table now later).2 := by
  cases call with
  | set key value ttl =>
      refine ⟨?_, rfl⟩
      by_cases positive : 0 < ttl
      · simp only [KvCall.request, if_pos positive, Reference.answer, deadlineAfter_wire]
        rfl
      · simp only [KvCall.request, if_neg positive, Reference.answer, KvCall.meaning, limitOf]
        rfl
  | del key => exact ⟨rfl, rfl⟩
  | get key =>
      refine ⟨rfl, ?_⟩
      simp only [KvCall.request, KvCall.key, Reference.answer, KvCall.meaning, Option.toList_some]
      cases found : (table.at now key).map Prod.fst with
      | none =>
          have length := answerPayload_length (wireId number) false []
          exact KvCall.received_single ⟨name, length.le.trans (by decide)⟩
            (kvReply_fulfills key number none)
      | some value =>
          rw [Option.filter_some]
          have length := answerPayload_length (wireId number) true value
          by_cases short : Replied value
          · rw [if_pos short]
            have room : value.length + 5 ≤ maxFrameBytes := by simpa [Replied] using short
            exact KvCall.received_single ⟨name, length.le.trans (by omega)⟩
              (kvReply_fulfills key number (some value))
          · rw [if_neg short]
            have long : ¬ value.length + 5 ≤ maxFrameBytes := by simpa [Replied] using short
            refine KvCall.received_refused ?_ (by simp [KvCall.returns])
            rw [← Bool.not_eq_true, isBounded_iff]
            intro fits
            have room : (answerPayload (wireId number) true value).length ≤ maxFrameBytes := fits.2
            omega
  | incr key count =>
      have zero : counterSum 0 (count % 2 ^ 64).toNat = word64 count := by
        rw [counterSum_word]
        simp
      simp only [KvCall.request, KvCall.key, Reference.answer, KvCall.meaning]
      cases found : table.at now key with
      | none =>
          refine ⟨by rw [zero], ?_⟩
          dsimp only
          rw [zero]
          refine (KvCall.received_single (kvResult_fits name _ _ (word64_length count).le)
            (kvResult_fulfills key number true _)).trans ?_
          rw [answerValue_true]
          simp [KvCall.returns, decodeInt64_word]
      | some entry =>
          obtain ⟨value, limit⟩ := entry
          dsimp only
          by_cases width : value.length ≠ 8
          · have invalid : decodeInt64 value = none := if_pos width
            rw [if_pos width, invalid]
            refine ⟨rfl, ?_⟩
            refine (KvCall.received_single (kvResult_fits name _ _ (Nat.zero_le _))
              (kvResult_fulfills key number false _)).trans ?_
            rw [answerValue_false]
            rfl
          · have valid : decodeInt64 value =
                some ((ofLittleEndian value : Int).bmod (2 ^ 64)) := if_neg width
            rw [if_neg width, valid, counterSum_word]
            refine ⟨rfl, ?_⟩
            refine (KvCall.received_single (kvResult_fits name _ _ (word64_length _).le)
              (kvResult_fulfills key number true _)).trans ?_
            rw [answerValue_true]
            simp [KvCall.returns, decodeInt64_word]
  | setnx key value ttl =>
      simp only [KvCall.request, KvCall.key, Reference.answer, KvCall.meaning]
      cases table.at now key with
      | none =>
          refine ⟨by simp only [deadlineAfter_wire], ?_⟩
          refine (KvCall.received_single (kvResult_fits name _ _ (Nat.zero_le _))
            (kvResult_fulfills key number true _)).trans ?_
          rw [answerValue_true]
          rfl
      | some entry =>
          refine ⟨rfl, ?_⟩
          refine (KvCall.received_single (kvResult_fits name _ _ (Nat.zero_le _))
            (kvResult_fulfills key number false _)).trans ?_
          rw [answerValue_false]
          rfl

variable [DecidableEq Client]

/-- The store refines the table, and its values are within bounds. -/
structure Serves (store : Store Client) (reference : Reference) : Prop where
  refines : Refines store reference.table reference.clock
  bounded : store.Bounded

theorem Serves.removeClient {store : Store Client} {reference : Reference}
    (serves : Serves store reference) (client : Client) :
    Serves (store.removeClient client) reference :=
  ⟨⟨serves.refines.stored, serves.refines.absent⟩,
    ⟨serves.bounded.values, serves.bounded.deadlines⟩⟩

end Chappe
