/-
This file embeds the calls of `node.hpp` that read and write the store of the daemon, down to the
frames that they send.
-/

import Chappe.Construction.Requests

namespace Chappe
open Foundation

/-- The function `ttl_to_wire`. A time to live is a signed count of milliseconds, and the wire
carries 32 bits of it. -/
def ttlToWire (ttl : Int) : Nat := if ttl ≤ 0 then 0 else (min ttl (2 ^ 32 - 1)).toNat

/-- The frame of `set` for an encoded value. -/
def setFrame (key value : Bytes) (ttl : Int) : Frame :=
  if ttlToWire ttl ≠ 0 then Msg.kvSetex.frame key (appendU32 [] (ttlToWire ttl) ++ value)
  else Msg.kvSet.frame key value

def delFrame (key : Bytes) : Frame := Msg.kvDel.frame key []

/-- The request of `setnx` for an encoded value. -/
def setnxRequest (key value : Bytes) (ttl : Int) : Request where
  msg := .kvSetnx
  name := key
  extra := appendU32 [] (ttlToWire ttl) ++ value

/-- The request of `incr`. A signed count goes over the wire in two's complement. -/
def incrRequest (key : Bytes) (count : Int) : Request where
  msg := .kvIncr
  name := key
  extra := littleEndian 8 (count % 2 ^ 64).toNat

/-- The request of the cold path of `get`. -/
def getRequest (key : Bytes) : Request where
  msg := .kvGet
  name := key
  extra := []

/-- The calls of a node on the store. A value is the bytes of its encoding. -/
inductive KvCall where
  | set (key value : Bytes) (ttl : Int)
  | del (key : Bytes)
  | get (key : Bytes)
  | incr (key : Bytes) (count : Int)
  | setnx (key value : Bytes) (ttl : Int)

/-- The frame of a call. Only the requests use the number of the call. -/
def KvCall.frame (number : Nat) : KvCall → Frame
  | .set key value ttl => setFrame key value ttl
  | .del key => delFrame key
  | .get key => (getRequest key).frame number
  | .incr key count => (incrRequest key count).frame number
  | .setnx key value ttl => (setnxRequest key value ttl).frame number

/-- What a call returns. -/
inductive Returned where
  | nothing
  | value (found : Option Bytes)
  | count (total : Option Int)
  | won (first : Bool)
  deriving DecidableEq

/-- The codec of a signed number of 64 bits. -/
def decodeInt64 (bytes : Bytes) : Option Int :=
  if bytes.length ≠ 8 then none else some ((ofLittleEndian bytes : Int).bmod (2 ^ 64))

/-- What a call makes of the value that its request is fulfilled with. -/
def KvCall.returns : KvCall → Option Bytes → Returned
  | .set _ _ _, _ | .del _, _ => .nothing
  | .get _, found => .value found
  | .incr _ _, found => .count (found.bind decodeInt64)
  | .setnx _ _ _, found => .won found.isSome

/-- What a call returns when the daemon sends the node these frames. A call without a request
returns at once, and any other one waits for the frame that fulfils its number. The reader gives up
the connection at a frame out of bounds, which ends the call without a value. -/
def KvCall.received (number : Nat) (frames : List Frame) : KvCall → Option Returned
  | .set _ _ _ | .del _ => some .nothing
  | call =>
      match ((frames.takeWhile Frame.isBounded).filterMap Frame.fulfills).find? fun answer =>
        answer.1 = wireId number with
      | some answer => some (call.returns answer.2)
      | none => if frames.all Frame.isBounded then none else some (call.returns none)

theorem ttlToWire_lt (ttl : Int) : ttlToWire ttl < 2 ^ 32 := by
  unfold ttlToWire
  split <;> omega

theorem ttlToWire_eq_zero {ttl : Int} : ttlToWire ttl = 0 ↔ ttl ≤ 0 := by
  unfold ttlToWire
  split <;> omega

theorem read_u32 {value : Nat} (small : value < 2 ^ 32) (rest : Bytes) :
    ofLittleEndian ((appendU32 [] value ++ rest).take 4) = value := by
  rw [appendU32, List.nil_append, List.take_left' (littleEndian_length 4 value),
    ofLittleEndian_littleEndian]
  omega

theorem drop_u32 (value : Nat) (rest : Bytes) : (appendU32 [] value ++ rest).drop 4 = rest := by
  rw [appendU32, List.nil_append, List.drop_left' (littleEndian_length 4 value)]

theorem length_u32 (value : Nat) (rest : Bytes) :
    (appendU32 [] value ++ rest).length = 4 + rest.length := by
  rw [List.length_append, appendU32, List.nil_append, littleEndian_length]

/-- The daemon reads a call of `set` as it was made. -/
theorem ofFrame_setFrame (key value : Bytes) (ttl : Int) :
    KvRequest.ofFrame (setFrame key value ttl) =
      some (if 0 < ttl then .setex (ttlToWire ttl) value else .set value) := by
  unfold setFrame
  by_cases positive : 0 < ttl
  · have some : ttlToWire ttl ≠ 0 := fun zero => by
      rw [ttlToWire_eq_zero] at zero
      omega
    rw [if_pos some, if_pos positive]
    have long : ¬ (appendU32 [] (ttlToWire ttl) ++ value).length < 4 := by
      rw [length_u32]
      omega
    simp only [KvRequest.ofFrame, Msg.frame_msg, Msg.frame_payload, if_neg long,
      read_u32 (ttlToWire_lt ttl), drop_u32]
  · have none : ttlToWire ttl = 0 := ttlToWire_eq_zero.mpr (by omega)
    rw [if_neg (fun some => some none), if_neg positive]
    simp [KvRequest.ofFrame]

theorem ofFrame_delFrame (key : Bytes) : KvRequest.ofFrame (delFrame key) = some .del := by
  simp [KvRequest.ofFrame, delFrame]

theorem wireId_lt (call : Nat) : wireId call < 2 ^ 32 := Nat.mod_lt _ (by decide)

/-- The daemon reads a call of `setnx` as it was made. -/
theorem ofFrame_setnxRequest (key value : Bytes) (ttl : Int) (call : Nat) :
    KvRequest.ofFrame ((setnxRequest key value ttl).frame call) =
      some (.setnx (wireId call) (ttlToWire ttl) value) := by
  have long : ¬ (appendU32 [] (wireId call) ++
      (appendU32 [] (ttlToWire ttl) ++ value)).length < 8 := by
    rw [length_u32, length_u32]
    omega
  have tail : (appendU32 [] (wireId call) ++
      (appendU32 [] (ttlToWire ttl) ++ value)).drop 8 = value := by
    rw [show 8 = 4 + 4 from rfl, ← List.drop_drop, drop_u32, drop_u32]
  simp only [KvRequest.ofFrame, Request.frame, setnxRequest, Msg.frame_msg, Msg.frame_payload,
    if_neg long, read_u32 (wireId_lt call), drop_u32, read_u32 (ttlToWire_lt ttl), tail]

/-- The daemon reads a call of `incr` as it was made. -/
theorem ofFrame_incrRequest (key : Bytes) (count : Int) (call : Nat) :
    KvRequest.ofFrame ((incrRequest key count).frame call) =
      some (.incr (wireId call) (count % 2 ^ 64).toNat) := by
  have long : ¬ (appendU32 [] (wireId call) ++
      littleEndian 8 (count % 2 ^ 64).toNat).length < 12 := by
    rw [length_u32, littleEndian_length]
    omega
  have delta : ofLittleEndian ((littleEndian 8 (count % 2 ^ 64).toNat).take 8) =
      (count % 2 ^ 64).toNat := by
    rw [List.take_of_length_le (by rw [littleEndian_length]), ofLittleEndian_littleEndian]
    omega
  simp only [KvRequest.ofFrame, Request.frame, incrRequest, Msg.frame_msg, Msg.frame_payload,
    if_neg long, read_u32 (wireId_lt call), drop_u32, delta]

theorem ofFrame_getRequest (key : Bytes) (call : Nat) :
    KvRequest.ofFrame ((getRequest key).frame call) = some (.get (wireId call)) := by
  have long : ¬ (appendU32 [] (wireId call) ++ []).length < 4 := by
    rw [length_u32]
    simp
  simp only [KvRequest.ofFrame, Request.frame, getRequest, Msg.frame_msg, Msg.frame_payload,
    if_neg long, read_u32 (wireId_lt call)]

end Chappe
