/-
This file embeds the shared-memory names that the rings of several topics create and remove. Each
call of `shm_ring_create` and `shm_ring_destroy` is one step.
-/

import Chappe.Foundation.LittleEndian
import Chappe.Foundation.Run
import Chappe.Foundation.Table

namespace Chappe.RingNames
open Foundation

/-- The function `ring_shm_name` puts `/chappe_` before the topic and replaces its slashes. -/
def ringShmName (topic : Bytes) : Bytes :=
  47 :: ([99, 104, 97, 112, 112, 101, 95] ++ topic).map fun byte => if byte = 47 then 95 else byte

/-- A C string ends before its first zero byte. -/
def cString (bytes : Bytes) : Bytes := bytes.takeWhile (· ≠ 0)

/-- The field `name` of a ring has `SHM_RING_MAX_NAME` bytes, the last of them zero. -/
def shmRingMaxName : Nat := 64

/-- The handle of an owner, with the name that it was opened under. -/
structure Handle where
  opened : Bytes
  name : Bytes
  segment : Nat
  deriving DecidableEq

/-- The names with their segments, the owner that has the lock of each segment, and the handles of
the rings that are not destroyed. -/
structure State (Owner : Type) where
  names : Table Bytes Nat
  count : Nat
  lock : Nat → Option Owner
  handle : Owner → Option Handle

/-- A ring is created for a topic. The flags say that `shm_open` takes the name, and that
`ftruncate` and `mmap` succeed. -/
inductive Action (Owner : Type) where
  | create (ring : Owner) (topic : Bytes) (accepted mapped : Bool)
  | destroy (ring : Owner)
  | die (ring : Owner)

variable {Owner : Type}

def initial : State Owner := ⟨.empty, 0, fun _ => none, fun _ => none⟩

variable [DecidableEq Owner]

/-- The owner of the segment keeps a copy of its name. A failure after the lock unlinks the name. -/
def State.own (state : State Owner) (ring : Owner) (name : Bytes) (segment : Nat) (mapped : Bool) :
    State Owner :=
  if mapped then
    { state with
      names := state.names.insert name segment
      lock := Function.update state.lock segment (some ring)
      handle := Function.update state.handle ring
        (some ⟨name, name.take (shmRingMaxName - 1), segment⟩) }
  else { state with names := state.names.erase name }

/-- The function `shm_ring_create` makes a segment, or reclaims the one of the name when nobody has
its lock. -/
def State.create (state : State Owner) (ring : Owner) (name : Bytes) (mapped : Bool) :
    State Owner :=
  match state.names name with
  | none => { state with count := state.count + 1 }.own ring name state.count mapped
  | some segment =>
      match state.lock segment with
      | none => state.own ring name segment mapped
      | some _ => state

/-- A closed descriptor gives up the lock of its segment. -/
def State.close (state : State Owner) (ring : Owner) (segment : Nat) : State Owner :=
  { state with
    lock := Function.update state.lock segment none
    handle := Function.update state.handle ring none }

/-- The function `shm_ring_destroy` unlinks the name in the handle. -/
def State.destroy (state : State Owner) (ring : Owner) : State Owner :=
  match state.handle ring with
  | none => state
  | some handle =>
      { state.close ring handle.segment with names := state.names.erase handle.name }

/-- A process that dies loses its descriptor and leaves the name. -/
def State.die (state : State Owner) (ring : Owner) : State Owner :=
  match state.handle ring with
  | none => state
  | some handle => state.close ring handle.segment

def step (state : State Owner) : Action Owner → State Owner
  | .create ring topic accepted mapped =>
      if accepted ∧ state.handle ring = none then
        state.create ring (cString (ringShmName topic)) mapped
      else state
  | .destroy ring => state.destroy ring
  | .die ring => state.die ring

end Chappe.RingNames
