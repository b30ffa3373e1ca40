/-
This file embeds `Ring.write` of `shm_ring.py`. A call runs the functions of `shm_ring.c` to their
ends, and the consumers take their steps between the calls.
-/

import Chappe.Construction.ShmRing

namespace Chappe.RingWrite
open ShmRing

/-- What `len` and `ctypes.memmove` make of an object. An object without a length or without a
memory makes the call raise. -/
structure Object where
  length : Option Nat
  memory : Option (Nat → UInt8)

/-- The exceptions that leave a call of `Ring.write`. -/
inductive Error where
  | typeError
  | valueError (text : String)
  | argumentError
  deriving DecidableEq

/-- A scan over `2 ^ 32 - 1` slots that finds none does not end. -/
inductive Outcome where
  | returned (written : Bool)
  | raised (error : Error)
  | scanning
  deriving DecidableEq

variable {Party : Type} {geometry : Geometry}

def exceeds (length size : Nat) : Error := .valueError s!"frame {length}B exceeds slot {size}B"

/-- The steps that a call of `shm_ring_acquire_slot` takes at most. -/
def scanSteps (geometry : Geometry) : Nat := 6 * geometry.numSlots

/-- This is `shm_ring_acquire_slot` without a step of a consumer. -/
def acquireSlot (state : State Party geometry) : State Party geometry :=
  producerStep^[scanSteps geometry] { state with producer := .scan state.lastReady 1 }

/-- The first bytes of the slot become those of the object. -/
def memmove (state : State Party geometry) (idx : geometry.Index) (memory : Nat → UInt8)
    (length : Nat) : State Party geometry :=
  let bytes : geometry.Payload := fun offset =>
    if offset.val < length then memory offset else state.payload idx offset
  { state with payload := Function.update state.payload idx bytes, draft := bytes }

variable [DecidableEq Party]

/-- These are the two stores of `shm_ring_publish_slot`. -/
def publishSlot (state : State Party geometry) : State Party geometry :=
  producerStep (step state .publishSlot)

/-- A call that raises leaves its slot as it is, and nothing remembers it. The same goes for a slot
whose number the cast of `shm_ring_acquire_slot` makes negative. -/
def write (state : State Party geometry) (object : Object) : State Party geometry × Outcome :=
  match object.length with
  | none => (state, .raised .typeError)
  | some length =>
      if geometry.slotSize < length then (state, .raised (exceeds length geometry.slotSize))
      else
        let acquired := acquireSlot state
        match acquired.producer with
        | .owned idx =>
            if (UInt32.ofNat idx).toInt32 < 0 then
              ({ acquired with producer := .idle }, .returned false)
            else
              match object.memory with
              | none => ({ acquired with producer := .idle }, .raised .argumentError)
              | some memory =>
                  (publishSlot (memmove acquired idx memory length), .returned true)
        | .idle => (acquired, .returned false)
        | _ => (acquired, .scanning)

/-- The producer calls `write`, or a consumer takes a step. -/
inductive Action (Party : Type) where
  | write (object : Object)
  | retainLatest (party : Party)
  | consumer (party : Party)
  | releaseSlot (party : Party)

/-- The one producer calls `write` when its last call is over. -/
def step (state : State Party geometry) : Action Party → State Party geometry
  | .write object => if state.producer = .idle then (write state object).1 else state
  | .retainLatest party => ShmRing.step state (.retainLatest party)
  | .consumer party => ShmRing.step state (.consumer party)
  | .releaseSlot party => ShmRing.step state (.releaseSlot party)

end Chappe.RingWrite
