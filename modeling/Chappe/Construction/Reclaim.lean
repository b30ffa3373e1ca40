/-
This file extends the ring with the death of its producer and the reclaim path of
`shm_ring_create`, while the attached consumers keep their mappings.
-/

import Chappe.Construction.ShmRing

namespace Chappe.Reclaim
open ShmRing

/-- The life of the producer process that owns the ring name. A phase of `shm_ring_create` names
the store it performs next. -/
inductive Phase (geometry : Geometry) where
  | live
  | dead
  | initLastReady
  | initState (idx : geometry.Index)
  | initRefcount (idx : geometry.Index)
  | setMagic
  deriving DecidableEq

structure State (Party : Type) (geometry : Geometry) where
  ring : ShmRing.State Party geometry
  phase : Phase geometry

inductive Action (Party : Type) (geometry : Geometry) where
  | ring (action : ShmRing.Action Party geometry)
  | kill
  | create

/-- The actions that the producer process performs. -/
def ofProducer {Party : Type} {geometry : Geometry} : ShmRing.Action Party geometry → Bool
  | .acquireSlot | .producer | .writeByte _ _ | .publishSlot | .abandonSlot => true
  | .retainLatest _ | .consumer _ | .releaseSlot _ => false

variable {Party : Type} {geometry : Geometry}

def initial (payload : geometry.Index → geometry.Payload) : State Party geometry :=
  ⟨ShmRing.initial payload, .live⟩

/-- The slot whose header the loop of `shm_ring_create` writes after this one. -/
def afterSlot (idx : geometry.Index) : Phase geometry :=
  if inside : idx.val + 1 < geometry.numSlots then .initState ⟨idx.val + 1, inside⟩ else .setMagic

/-- The next store of `shm_ring_create` on an orphaned segment of the same geometry.
A live owner keeps the lock, so a second create changes nothing. -/
def createStep (state : State Party geometry) : State Party geometry :=
  match state.phase with
  | .live => state
  | .dead => ⟨{ state.ring with magic := 0 }, .initLastReady⟩
  | .initLastReady =>
      ⟨{ state.ring with lastReady := shmLastNone },
        .initState ⟨0, Nat.lt_of_lt_of_le Nat.zero_lt_two geometry.twoSlots⟩⟩
  | .initState idx =>
      ⟨{ state.ring with slotState := Function.update state.ring.slotState idx .free },
        .initRefcount idx⟩
  | .initRefcount idx =>
      ⟨{ state.ring with refcount := Function.update state.ring.refcount idx 0 }, afterSlot idx⟩
  | .setMagic => ⟨{ state.ring with magic := shmRingMagic, writeCursor := 0 }, .live⟩

/-- One step of the ring, the death of the producer, or one store of its successor. -/
def step [DecidableEq Party] (state : State Party geometry) :
    Action Party geometry → State Party geometry
  | .ring action =>
      if ofProducer action ∧ state.phase ≠ .live then state
      else { state with ring := ShmRing.step state.ring action }
  | .kill => ⟨{ state.ring with producer := .idle }, .dead⟩
  | .create => createStep state

/-- What the ring promises to consumers that stay attached across a reclaim. -/
structure Sound [Fintype Party] (state : State Party geometry) : Prop where
  counted : ∀ idx, (state.ring.refcount idx).toNat = claims state.ring idx
  positive : ∀ party idx, (state.ring.consumer party).Claims idx →
    0 < (state.ring.refcount idx).toNat
  unowned : ∀ party idx, Holds state.ring party idx → ¬ Owns state.ring idx

/-- The reclaim clears the refcount of a slot only while no consumer has a claim on it. -/
def Unclaimed [Fintype Party] (state : State Party geometry) : Action Party geometry → Prop
  | .create => ∀ idx, state.phase = .initRefcount idx → claims state.ring idx = 0
  | .ring _ | .kill => True

end Chappe.Reclaim
