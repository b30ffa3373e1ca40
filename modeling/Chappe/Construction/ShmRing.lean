/-
This file embeds the shared-memory ring of `shm_ring.c`.
Every atomic access is one step, and plain control flow moves between the steps.
-/

import Chappe.Foundation.Census
import Chappe.Foundation.Run
import Mathlib.Data.UInt

namespace Chappe.ShmRing

/-- The word `SHM_LAST_NONE` says that no frame has been published. -/
def shmLastNone : Nat := 2 ^ 32 - 1

/-- A consumer loads `last_ready` at most `SHM_RETAIN_TRIES` times. -/
def shmRetainTries : Nat := 4

/-- The word `SHM_RING_MAGIC` marks an initialized segment. -/
def shmRingMagic : UInt32 := 0x53484d52

/-- The ring computes slot numbers in unsigned 32-bit words. -/
def word (value : Nat) : Nat := value % 2 ^ 32

/-- The geometry that `shm_ring_create` accepts. -/
structure Geometry where
  numSlots : Nat
  slotSize : Nat
  twoSlots : 2 ≤ numSlots
  fitsWord : numSlots < 2 ^ 32

abbrev Geometry.Index (geometry : Geometry) := Fin geometry.numSlots

/-- A payload has one byte at each offset of the slot. -/
abbrev Geometry.Payload (geometry : Geometry) := Fin geometry.slotSize → UInt8

/-- The states of `shm_slot_state_t`. -/
inductive SlotState where
  | free
  | writing
  | ready
  deriving DecidableEq, Repr

/-- The control point of the one producer. -/
inductive Producer (geometry : Geometry) where
  | idle
  | scan (published attempt : Nat)
  | prefilter (published attempt : Nat) (idx : geometry.Index)
  | loadState (published attempt : Nat) (idx : geometry.Index)
  | claim (published attempt : Nat) (idx : geometry.Index) (prev : SlotState)
  | recheck (published attempt : Nat) (idx : geometry.Index) (prev : SlotState)
  | rollback (published attempt : Nat) (idx : geometry.Index) (prev : SlotState)
  | owned (idx : geometry.Index)
  | advertise (idx : geometry.Index)
  deriving DecidableEq

/-- The control point of one consumer. -/
inductive Consumer (geometry : Geometry) where
  | idle
  | loadLast (tries : Nat)
  | stake (tries : Nat) (idx : geometry.Index)
  | verify (tries : Nat) (idx : geometry.Index)
  | unstake (tries : Nat) (idx : geometry.Index)
  | holding (idx : geometry.Index)
  deriving DecidableEq

/-- A consumer contributes to a refcount between its increment and its decrement. -/
def Consumer.Claims {geometry : Geometry} (idx : geometry.Index) : Consumer geometry → Prop
  | .verify _ slot | .unstake _ slot | .holding slot => slot = idx
  | _ => False

instance {geometry : Geometry} (idx : geometry.Index) :
    (consumer : Consumer geometry) → Decidable (consumer.Claims idx)
  | .idle | .loadLast _ | .stake _ _ => inferInstanceAs (Decidable False)
  | .verify _ slot | .unstake _ slot | .holding slot => inferInstanceAs (Decidable (slot = idx))

/-- A frame is the slot it was published in and the bytes its writer left there. -/
structure Frame (geometry : Geometry) where
  slot : geometry.Index
  bytes : geometry.Payload

/-- The shared segment, the local state of each party, and the frames written so far.
The fields `draft` and `published` record the producer's own account of its writes. -/
structure State (Party : Type) (geometry : Geometry) where
  magic : UInt32
  lastReady : Nat
  slotState : geometry.Index → SlotState
  refcount : geometry.Index → UInt32
  payload : geometry.Index → geometry.Payload
  writeCursor : Nat
  producer : Producer geometry
  consumer : Party → Consumer geometry
  draft : geometry.Payload
  published : List (Frame geometry)

/-- Each action is one step of one party. -/
inductive Action (Party : Type) (geometry : Geometry) where
  | acquireSlot
  | producer
  | writeByte (offset : Fin geometry.slotSize) (value : UInt8)
  | publishSlot
  | abandonSlot
  | retainLatest (party : Party)
  | consumer (party : Party)
  | releaseSlot (party : Party)

variable {Party : Type} [DecidableEq Party] {geometry : Geometry}

/-- The segment and the handles after `shm_ring_create` and the attaches. -/
def initial (payload : geometry.Index → geometry.Payload) : State Party geometry where
  magic := shmRingMagic
  lastReady := shmLastNone
  slotState := fun _ => .free
  refcount := fun _ => 0
  payload := payload
  writeCursor := 0
  producer := .idle
  consumer := fun _ => .idle
  draft := fun _ => 0
  published := []

/-- The slot that the scan of `shm_ring_acquire_slot` inspects at one attempt. -/
def candidate (geometry : Geometry) (writeCursor attempt : Nat) : geometry.Index :=
  ⟨word (writeCursor + attempt) % geometry.numSlots,
    Nat.mod_lt _ (Nat.lt_of_lt_of_le Nat.zero_lt_two geometry.twoSlots)⟩

/-- The scan counter is an unsigned 32-bit word. -/
def nextAttempt (attempt : Nat) : Nat := word (attempt + 1)

/-- The next step of `shm_ring_acquire_slot`, or the second store of `shm_ring_publish_slot`. -/
def producerStep (state : State Party geometry) : State Party geometry :=
  match state.producer with
  | .idle => state
  | .scan published attempt =>
      if attempt ≤ geometry.numSlots then
        let idx := candidate geometry state.writeCursor attempt
        if idx.val = published then
          { state with producer := .scan published (nextAttempt attempt) }
        else { state with producer := .prefilter published attempt idx }
      else { state with producer := .idle }
  | .prefilter published attempt idx =>
      if state.refcount idx ≠ 0 then
        { state with producer := .scan published (nextAttempt attempt) }
      else { state with producer := .loadState published attempt idx }
  | .loadState published attempt idx =>
      if state.slotState idx = .writing then
        { state with producer := .scan published (nextAttempt attempt) }
      else { state with producer := .claim published attempt idx (state.slotState idx) }
  | .claim published attempt idx prev =>
      { state with
        slotState := Function.update state.slotState idx .writing
        producer := .recheck published attempt idx prev }
  | .recheck published attempt idx prev =>
      if state.refcount idx ≠ 0 then
        { state with producer := .rollback published attempt idx prev }
      else
        { state with
          writeCursor := idx.val
          producer := .owned idx
          draft := state.payload idx }
  | .rollback published attempt idx prev =>
      { state with
        slotState := Function.update state.slotState idx prev
        producer := .scan published (nextAttempt attempt) }
  | .owned _ => state
  | .advertise idx => { state with lastReady := idx.val, producer := .idle }

/-- The next step of `shm_ring_retain_latest`. -/
def consumerStep (state : State Party geometry) (party : Party) : State Party geometry :=
  match state.consumer party with
  | .idle | .holding _ => state
  | .loadLast tries =>
      if inside : state.lastReady ≠ shmLastNone ∧ state.lastReady < geometry.numSlots then
        { state with
          consumer := Function.update state.consumer party
            (.stake tries ⟨state.lastReady, inside.2⟩) }
      else { state with consumer := Function.update state.consumer party .idle }
  | .stake tries idx =>
      { state with
        refcount := Function.update state.refcount idx (state.refcount idx + 1)
        consumer := Function.update state.consumer party (.verify tries idx) }
  | .verify tries idx =>
      if state.slotState idx = .ready then
        { state with consumer := Function.update state.consumer party (.holding idx) }
      else { state with consumer := Function.update state.consumer party (.unstake tries idx) }
  | .unstake tries idx =>
      { state with
        refcount := Function.update state.refcount idx (state.refcount idx - 1)
        consumer := Function.update state.consumer party
          (if tries + 1 < shmRetainTries then .loadLast (tries + 1) else .idle) }

/-- One step of the producer or of one consumer. -/
def step (state : State Party geometry) : Action Party geometry → State Party geometry
  | .acquireSlot =>
      match state.producer with
      | .idle => { state with producer := .scan state.lastReady 1 }
      | _ => state
  | .producer => producerStep state
  | .writeByte offset value =>
      match state.producer with
      | .owned idx =>
          { state with
            payload := Function.update state.payload idx
              (Function.update (state.payload idx) offset value)
            draft := Function.update state.draft offset value }
      | _ => state
  | .publishSlot =>
      match state.producer with
      | .owned idx =>
          { state with
            slotState := Function.update state.slotState idx .ready
            producer := .advertise idx
            published := state.published ++ [⟨idx, state.draft⟩] }
      | _ => state
  | .abandonSlot =>
      match state.producer with
      | .owned idx =>
          { state with
            slotState := Function.update state.slotState idx .free
            producer := .idle }
      | _ => state
  | .retainLatest party =>
      match state.consumer party with
      | .idle => { state with consumer := Function.update state.consumer party (.loadLast 0) }
      | _ => state
  | .consumer party => consumerStep state party
  | .releaseSlot party =>
      match state.consumer party with
      | .holding idx =>
          { state with
            refcount := Function.update state.refcount idx (state.refcount idx - 1)
            consumer := Function.update state.consumer party .idle }
      | _ => state

/-- The producer owns a slot from its second refcount load to the state store that follows. -/
def Owns (state : State Party geometry) (idx : geometry.Index) : Prop :=
  state.producer = .owned idx

/-- The consumer holds a slot from the load of `SLOT_READY` to its release. -/
def Holds (state : State Party geometry) (party : Party) (idx : geometry.Index) : Prop :=
  state.consumer party = .holding idx

instance (state : State Party geometry) (idx : geometry.Index) : Decidable (Owns state idx) :=
  inferInstanceAs (Decidable (_ = _))

instance (state : State Party geometry) (party : Party) (idx : geometry.Index) :
    Decidable (Holds state party idx) :=
  inferInstanceAs (Decidable (_ = _))

/-- The number of consumers that have a staked or held claim on the slot. -/
def claims [Fintype Party] (state : State Party geometry) (idx : geometry.Index) : Nat :=
  Foundation.census (Consumer.Claims idx) state.consumer

end Chappe.ShmRing
