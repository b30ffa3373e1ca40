/-
This file embeds `ShmSlotView` and `SharedMemoryRing::retain_latest` of `shm_ring.hpp` for one
process, over the calls of `shm_ring.c` that stake and give back a claim.
-/

import Chappe.Construction.ShmRing
import Mathlib.Data.Fintype.Basic

namespace Chappe.SlotViews

/-- The number and the state that one try of `shm_ring_retain_latest` loads. The other processes
store them at any time. -/
structure Loads where
  lastReady : UInt32
  state : ShmRing.SlotState
  deriving DecidableEq

/-- The fields of a `ShmSlotView`. -/
structure SlotView (Ring : Type) where
  ring : Option Ring
  idx : Int32
  deriving DecidableEq

variable {View Ring : Type}

/-- The view that `ShmSlotView()` makes and that a move leaves behind. -/
def SlotView.empty : SlotView Ring := ⟨none, -1⟩

/-- This is `ShmSlotView::valid`. -/
def SlotView.Valid (view : SlotView Ring) : Prop := view.ring ≠ none ∧ 0 ≤ view.idx

/-- The objects of the process, and its share of each refcount. The lists record the successful
retains and the calls of `shm_ring_release_slot`. -/
structure Process (View Ring : Type) where
  view : View → Option (SlotView Ring)
  claims : Ring × UInt32 → Int
  retained : List (Ring × UInt32)
  released : List (Ring × UInt32)

/-- No object has been made. -/
def initial : Process View Ring := ⟨fun _ => none, fun _ => 0, [], []⟩

/-- The number names a slot of the ring. -/
def Loads.Inside (loads : Loads) (numSlots : UInt32) : Prop :=
  loads.lastReady ≠ UInt32.ofNat ShmRing.shmLastNone ∧ loads.lastReady < numSlots

instance (loads : Loads) (numSlots : UInt32) : Decidable (loads.Inside numSlots) :=
  inferInstanceAs (Decidable (_ ∧ _))

variable [DecidableEq Ring]

/-- An `atomic_fetch_add` or an `atomic_fetch_sub` of the process on a refcount. -/
def Process.fetchAdd (process : Process View Ring) (claim : Ring × UInt32) (amount : Int) :
    Process View Ring :=
  { process with
    claims := Function.update process.claims claim (process.claims claim + amount) }

/-- The tries that are left of `shm_ring_retain_latest`. -/
def Process.retain (process : Process View Ring) (ring : Ring) (numSlots : UInt32) :
    List Loads → Process View Ring × Int32
  | [] => (process, -1)
  | loads :: rest =>
      if loads.Inside numSlots then
        let staked := process.fetchAdd (ring, loads.lastReady) 1
        if loads.state = .ready then
          ({ staked with retained := (ring, loads.lastReady) :: staked.retained },
            loads.lastReady.toInt32)
        else (staked.fetchAdd (ring, loads.lastReady) (-1)).retain ring numSlots rest
      else (process, -1)

/-- This is `shm_ring_release_slot`. -/
def Process.releaseSlot (process : Process View Ring) (ring : Ring) (idx : Int32) :
    Process View Ring :=
  { process.fetchAdd (ring, idx.toUInt32) (-1) with
    released := (ring, idx.toUInt32) :: process.released }

variable [DecidableEq View]

def Process.put (process : Process View Ring) (name : View) (view : SlotView Ring) :
    Process View Ring :=
  { process with view := Function.update process.view name (some view) }

/-- This is `ShmSlotView::release`. -/
def Process.release (process : Process View Ring) (name : View) : Process View Ring :=
  match process.view name with
  | some ⟨some ring, idx⟩ =>
      if 0 ≤ idx then (process.releaseSlot ring idx).put name .empty else process
  | _ => process

/-- One operation on the objects of the process. -/
inductive Action (View Ring : Type) where
  | construct (name : View)
  | retainLatest (name : View) (ring : Ring) (loads : Fin ShmRing.shmRetainTries → Loads)
  | moveConstruct (name other : View)
  | moveAssign (name other : View)
  | destroy (name : View)

/-- An operation on an object that it does not apply to is no operation of a program. The handle of
each ring has its `num_slots`. -/
def step (numSlots : Ring → UInt32) (process : Process View Ring) :
    Action View Ring → Process View Ring
  | .construct name =>
      match process.view name with
      | none => process.put name .empty
      | some _ => process
  | .retainLatest name ring loads =>
      match process.view name with
      | none =>
          let call := process.retain ring (numSlots ring) (List.ofFn loads)
          call.1.put name (if call.2 < 0 then .empty else ⟨some ring, call.2⟩)
      | some _ => process
  | .moveConstruct name other =>
      match process.view name, process.view other with
      | none, some source => (process.put name source).put other .empty
      | _, _ => process
  | .moveAssign name other =>
      match process.view name, process.view other with
      | some _, some source =>
          if name = other then process
          else ((process.release name).put name source).put other .empty
      | _, _ => process
  | .destroy name =>
      match process.view name with
      | some _ =>
          { process.release name with
            view := Function.update (process.release name).view name none }
      | none => process

end Chappe.SlotViews
