/-
This file embeds the life of a ring name: the system calls and stores of `shm_ring_create`,
`shm_ring_destroy` and `shm_ring_attach` on the segments that the name resolves to.
-/

import Chappe.Construction.ShmRing

namespace Chappe.Segment
open ShmRing

/-- The geometry that a call of `shm_ring_create` asks for. -/
structure Layout where
  numSlots : Nat
  slotSize : Nat
  deriving DecidableEq

/-- The type `size_t` has 64 bits. -/
def sizeT (value : Nat) : Nat := value % 2 ^ 64

/-- The bytes between two slot headers, rounded up to a cache line. -/
def slotStride (slotSize : Nat) : Nat := sizeT (sizeT (8 + slotSize) + 63) / 64 * 64

/-- The control block takes the first cache line. -/
def slotsOffset : Nat := 64

def Layout.totalSize (layout : Layout) : Nat :=
  sizeT (slotsOffset + layout.numSlots * slotStride layout.slotSize)

/-- A segment is an inode with a size and a control block. -/
structure Inode where
  size : Nat
  magic : UInt32
  numSlots : Nat
  slotSize : Nat
  deriving DecidableEq

/-- The segment that `shm_open` makes has no bytes. -/
def Inode.fresh : Inode := ⟨0, 0, 0, 0⟩

/-- The layout that the control block describes. -/
def Inode.layout (inode : Inode) : Layout := ⟨inode.numSlots, inode.slotSize⟩

/-- The call `ftruncate` keeps the control block unless it drops every byte. -/
def Inode.truncate (inode : Inode) (size : Nat) : Inode :=
  if size = 0 then .fresh else { inode with size := size }

/-- What a create that has the lock does next. A ready ring is the one that create returned. -/
inductive Stage where
  | resize
  | map
  | clear
  | count
  | describe
  | clearSlots
  | publish
  | ready
  deriving DecidableEq

/-- The control point of a process between its system calls. -/
inductive Place where
  | idle
  | opening (layout : Layout)
  | reopening (layout : Layout)
  | opened (layout : Layout) (inode : Nat)
  | building (layout : Layout) (inode : Nat) (stage : Stage)
  | unmapped (inode : Nat)
  | unlinking
  | dead
  deriving DecidableEq

/-- The control point of `shm_ring_attach` in one consumer. -/
inductive Reader where
  | idle
  | opening
  | opened (inode : Nat)
  | statted (inode size : Nat)
  | mapped (inode size : Nat)
  | checked (inode size : Nat)
  | counted (inode size numSlots : Nat)
  | attached (inode size : Nat) (layout : Layout)
  deriving DecidableEq

/-- The name, the segments and their locks, the parties, and the layouts of all calls so far. -/
structure State (Process Consumer : Type) where
  name : Option Nat
  count : Nat
  inode : Nat → Inode
  lock : Nat → Option Process
  place : Process → Place
  reader : Consumer → Reader
  calls : List Layout

/-- A call that can fail for a reason outside the model does so when its flag is false. -/
inductive Action (Process Consumer : Type) where
  | create (process : Process) (layout : Layout)
  | destroy (process : Process)
  | process (process : Process) (ok : Bool)
  | die (process : Process)
  | attach (consumer : Consumer)
  | consumer (consumer : Consumer) (ok : Bool)
  | detach (consumer : Consumer)

variable {Process Consumer : Type}

def initial : State Process Consumer where
  name := none
  count := 0
  inode := fun _ => .fresh
  lock := fun _ => none
  place := fun _ => .idle
  reader := fun _ => .idle
  calls := []

variable [DecidableEq Process] [DecidableEq Consumer]

def State.goto (state : State Process Consumer) (process : Process) (place : Place) :
    State Process Consumer :=
  { state with place := Function.update state.place process place }

/-- A closed descriptor gives up its lock. -/
def State.unlock (state : State Process Consumer) (inode : Nat) : State Process Consumer :=
  { state with lock := Function.update state.lock inode none }

def State.write (state : State Process Consumer) (inode : Nat) (content : Inode) :
    State Process Consumer :=
  { state with inode := Function.update state.inode inode content }

/-- The store of each stage of a create, and the stage after it. A failed `ftruncate` or `mmap`
closes the descriptor and goes on to unlink the name. -/
def State.build (state : State Process Consumer) (process : Process) (layout : Layout)
    (inode : Nat) (ok : Bool) : Stage → State Process Consumer
  | .resize =>
      if ok then
        (state.write inode ((state.inode inode).truncate layout.totalSize)).goto process
          (.building layout inode .map)
      else (state.unlock inode).goto process .unlinking
  | .map =>
      if ok ∧ layout.totalSize ≠ 0 then state.goto process (.building layout inode .clear)
      else (state.unlock inode).goto process .unlinking
  | .clear =>
      (state.write inode { state.inode inode with magic := 0 }).goto process
        (.building layout inode .count)
  | .count =>
      (state.write inode { state.inode inode with numSlots := layout.numSlots }).goto process
        (.building layout inode .describe)
  | .describe =>
      (state.write inode { state.inode inode with slotSize := layout.slotSize }).goto process
        (.building layout inode .clearSlots)
  | .clearSlots => state.goto process (.building layout inode .publish)
  | .publish =>
      (state.write inode { state.inode inode with magic := shmRingMagic }).goto process
        (.building layout inode .ready)
  | .ready => state

/-- The next step of a process in `shm_ring_create` or `shm_ring_destroy`. -/
def State.processStep (state : State Process Consumer) (process : Process) (ok : Bool) :
    State Process Consumer :=
  match state.place process with
  | .opening layout =>
      if ok then
        match state.name with
        | none =>
            { (state.write state.count .fresh).goto process (.opened layout state.count) with
              name := some state.count
              count := state.count + 1 }
        | some _ => state.goto process (.reopening layout)
      else state.goto process .idle
  | .reopening layout =>
      match state.name, ok with
      | some inode, true => state.goto process (.opened layout inode)
      | _, _ => state.goto process .idle
  | .opened layout inode =>
      if ok ∧ state.lock inode = none then
        { state.goto process (.building layout inode .resize) with
          lock := Function.update state.lock inode (some process) }
      else state.goto process .idle
  | .building layout inode stage => state.build process layout inode ok stage
  | .unmapped inode => (state.unlock inode).goto process .unlinking
  | .unlinking =>
      { state.goto process .idle with name := if ok then none else state.name }
  | .idle | .dead => state

/-- The next step of a consumer in `shm_ring_attach`. -/
def State.consumerStep (state : State Process Consumer) (consumer : Consumer) (ok : Bool) :
    Reader :=
  match state.reader consumer with
  | .idle => .idle
  | .opening =>
      match state.name, ok with
      | some inode, true => .opened inode
      | _, _ => .idle
  | .opened inode => if ok then .statted inode (state.inode inode).size else .idle
  | .statted inode size => if ok ∧ size ≠ 0 then .mapped inode size else .idle
  | .mapped inode size =>
      if (state.inode inode).magic = shmRingMagic then .checked inode size else .idle
  | .checked inode size => .counted inode size (state.inode inode).numSlots
  | .counted inode size numSlots =>
      .attached inode size ⟨numSlots, (state.inode inode).slotSize⟩
  | .attached inode size layout => .attached inode size layout

def State.read (state : State Process Consumer) (consumer : Consumer) (reader : Reader) :
    State Process Consumer :=
  { state with reader := Function.update state.reader consumer reader }

def step (state : State Process Consumer) : Action Process Consumer → State Process Consumer
  | .create process layout =>
      if state.place process = .idle ∧ 2 ≤ layout.numSlots then
        { state.goto process (.opening layout) with calls := state.calls ++ [layout] }
      else state
  | .destroy process =>
      match state.place process with
      | .building _ inode .ready => state.goto process (.unmapped inode)
      | _ => state
  | .process process ok => state.processStep process ok
  | .die process =>
      { state.goto process .dead with
        lock := fun inode =>
          if state.lock inode = some process then none else state.lock inode }
  | .attach consumer =>
      if state.reader consumer = .idle then state.read consumer .opening else state
  | .consumer consumer ok => state.read consumer (state.consumerStep consumer ok)
  | .detach consumer => state.read consumer .idle

/-- The process has a ring that create returned and that it has not begun to destroy. -/
def Holds (state : State Process Consumer) (process : Process) (inode : Nat) : Prop :=
  ∃ layout, state.place process = .building layout inode .ready

end Chappe.Segment
