/-
This file embeds the addresses that `shm_ring.c` computes in a segment from its geometry.
-/

import Chappe.Construction.Segment

namespace Chappe.Segment

/-- The byte of `slot_header`, counted from the base of the mapping. -/
def Layout.slotHeader (layout : Layout) (idx : Nat) : Nat :=
  sizeT (slotsOffset + sizeT (idx * slotStride layout.slotSize))

/-- The payload follows the header of eight bytes. -/
def Layout.slotPayload (layout : Layout) (idx : Nat) : Nat := sizeT (layout.slotHeader idx + 8)

/-- The parts of a segment. -/
inductive Part (layout : Layout) where
  | control
  | header (idx : Fin layout.numSlots)
  | payload (idx : Fin layout.numSlots)
  deriving DecidableEq

variable {layout : Layout}

/-- The first byte of a part. -/
def Part.start : Part layout → Nat
  | .control => 0
  | .header idx => layout.slotHeader idx
  | .payload idx => layout.slotPayload idx

/-- The bytes of a part. The control block has 24 bytes and a slot header has eight. -/
def Part.size : Part layout → Nat
  | .control => 24
  | .header _ => 8
  | .payload _ => layout.slotSize

/-- The parts of a segment are apart and inside it, and each header begins a cache line. -/
structure Layout.Sound (layout : Layout) : Prop where
  apart : ∀ first second : Part layout, first ≠ second →
    first.start + first.size ≤ second.start ∨ second.start + second.size ≤ first.start
  inside : ∀ part : Part layout, part.start + part.size ≤ layout.totalSize
  aligned : ∀ idx : Fin layout.numSlots, layout.slotHeader idx % 64 = 0

end Chappe.Segment
