/-
This file proves when the parts of a ring are apart and inside its segment. They are when no sum and
no product of the geometry wraps around.
-/

import Chappe.Construction.RingLayout
import Chappe.Proof.Segment.AttachConsistency

namespace Chappe.Segment
open Foundation ShmRing

/-- The bytes between two slot headers, without a bound on the sizes. -/
def exactStride (slotSize : Nat) : Nat := (slotSize + 71) / 64 * 64

/-- The bytes of a segment, without a bound on the sizes. -/
def Layout.exactSize (layout : Layout) : Nat :=
  slotsOffset + layout.numSlots * exactStride layout.slotSize

theorem exactStride_bounds (slotSize : Nat) :
    slotSize + 8 ≤ exactStride slotSize ∧ exactStride slotSize ≤ slotSize + 71 := by
  unfold exactStride
  omega

theorem sizeT_of_lt {value : Nat} (small : value < 2 ^ 64) : sizeT value = value :=
  Nat.mod_eq_of_lt small

/-- The stride is exact unless the slot size is too close to the end of `size_t`. -/
theorem slotStride_eq {slotSize : Nat} (small : slotSize + 71 < 2 ^ 64) :
    slotStride slotSize = exactStride slotSize := by
  unfold slotStride exactStride sizeT
  omega

variable {layout : Layout}

/-- A slot ends before the segment does. -/
theorem slot_end_le {idx : Nat} (inside : idx < layout.numSlots) :
    slotsOffset + idx * exactStride layout.slotSize + exactStride layout.slotSize ≤
      layout.exactSize := by
  have next := Nat.mul_le_mul_right (exactStride layout.slotSize) inside
  rw [Nat.succ_mul] at next
  unfold Layout.exactSize
  omega

/-- A ring with a slot whose sizes do not wrap has the exact stride. -/
theorem stride_of_fits (fits : layout.exactSize < 2 ^ 64) (some : 0 < layout.numSlots) :
    slotStride layout.slotSize = exactStride layout.slotSize := by
  have first := slot_end_le some
  apply slotStride_eq
  unfold exactStride slotsOffset at first
  omega

theorem slotHeader_of_fits (fits : layout.exactSize < 2 ^ 64) {idx : Nat}
    (inside : idx < layout.numSlots) :
    layout.slotHeader idx = slotsOffset + idx * exactStride layout.slotSize := by
  have last := slot_end_le inside
  unfold Layout.slotHeader
  rw [stride_of_fits fits (Nat.zero_lt_of_lt inside)]
  have product : idx * exactStride layout.slotSize < 2 ^ 64 := by omega
  rw [sizeT_of_lt product, sizeT_of_lt]
  omega

theorem slotPayload_of_fits (fits : layout.exactSize < 2 ^ 64) {idx : Nat}
    (inside : idx < layout.numSlots) :
    layout.slotPayload idx = slotsOffset + idx * exactStride layout.slotSize + 8 := by
  have last := slot_end_le inside
  have room := (exactStride_bounds layout.slotSize).1
  unfold Layout.slotPayload
  rw [slotHeader_of_fits fits inside, sizeT_of_lt]
  omega

theorem totalSize_of_fits (fits : layout.exactSize < 2 ^ 64) :
    layout.totalSize = layout.exactSize := by
  unfold Layout.totalSize
  rcases Nat.eq_zero_or_pos layout.numSlots with none | some
  · rw [Layout.exactSize, none, Nat.zero_mul, Nat.zero_mul]
    rfl
  · rw [stride_of_fits fits some]
    exact sizeT_of_lt fits

/-- Two slots are apart. -/
theorem slots_apart {first second : Nat} (different : first ≠ second) (stride : Nat) :
    first * stride + stride ≤ second * stride ∨ second * stride + stride ≤ first * stride := by
  rw [← Nat.succ_mul, ← Nat.succ_mul]
  rcases Nat.lt_or_gt_of_ne different with before | after
  · exact .inl (Nat.mul_le_mul_right stride before)
  · exact .inr (Nat.mul_le_mul_right stride after)

/-- A slot begins with its header, which the payload follows. -/
theorem parts_of_fits (fits : layout.exactSize < 2 ^ 64) (idx : Fin layout.numSlots) :
    (Part.header idx).start = slotsOffset + idx * exactStride layout.slotSize ∧
      (Part.payload idx).start = slotsOffset + idx * exactStride layout.slotSize + 8 :=
  ⟨slotHeader_of_fits fits idx.isLt, slotPayload_of_fits fits idx.isLt⟩

theorem apart_of_fits (fits : layout.exactSize < 2 ^ 64) (first second : Part layout)
    (different : first ≠ second) :
    first.start + first.size ≤ second.start ∨ second.start + second.size ≤ first.start := by
  have room := (exactStride_bounds layout.slotSize).1
  have front : slotsOffset = 64 := rfl
  have away {idx other : Fin layout.numSlots} (slots : idx ≠ other) :=
    slots_apart (fun same => slots (Fin.ext same)) (exactStride layout.slotSize)
  cases first with
  | control =>
      cases second with
      | control => exact absurd rfl different
      | header other | payload other =>
          have there := parts_of_fits fits other
          simp only [Part.size]
          show 0 + 24 ≤ _ ∨ _
          omega
  | header idx =>
      have here := parts_of_fits fits idx
      cases second with
      | control =>
          right
          show 0 + 24 ≤ _
          omega
      | header other =>
          have there := parts_of_fits fits other
          have slots : idx ≠ other := fun same => different (by rw [same])
          have order := away slots
          simp only [Part.size]
          omega
      | payload other =>
          have there := parts_of_fits fits other
          simp only [Part.size]
          rcases eq_or_ne idx other with rfl | slots
          · omega
          · have order := away slots
            omega
  | payload idx =>
      have here := parts_of_fits fits idx
      cases second with
      | control =>
          right
          show 0 + 24 ≤ _
          omega
      | header other =>
          have there := parts_of_fits fits other
          simp only [Part.size]
          rcases eq_or_ne idx other with rfl | slots
          · omega
          · have order := away slots
            omega
      | payload other =>
          have there := parts_of_fits fits other
          have slots : idx ≠ other := fun same => different (by rw [same])
          have order := away slots
          simp only [Part.size]
          omega

/-- Sizes that do not wrap give a sound layout. -/
theorem sound_of_fits (fits : layout.exactSize < 2 ^ 64) : layout.Sound where
  apart := apart_of_fits fits
  inside := by
    intro part
    rw [totalSize_of_fits fits]
    have room := (exactStride_bounds layout.slotSize).1
    cases part with
    | control =>
        unfold Layout.exactSize
        show 0 + 24 ≤ 64 + _
        omega
    | header idx | payload idx =>
        have start := parts_of_fits fits idx
        have last := slot_end_le idx.isLt
        simp only [Part.size]
        omega
  aligned := by
    intro idx
    rw [slotHeader_of_fits fits idx.isLt]
    unfold slotsOffset exactStride
    rw [← Nat.mul_assoc]
    omega

theorem totalSize_lt (layout : Layout) : layout.totalSize < 2 ^ 64 := Nat.mod_lt _ (by decide)

/-- The payload of a sound layout is shorter than `size_t` by more than a stride needs. -/
theorem Layout.Sound.slotSize_lt (sound : layout.Sound) (some : 0 < layout.numSlots) :
    layout.slotSize + 71 < 2 ^ 64 := by
  have first := sound.inside (.payload ⟨0, some⟩)
  have start : (@Part.payload layout ⟨0, some⟩).start = 72 := by
    simp only [Part.start, Layout.slotPayload, Layout.slotHeader, Nat.zero_mul]
    rfl
  have total := totalSize_lt layout
  rw [start] at first
  simp only [Part.size] at first
  omega

/-- A slot whose header does not wrap ends inside a sound layout. -/
theorem Layout.Sound.slot_inside (sound : layout.Sound) {idx : Nat} (inside : idx < layout.numSlots)
    (stride : slotStride layout.slotSize = exactStride layout.slotSize)
    (small : slotsOffset + idx * exactStride layout.slotSize < 2 ^ 64) :
    slotsOffset + idx * exactStride layout.slotSize + 8 + layout.slotSize ≤ layout.totalSize := by
  have total := totalSize_lt layout
  have start : layout.slotHeader idx = slotsOffset + idx * exactStride layout.slotSize := by
    have product : idx * exactStride layout.slotSize < 2 ^ 64 := by omega
    rw [Layout.slotHeader, stride, sizeT_of_lt product, sizeT_of_lt small]
  have header := sound.inside (.header ⟨idx, inside⟩)
  have payload := sound.inside (.payload ⟨idx, inside⟩)
  simp only [Part.start, Part.size, Layout.slotPayload] at header payload
  rw [start] at header payload
  rw [sizeT_of_lt (by omega)] at payload
  exact payload

/-- A sound layout has sizes that do not wrap. The slot in which the segment would end is the first
one that a wrapped size cuts off. -/
theorem Layout.Sound.fits (sound : layout.Sound) : layout.exactSize < 2 ^ 64 := by
  by_contra wraps
  have some : 0 < layout.numSlots := by
    rcases Nat.eq_zero_or_pos layout.numSlots with none | some
    · rw [Layout.exactSize, none, Nat.zero_mul] at wraps
      exact absurd (by decide) wraps
    · exact some
  have stride := slotStride_eq (sound.slotSize_lt some)
  have control := sound.inside .control
  have total := totalSize_lt layout
  have wrapped : layout.totalSize = layout.exactSize % 2 ^ 64 := by
    rw [Layout.totalSize, stride]
    rfl
  have positive : 0 < exactStride layout.slotSize :=
    Nat.lt_of_lt_of_le (Nat.succ_pos _) (exactStride_bounds layout.slotSize).1
  have front : slotsOffset = 64 := rfl
  have units : layout.exactSize =
      64 * (1 + layout.numSlots * ((layout.slotSize + 71) / 64)) := by
    unfold Layout.exactSize exactStride
    rw [← Nat.mul_assoc]
    omega
  simp only [Part.start, Part.size] at control
  have line : 64 ≤ layout.totalSize := by omega
  let cut := (layout.totalSize - 64) / exactStride layout.slotSize
  have below : cut * exactStride layout.slotSize ≤ layout.totalSize - 64 :=
    Nat.div_mul_le_self _ _
  have above : layout.totalSize - 64 <
      cut * exactStride layout.slotSize + exactStride layout.slotSize :=
    Nat.lt_div_mul_add positive
  have inside : cut < layout.numSlots := by
    by_contra past
    have more := Nat.mul_le_mul_right (exactStride layout.slotSize) (Nat.le_of_not_lt past)
    unfold Layout.exactSize at wraps
    omega
  have ends := sound.slot_inside inside stride (by omega)
  have lines : cut * exactStride layout.slotSize =
      64 * (cut * ((layout.slotSize + 71) / 64)) := by
    unfold exactStride
    rw [← Nat.mul_assoc, Nat.mul_comm]
  have size : exactStride layout.slotSize = (layout.slotSize + 71) / 64 * 64 := rfl
  omega

variable {Process Consumer : Type} {state : State Process Consumer}

/-- The state without the consumers. -/
def State.unread (state : State Process Consumer) : State Process Consumer :=
  { state with reader := fun _ => .idle }

/-- An attach that nobody disturbs has read the given geometry so far. -/
def Reader.Follows (inode : Nat) (layout : Layout) : Reader → Prop
  | .idle | .opening => True
  | .opened segment => segment = inode
  | .statted segment size | .mapped segment size | .checked segment size =>
      segment = inode ∧ size = layout.totalSize
  | .counted segment size numSlots =>
      (segment = inode ∧ size = layout.totalSize) ∧ numSlots = layout.numSlots
  | .attached segment size asked =>
      (segment = inode ∧ size = layout.totalSize) ∧ asked = layout

theorem consumerStep_follows {consumer : Consumer} {inode : Nat} {layout : Layout}
    (named : state.name = some inode) (sized : (state.inode inode).size = layout.totalSize)
    (described : (state.inode inode).layout = layout)
    (follows : (state.reader consumer).Follows inode layout) (ok : Bool) :
    (state.consumerStep consumer ok).Follows inode layout := by
  unfold State.consumerStep
  split
  case h_1 => exact True.intro
  case h_2 =>
    split
    · rename_i segment resolved
      exact Option.some.inj (resolved.symm.trans named)
    · exact True.intro
  case h_3 segment here =>
    rw [here] at follows
    split
    · exact ⟨follows, by rw [follows, sized]⟩
    · exact True.intro
  case h_4 segment size here =>
    rw [here] at follows
    split
    · exact follows
    · exact True.intro
  case h_5 segment size here =>
    rw [here] at follows
    split
    · exact follows
    · exact True.intro
  case h_6 segment size here =>
    rw [here] at follows
    refine ⟨follows, ?_⟩
    rw [follows.1, ← described]
    rfl
  case h_7 segment size numSlots here =>
    rw [here] at follows
    refine ⟨follows.1, ?_⟩
    rw [follows.1.1, follows.2, ← described]
    rfl
  case h_8 segment size asked here =>
    rw [here] at follows
    exact follows

variable [DecidableEq Process] [DecidableEq Consumer]

/-- An attach without other steps in between. -/
def attachSteps (consumer : Consumer) (oks : List Bool) : List (Action Process Consumer) :=
  .attach consumer :: oks.map (.consumer consumer)

theorem attach_follows {consumer : Consumer} {inode : Nat} {layout : Layout}
    (named : state.name = some inode) (sized : (state.inode inode).size = layout.totalSize)
    (described : (state.inode inode).layout = layout) (idle : state.reader consumer = .idle)
    (oks : List Bool) :
    ((run step state (attachSteps consumer oks)).reader consumer).Follows inode layout := by
  have called : ((step state (.attach consumer)).reader consumer).Follows inode layout ∧
      (step state (.attach consumer)).name = some inode ∧
      (step state (.attach consumer)).inode = state.inode := by
    simp only [step, idle, if_true, State.read, Function.update_self]
    exact ⟨True.intro, named, True.intro⟩
  show ((run step (step state (.attach consumer)) (oks.map (.consumer consumer))).reader
    consumer).Follows inode layout
  generalize step state (.attach consumer) = begun at called
  induction oks generalizing begun with
  | nil => exact called.1
  | cons ok rest ih =>
      apply ih (step begun (.consumer consumer ok))
      obtain ⟨follows, named, same⟩ := called
      refine ⟨?_, named, same⟩
      simp only [step, State.read, Function.update_self]
      exact consumerStep_follows named (by rw [same, sized]) (by rw [same, described]) follows ok

omit [DecidableEq Consumer] in
theorem build_unread (state : State Process Consumer) (process : Process) (layout : Layout)
    (inode : Nat) (ok : Bool) (stage : Stage) :
    (state.build process layout inode ok stage).unread =
      state.unread.build process layout inode ok stage := by
  cases stage with
  | resize | map =>
      simp only [State.build]
      split <;> rfl
  | _ => rfl

omit [DecidableEq Consumer] in
theorem processStep_unread (state : State Process Consumer) (process : Process) (ok : Bool) :
    (state.processStep process ok).unread = state.unread.processStep process ok := by
  have place : state.unread.place = state.place := rfl
  have name : state.unread.name = state.name := rfl
  have lock : state.unread.lock = state.lock := rfl
  unfold State.processStep
  rw [place]
  cases state.place process with
  | idle | dead => rfl
  | opening layout =>
      dsimp only
      rw [name]
      split
      · split <;> rfl
      · rfl
  | reopening layout =>
      dsimp only
      rw [name]
      split <;> rfl
  | opened layout inode =>
      dsimp only
      rw [lock]
      split <;> rfl
  | building layout inode stage => exact build_unread state process layout inode ok stage
  | unmapped inode => rfl
  | unlinking => rfl

/-- The processes take the same steps without the consumers. -/
theorem step_coherent (state : State Process Consumer) (action : Action Process Consumer)
    (held : LocksAgree state ∧ Coherent state.unread) :
    LocksAgree (step state action) ∧ Coherent (step state action).unread := by
  obtain ⟨agree, coherent⟩ := held
  refine ⟨agree.step state action, ?_⟩
  have moved (undisturbed : Undisturbed state.unread action) :=
    (Coherent.step state.unread action ⟨agree, coherent⟩ undisturbed).2
  cases action with
  | create process layout =>
      have next := moved True.intro
      simp only [step] at next ⊢
      split
      · rename_i called
        rwa [if_pos (show state.unread.place process = .idle ∧ _ from called)] at next
      · exact coherent
  | destroy process =>
      have next := moved True.intro
      simp only [step] at next ⊢
      split
      · rename_i layout inode ready
        simp only [State.unread, ready] at next
        exact next
      · exact coherent
  | process process ok =>
      simp only [step]
      rw [processStep_unread]
      apply moved
      simp only [Undisturbed]
      split
      · rintro - ⟨consumer, engaged⟩
        exact engaged.elim
      · exact True.intro
  | die process => exact moved True.intro
  | attach consumer =>
      simp only [step]
      split <;> exact coherent
  | consumer consumer ok => exact coherent
  | detach consumer => exact coherent

/-- A create that has returned left its geometry in the segment. -/
theorem created_content (actions : List (Action Process Consumer)) {process : Process}
    {layout : Layout} {inode : Nat}
    (created : (run step initial actions).place process = .building layout inode .ready) :
    ((run step initial actions).inode inode).size = layout.totalSize ∧
      ((run step initial actions).inode inode).layout = layout := by
  have start : LocksAgree (initial : State Process Consumer) ∧
      Coherent (initial : State Process Consumer).unread := ⟨.initial, .initial⟩
  obtain ⟨-, coherent⟩ := run_invariant step_coherent actions _ start
  have fact := coherent.placed process
  rw [show (run step initial actions).unread.place process = _ from created] at fact
  exact fact.2.2

/-- A ring that `shm_ring_create` returned has its parts apart and inside the segment exactly when
the sizes do not wrap, and an attach that nobody disturbs computes the same addresses. -/
theorem layout_sound_iff (actions : List (Action Process Consumer)) (process : Process)
    (layout : Layout) (inode : Nat)
    (created : (run step initial actions).place process = .building layout inode .ready) :
    (layout.Sound ∧
      ∀ (consumer : Consumer) (oks : List Bool) (segment size : Nat) (asked : Layout),
        (run step initial actions).name = some inode →
        (run step initial actions).reader consumer = .idle →
        (run step (run step initial actions) (attachSteps consumer oks)).reader consumer =
          .attached segment size asked →
        asked = layout ∧ size = layout.totalSize) ↔
      slotsOffset + layout.numSlots * exactStride layout.slotSize < 2 ^ 64 := by
  constructor
  · exact fun sound => sound.1.fits
  · intro fits
    refine ⟨sound_of_fits fits, ?_⟩
    intro consumer oks segment size asked named idle attached
    obtain ⟨sized, described⟩ := created_content actions created
    have follows := attach_follows named sized described idle oks
    rw [attached] at follows
    exact ⟨follows.2, follows.1.2⟩

/-- A producer asks for two slots of the largest `size_t`. -/
def wrappedLayout : Layout := ⟨2, 2 ^ 64 - 1⟩

/-- The stride wraps to one cache line, so the payload of the first slot runs over the second slot
and out of the segment. -/
theorem layout_wraps :
    (run step (initial : State Unit Unit) (createSteps () wrappedLayout 9)).place () =
        .building wrappedLayout 0 .ready ∧
      wrappedLayout.totalSize = 192 ∧ ¬ wrappedLayout.Sound := by
  refine ⟨by decide, by decide, ?_⟩
  intro sound
  have two : 0 < wrappedLayout.numSlots := by decide
  have first := sound.inside (.payload ⟨0, two⟩)
  have payload : wrappedLayout.slotPayload 0 = 72 := by decide
  simp only [Part.start, Part.size, payload] at first
  exact absurd first (by decide)

theorem layout_sound_small : (⟨2, 8⟩ : Layout).Sound := by
  have created : (run step (initial : State Unit Unit) (createSteps () ⟨2, 8⟩ 9)).place () =
      .building ⟨2, 8⟩ 0 .ready := by decide
  exact ((layout_sound_iff _ () ⟨2, 8⟩ 0 created).mpr (by decide)).1

end Chappe.Segment
