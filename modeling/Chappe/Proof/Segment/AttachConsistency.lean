/-
This file proves when an attach takes its geometry from one create and maps enough bytes for it.
-/

import Chappe.Proof.Segment.Locking

namespace Chappe.Segment
open Foundation ShmRing

variable {Process Consumer : Type}

/-- An attach is between its `fstat` of a segment with bytes and its last read of the segment. -/
def Reader.Engaged (inode : Nat) : Reader → Prop
  | .statted segment size => segment = inode ∧ size ≠ 0
  | .mapped segment _ | .checked segment _ | .counted segment _ _ => segment = inode
  | _ => False

/-- The stages between the `ftruncate` of a create and its store that clears the magic. -/
def Stage.Resized (stage : Stage) : Prop := stage = .map ∨ stage = .clear

/-- While an attach is engaged with a segment, only a create of the geometry that the segment has
truncates it. An attach does not call `fstat` between the `ftruncate` of a create of another
geometry and its clearing of the magic, nor on a segment that a create left like that. -/
def Undisturbed (state : State Process Consumer) : Action Process Consumer → Prop
  | .process process ok =>
      match state.place process with
      | .building layout inode .resize =>
          ok = true → (∃ consumer, (state.reader consumer).Engaged inode) →
            (state.inode inode).layout = layout ∧ (state.inode inode).size = layout.totalSize
      | _ => True
  | .consumer consumer ok =>
      match state.reader consumer with
      | .opened inode =>
          ok = true → (state.inode inode).size ≠ 0 →
            (∀ process layout stage, state.place process = .building layout inode stage →
              stage.Resized → (state.inode inode).layout = layout) ∧
            ((state.inode inode).magic = shmRingMagic →
              (state.inode inode).size = (state.inode inode).layout.totalSize)
      | _ => True
  | _ => True

theorem fresh_unset : Inode.fresh.magic ≠ shmRingMagic := by decide

theorem Inode.size_truncate (inode : Inode) (size : Nat) : (inode.truncate size).size = size := by
  unfold Inode.truncate
  split
  · rename_i none
    exact none.symm
  · rfl

/-- A segment whose magic is set after `ftruncate` has kept its control block. -/
theorem Inode.truncate_set {inode : Inode} {size : Nat}
    (set : (inode.truncate size).magic = shmRingMagic) :
    inode.magic = shmRingMagic ∧ (inode.truncate size).layout = inode.layout := by
  unfold Inode.truncate at set ⊢
  split at set
  · exact absurd set fresh_unset
  · rename_i some
    rw [if_neg some]
    exact ⟨set, rfl⟩

/-- What a create has stored in the segment before each of its stages. -/
def Stage.Stored (layout : Layout) (content : Inode) : Stage → Prop
  | .resize => True
  | .map | .clear => content.size = layout.totalSize
  | .count => content.size = layout.totalSize ∧ content.magic = 0
  | .describe =>
      content.size = layout.totalSize ∧ content.magic = 0 ∧ content.numSlots = layout.numSlots
  | .clearSlots | .publish =>
      content.size = layout.totalSize ∧ content.magic = 0 ∧ content.layout = layout
  | .ready => content.size = layout.totalSize ∧ content.layout = layout

/-- A process works on a segment that exists, for a call that was made. -/
def PlaceFact (state : State Process Consumer) : Place → Prop
  | .opening layout | .reopening layout => layout ∈ state.calls
  | .opened layout inode => layout ∈ state.calls ∧ inode < state.count
  | .building layout inode stage =>
      layout ∈ state.calls ∧ inode < state.count ∧ stage.Stored layout (state.inode inode)
  | _ => True

/-- An attach that has the size of a segment has the size for the geometry that a set magic
vouches for. -/
structure Window (state : State Process Consumer) (inode size : Nat) : Prop where
  positive : size ≠ 0
  sized : (state.inode inode).size = size
  vouched : (state.inode inode).magic = shmRingMagic →
    (state.inode inode).layout.totalSize = size
  resized : ∀ process layout stage, state.place process = .building layout inode stage →
    stage.Resized → (state.inode inode).layout = layout

/-- An attach that has seen the magic reads a geometry that nobody changes. -/
structure Settled (state : State Process Consumer) (inode size : Nat) : Prop where
  positive : size ≠ 0
  sized : (state.inode inode).size = size
  total : (state.inode inode).layout.totalSize = size
  called : (state.inode inode).layout ∈ state.calls
  rebuilt : ∀ process layout stage, state.place process = .building layout inode stage →
    stage ≠ .resize → (state.inode inode).layout = layout

def ReaderFact (state : State Process Consumer) : Reader → Prop
  | .idle | .opening => True
  | .opened inode => inode < state.count
  | .statted inode size => inode < state.count ∧ (size ≠ 0 → Window state inode size)
  | .mapped inode size => inode < state.count ∧ Window state inode size
  | .checked inode size => inode < state.count ∧ Settled state inode size
  | .counted inode size numSlots =>
      inode < state.count ∧ Settled state inode size ∧ numSlots = (state.inode inode).numSlots
  | .attached _ size layout => layout ∈ state.calls ∧ layout.totalSize = size

structure Coherent (state : State Process Consumer) : Prop where
  named : ∀ inode, state.name = some inode → inode < state.count
  stamped : ∀ inode, (state.inode inode).magic = shmRingMagic →
    (state.inode inode).layout ∈ state.calls
  placed : ∀ process, PlaceFact state (state.place process)
  reading : ∀ consumer, ReaderFact state (state.reader consumer)

theorem Coherent.initial : Coherent (initial : State Process Consumer) :=
  ⟨nofun, fun _ set => absurd set fresh_unset, fun _ => True.intro, fun _ => True.intro⟩

variable {state next : State Process Consumer}

/-- A step that adds segments and calls and starts no stage of a create. -/
structure Extends (state next : State Process Consumer) : Prop where
  count : state.count ≤ next.count
  calls : ∀ layout ∈ state.calls, layout ∈ next.calls
  content : ∀ inode < state.count, next.inode inode = state.inode inode
  fresh : ∀ inode, state.count ≤ inode →
    next.inode inode = state.inode inode ∨ next.inode inode = .fresh
  builders : ∀ process layout inode stage, next.place process = .building layout inode stage →
    stage ≠ .resize → state.place process = .building layout inode stage

theorem Stage.Resized.ne_resize {stage : Stage} (resized : stage.Resized) : stage ≠ .resize := by
  rcases resized with rfl | rfl <;> nofun

theorem Window.extend {inode size : Nat} (window : Window state inode size)
    (extends_ : Extends state next) (exists_ : inode < state.count) : Window next inode size := by
  have same := extends_.content inode exists_
  refine ⟨window.positive, ?_, ?_, ?_⟩
  · rw [same]
    exact window.sized
  · rw [same]
    exact window.vouched
  · intro process layout stage building resized
    rw [same]
    exact window.resized process layout stage
      (extends_.builders process layout inode stage building resized.ne_resize) resized

theorem Settled.extend {inode size : Nat} (settled : Settled state inode size)
    (extends_ : Extends state next) (exists_ : inode < state.count) : Settled next inode size := by
  have same := extends_.content inode exists_
  refine ⟨settled.positive, ?_, ?_, ?_, ?_⟩
  · rw [same]
    exact settled.sized
  · rw [same]
    exact settled.total
  · rw [same]
    exact extends_.calls _ settled.called
  · intro process layout stage building later
    rw [same]
    exact settled.rebuilt process layout stage
      (extends_.builders process layout inode stage building later) later

theorem ReaderFact.extend {reader : Reader} (fact : ReaderFact state reader)
    (extends_ : Extends state next) : ReaderFact next reader := by
  have grown {inode : Nat} (exists_ : inode < state.count) : inode < next.count :=
    lt_of_lt_of_le exists_ extends_.count
  cases reader with
  | idle => exact True.intro
  | opening => exact True.intro
  | opened inode => exact grown fact
  | statted inode size => exact ⟨grown fact.1, fun some => (fact.2 some).extend extends_ fact.1⟩
  | mapped inode size => exact ⟨grown fact.1, fact.2.extend extends_ fact.1⟩
  | checked inode size => exact ⟨grown fact.1, fact.2.extend extends_ fact.1⟩
  | counted inode size numSlots =>
      refine ⟨grown fact.1, fact.2.1.extend extends_ fact.1, ?_⟩
      rw [extends_.content inode fact.1]
      exact fact.2.2
  | attached inode size layout => exact ⟨extends_.calls _ fact.1, fact.2⟩

theorem PlaceFact.extend {place : Place} (fact : PlaceFact state place)
    (extends_ : Extends state next) : PlaceFact next place := by
  cases place with
  | idle | unmapped | unlinking | dead => exact True.intro
  | opening layout | reopening layout => exact extends_.calls _ fact
  | opened layout inode =>
      exact ⟨extends_.calls _ fact.1, lt_of_lt_of_le fact.2 extends_.count⟩
  | building layout inode stage =>
      refine ⟨extends_.calls _ fact.1, lt_of_lt_of_le fact.2.1 extends_.count, ?_⟩
      rw [extends_.content inode fact.2.1]
      exact fact.2.2

/-- A step that only extends the state keeps it coherent when the moved process is accounted
for. -/
theorem Coherent.extend (coherent : Coherent state) (extends_ : Extends state next)
    (named : ∀ inode, next.name = some inode → inode < next.count)
    (readers : next.reader = state.reader)
    (moved : ∀ process, next.place process = state.place process ∨
      PlaceFact next (next.place process)) : Coherent next := by
  refine ⟨named, ?_, ?_, ?_⟩
  · intro inode set
    have same : next.inode inode = state.inode inode := by
      rcases lt_or_ge inode state.count with known | new
      · exact extends_.content inode known
      · rcases extends_.fresh inode new with same | fresh
        · exact same
        · rw [fresh] at set
          exact absurd set fresh_unset
    rw [same] at set ⊢
    exact extends_.calls _ (coherent.stamped inode set)
  · intro process
    rcases moved process with same | fact
    · rw [same]
      exact (coherent.placed process).extend extends_
    · exact fact
  · intro consumer
    rw [readers]
    exact (coherent.reading consumer).extend extends_

/-- An attach that reads the magic finds the geometry complete and of the size that it mapped. -/
theorem Coherent.settle (coherent : Coherent state) {inode size : Nat}
    (window : Window state inode size) (set : (state.inode inode).magic = shmRingMagic) :
    Settled state inode size := by
  refine ⟨window.positive, window.sized, window.vouched set, coherent.stamped inode set, ?_⟩
  intro process layout stage building begun
  have fact := coherent.placed process
  rw [building] at fact
  obtain ⟨_, _, stored⟩ := fact
  have cleared (unset : (state.inode inode).magic = 0) : False := by
    rw [unset] at set
    exact absurd set (by decide)
  cases stage with
  | resize => exact absurd rfl begun
  | map => exact window.resized process layout .map building (.inl rfl)
  | clear => exact window.resized process layout .clear building (.inr rfl)
  | count => exact (cleared stored.2).elim
  | describe => exact (cleared stored.2.1).elim
  | clearSlots => exact (cleared stored.2.1).elim
  | publish => exact (cleared stored.2.1).elim
  | ready => exact stored.2

/-- The next call or load of an attach. -/
theorem Coherent.consumerStep (coherent : Coherent state) (consumer : Consumer) (ok : Bool)
    (undisturbed : Undisturbed state (.consumer consumer ok)) :
    ReaderFact state (state.consumerStep consumer ok) := by
  have fact := coherent.reading consumer
  simp only [Undisturbed] at undisturbed
  unfold State.consumerStep
  cases here : state.reader consumer with
  | idle => exact True.intro
  | opening =>
      dsimp only
      split
      · rename_i inode resolved
        exact coherent.named inode resolved
      · exact True.intro
  | opened inode =>
      rw [here] at fact undisturbed
      dsimp only at undisturbed ⊢
      split
      · rename_i done
        refine ⟨fact, fun some => ?_⟩
        obtain ⟨resized, vouched⟩ := undisturbed done some
        exact ⟨some, rfl, fun set => (vouched set).symm, resized⟩
      · exact True.intro
  | statted inode size =>
      rw [here] at fact
      dsimp only
      split
      · rename_i mapped
        exact ⟨fact.1, fact.2 mapped.2⟩
      · exact True.intro
  | mapped inode size =>
      rw [here] at fact
      dsimp only
      split
      · rename_i set
        exact ⟨fact.1, coherent.settle fact.2 set⟩
      · exact True.intro
  | checked inode size =>
      rw [here] at fact
      exact ⟨fact.1, fact.2, rfl⟩
  | counted inode size numSlots =>
      rw [here] at fact
      obtain ⟨_, settled, rfl⟩ := fact
      exact ⟨settled.called, settled.total⟩
  | attached inode size layout =>
      rw [here] at fact
      exact fact

/-- One consumer moves in its attach. -/
theorem Coherent.read [DecidableEq Consumer] (coherent : Coherent state) {consumer : Consumer}
    {reader : Reader} (fact : ReaderFact state reader) :
    Coherent (state.read consumer reader) := by
  have extends_ : Extends state (state.read consumer reader) :=
    ⟨le_rfl, fun _ member => member, fun _ _ => rfl, fun _ _ => .inl rfl,
      fun _ _ _ _ building _ => building⟩
  refine ⟨coherent.named, coherent.stamped, fun process =>
    (coherent.placed process).extend extends_, ?_⟩
  intro other
  by_cases here : other = consumer
  · simp only [State.read, here, Function.update_self]
    exact fact.extend extends_
  · simp only [State.read, Function.update_of_ne here]
    exact (coherent.reading other).extend extends_

/-- What the store of a stage must keep for the attaches that are engaged with the segment. -/
structure Keeps (state : State Process Consumer) (layout : Layout) (inode : Nat) (content : Inode)
    (later : Stage) : Prop where
  window : ∀ size, Window state inode size → content.size = size ∧
    (content.magic = shmRingMagic → content.layout.totalSize = size) ∧
    (later.Resized → content.layout = layout)
  settled : ∀ size, Settled state inode size →
    content.size = size ∧ content.layout = (state.inode inode).layout ∧ content.layout = layout

/-- A store after the one that clears the magic keeps the geometry that an attach relies on. -/
theorem Keeps.stored {process : Process} {layout : Layout} {inode : Nat} {stage later : Stage}
    {content : Inode} (here : state.place process = .building layout inode stage)
    (begun : stage ≠ .resize) (sized : content.size = (state.inode inode).size)
    (vouched : content.magic = shmRingMagic →
      content.layout = layout ∧ content.size = layout.totalSize)
    (kept : (state.inode inode).layout = layout → content.layout = layout)
    (past : ¬ later.Resized) : Keeps state layout inode content later := by
  constructor
  · intro size window
    refine ⟨sized.trans window.sized, ?_, fun between => absurd between past⟩
    intro set
    obtain ⟨described, total⟩ := vouched set
    rw [described, ← total, sized]
    exact window.sized
  · intro size settled
    have asked := settled.rebuilt process layout stage here begun
    exact ⟨sized.trans settled.sized, (kept asked).trans asked.symm, kept asked⟩

variable [DecidableEq Process]

/-- A process that moves to a place outside the stages of a create extends the state. -/
theorem Extends.goto (process : Process) (place : Place)
    (outside : ∀ layout inode stage, place = .building layout inode stage → stage = .resize)
    (count : state.count ≤ next.count) (calls : ∀ layout ∈ state.calls, layout ∈ next.calls)
    (content : next.inode = state.inode)
    (moved : next.place = Function.update state.place process place) : Extends state next := by
  refine ⟨count, calls, fun _ _ => by rw [content], fun _ _ => .inl (by rw [content]), ?_⟩
  intro other layout inode stage building later
  by_cases here : other = process
  · rw [moved, here, Function.update_self] at building
    exact absurd (outside layout inode stage building) later
  · rwa [moved, Function.update_of_ne here] at building

/-- One process moves and nothing else that an attach sees changes. -/
theorem Coherent.goto (coherent : Coherent state) (process : Process) (place : Place)
    (outside : ∀ layout inode stage, place = .building layout inode stage → stage = .resize)
    (fact : PlaceFact state place) (name : next.name = state.name ∨ next.name = none)
    (count : next.count = state.count) (calls : next.calls = state.calls)
    (content : next.inode = state.inode) (readers : next.reader = state.reader)
    (moved : next.place = Function.update state.place process place) : Coherent next := by
  have extends_ : Extends state next :=
    Extends.goto process place outside count.ge (fun _ member => calls ▸ member) content moved
  refine coherent.extend extends_ ?_ readers ?_
  · intro inode resolved
    rcases name with same | gone
    · rw [count]
      exact coherent.named inode (same ▸ resolved)
    · rw [gone] at resolved
      cases resolved
  · intro other
    by_cases here : other = process
    · right
      rw [moved, here, Function.update_self]
      exact fact.extend extends_
    · left
      rw [moved, Function.update_of_ne here]

/-- The state after a create has made the store of one stage. -/
def State.stored (state : State Process Consumer) (process : Process) (layout : Layout)
    (inode : Nat) (content : Inode) (later : Stage) : State Process Consumer :=
  (state.write inode content).goto process (.building layout inode later)

section Store

variable {process : Process} {layout : Layout} {inode : Nat} {stage later : Stage} {content : Inode}

/-- Whoever builds in a segment after the store is the process that made it, or did so before. -/
theorem stored_builder (agree : LocksAgree state)
    (here : state.place process = .building layout inode stage) {other : Process}
    {asked : Layout} {segment : Nat} {step : Stage}
    (building : (state.stored process layout inode content later).place other =
      .building asked segment step) :
    (other = process ∧ segment = inode ∧ asked = layout ∧ step = later) ∨
      segment ≠ inode ∧ state.place other = .building asked segment step := by
  by_cases same : other = process
  · subst other
    simp only [State.stored, State.goto, Function.update_self, Place.building.injEq] at building
    exact .inl ⟨rfl, building.2.1.symm, building.1.symm, building.2.2.symm⟩
  · simp only [State.stored, State.goto, State.write, Function.update_of_ne same] at building
    refine .inr ⟨?_, building⟩
    intro together
    subst segment
    have mine : (state.place process).Locks inode := by rw [here]; exact rfl
    have theirs : (state.place other).Locks inode := by rw [building]; exact rfl
    exact same (agree.unique theirs mine)

theorem Window.store {segment size : Nat} (window : Window state segment size)
    (agree : LocksAgree state) (here : state.place process = .building layout inode stage)
    (keeps : segment = inode → Keeps state layout inode content later) :
    Window (state.stored process layout inode content later) segment size := by
  by_cases same : segment = inode
  · subst segment
    obtain ⟨sized, vouched, resized⟩ := (keeps rfl).window size window
    have now : (state.stored process layout inode content later).inode inode = content :=
      Function.update_self ..
    refine ⟨window.positive, by rw [now]; exact sized, by rw [now]; exact vouched, ?_⟩
    intro other asked step building between
    rw [now]
    rcases stored_builder agree here building with ⟨_, _, rfl, rfl⟩ | ⟨different, _⟩
    · exact resized between
    · exact absurd rfl different
  · have now : (state.stored process layout inode content later).inode segment =
        state.inode segment := Function.update_of_ne same ..
    refine ⟨window.positive, by rw [now]; exact window.sized, by rw [now]; exact window.vouched, ?_⟩
    intro other asked step building between
    rw [now]
    rcases stored_builder agree here building with ⟨_, together, _⟩ | ⟨_, before⟩
    · exact absurd together same
    · exact window.resized other asked step before between

theorem Settled.store {segment size : Nat} (settled : Settled state segment size)
    (agree : LocksAgree state) (here : state.place process = .building layout inode stage)
    (keeps : segment = inode → Keeps state layout inode content later) :
    Settled (state.stored process layout inode content later) segment size ∧
      ((state.stored process layout inode content later).inode segment).layout =
        (state.inode segment).layout := by
  by_cases same : segment = inode
  · subst segment
    obtain ⟨sized, kept, asked⟩ := (keeps rfl).settled size settled
    have now : (state.stored process layout inode content later).inode inode = content :=
      Function.update_self ..
    refine ⟨⟨settled.positive, by rw [now]; exact sized, ?_, ?_, ?_⟩, by rw [now]; exact kept⟩
    · rw [now, kept]
      exact settled.total
    · rw [now, kept]
      exact settled.called
    · intro other other_ step building _
      rw [now]
      rcases stored_builder agree here building with ⟨_, _, rfl, _⟩ | ⟨different, _⟩
      · exact asked
      · exact absurd rfl different
  · have now : (state.stored process layout inode content later).inode segment =
        state.inode segment := Function.update_of_ne same ..
    refine ⟨⟨settled.positive, by rw [now]; exact settled.sized, by rw [now]; exact settled.total,
      by rw [now]; exact settled.called, ?_⟩, by rw [now]⟩
    intro other asked step building between
    rw [now]
    rcases stored_builder agree here building with ⟨_, together, _⟩ | ⟨_, before⟩
    · exact absurd together same
    · exact settled.rebuilt other asked step before between

theorem ReaderFact.store {reader : Reader} (fact : ReaderFact state reader)
    (agree : LocksAgree state) (here : state.place process = .building layout inode stage)
    (keeps : reader.Engaged inode → Keeps state layout inode content later) :
    ReaderFact (state.stored process layout inode content later) reader := by
  cases reader with
  | idle => exact True.intro
  | opening => exact True.intro
  | opened segment => exact fact
  | statted segment size =>
      exact ⟨fact.1, fun some => (fact.2 some).store agree here fun same => keeps ⟨same, some⟩⟩
  | mapped segment size => exact ⟨fact.1, fact.2.store agree here keeps⟩
  | checked segment size => exact ⟨fact.1, (fact.2.store agree here keeps).1⟩
  | counted segment size numSlots =>
      obtain ⟨settled, same⟩ := fact.2.1.store agree here keeps
      refine ⟨fact.1, settled, fact.2.2.trans ?_⟩
      exact congrArg Layout.numSlots same.symm
  | attached segment size layout => exact fact

/-- The store of a stage keeps the state coherent. -/
theorem Coherent.store (coherent : Coherent state) (agree : LocksAgree state)
    (here : state.place process = .building layout inode stage)
    (stored : later.Stored layout content)
    (stamped : content.magic = shmRingMagic → content.layout ∈ state.calls)
    (keeps : (∃ consumer, (state.reader consumer).Engaged inode) →
      Keeps state layout inode content later) :
    Coherent (state.stored process layout inode content later) := by
  have work : PlaceFact state (.building layout inode stage) := here ▸ coherent.placed process
  refine ⟨coherent.named, ?_, ?_, ?_⟩
  · intro segment
    by_cases same : segment = inode
    · simp only [State.stored, State.goto, State.write, same, Function.update_self]
      exact stamped
    · simp only [State.stored, State.goto, State.write, Function.update_of_ne same]
      exact coherent.stamped segment
  · intro other
    by_cases same : other = process
    · simp only [State.stored, State.goto, same, Function.update_self]
      refine ⟨work.1, work.2.1, ?_⟩
      simp only [State.write, Function.update_self]
      exact stored
    · have moved : (state.stored process layout inode content later).place other =
          state.place other := Function.update_of_ne same ..
      have fact := coherent.placed other
      rw [moved]
      cases found : state.place other with
      | idle | unmapped | unlinking | dead => exact True.intro
      | opening | reopening | opened =>
          rw [found] at fact
          exact fact
      | building asked segment step =>
          rw [found] at fact
          rcases stored_builder agree here (moved.trans found) with ⟨mine, _⟩ | ⟨away, _⟩
          · exact absurd mine same
          · refine ⟨fact.1, fact.2.1, ?_⟩
            simp only [State.stored, State.goto, State.write, Function.update_of_ne away]
            exact fact.2.2
  · intro consumer
    exact (coherent.reading consumer).store agree here fun engaged => keeps ⟨consumer, engaged⟩

end Store

/-- A create opens a fresh segment under the free name. -/
theorem Coherent.create (coherent : Coherent state) {process : Process} {layout : Layout}
    (called : layout ∈ state.calls) :
    Coherent { (state.write state.count .fresh).goto process (.opened layout state.count) with
      name := some state.count
      count := state.count + 1 } := by
  have grown : state.count ≤ state.count + 1 := Nat.le_succ _
  refine coherent.extend ⟨grown, fun _ member => member, ?_, ?_, ?_⟩ ?_ rfl ?_
  · intro inode known
    exact Function.update_of_ne known.ne ..
  · intro inode _
    by_cases same : inode = state.count
    · right
      simp only [State.goto, State.write, same, Function.update_self]
    · left
      exact Function.update_of_ne same ..
  · intro other asked inode stage building _
    by_cases here : other = process
    · simp only [State.goto, here, Function.update_self] at building
      cases building
    · simpa only [State.goto, State.write, Function.update_of_ne here] using building
  · intro inode resolved
    cases resolved
    exact Nat.lt_succ_self _
  · intro other
    by_cases here : other = process
    · right
      simp only [State.goto, here, Function.update_self]
      exact ⟨called, Nat.lt_succ_self _⟩
    · left
      exact Function.update_of_ne here ..

/-- A create that has the lock makes its next step. -/
theorem Coherent.build (coherent : Coherent state) (agree : LocksAgree state) {process : Process}
    {layout : Layout} {inode : Nat} {stage : Stage}
    (here : state.place process = .building layout inode stage) (ok : Bool)
    (undisturbed : stage = .resize → ok = true →
      (∃ consumer, (state.reader consumer).Engaged inode) →
      (state.inode inode).layout = layout ∧ (state.inode inode).size = layout.totalSize) :
    Coherent (state.build process layout inode ok stage) := by
  have work : PlaceFact state (.building layout inode stage) := here ▸ coherent.placed process
  have failed : Coherent ((state.unlock inode).goto process .unlinking) :=
    coherent.goto process .unlinking (by simp) True.intro (.inl rfl) rfl rfl rfl rfl rfl
  have unwritten (later : Stage) : state.stored process layout inode (state.inode inode) later =
      state.goto process (.building layout inode later) := by
    simp only [State.stored, State.write, Function.update_eq_self]
  have zero {content : Inode} (unset : content.magic = 0) : content.magic ≠ shmRingMagic := by
    rw [unset]
    decide
  cases stage with
  | resize =>
      simp only [State.build]
      split
      · rename_i done
        refine coherent.store agree here (Inode.size_truncate _ _) ?_ ?_
        · intro set
          obtain ⟨before, same⟩ := Inode.truncate_set set
          rw [same]
          exact coherent.stamped inode before
        · intro engaged
          obtain ⟨same, total⟩ := undisturbed rfl done engaged
          have whole {size : Nat} (positive : size ≠ 0) (sized : (state.inode inode).size = size) :
              (state.inode inode).truncate layout.totalSize = state.inode inode := by
            rw [Inode.truncate, ← total, if_neg (sized ▸ positive)]
          constructor
          · intro size window
            rw [whole window.positive window.sized]
            exact ⟨window.sized, window.vouched, fun _ => same⟩
          · intro size settled
            rw [whole settled.positive settled.sized]
            exact ⟨settled.sized, rfl, same⟩
      · exact failed
  | map =>
      simp only [State.build]
      split
      · rw [← unwritten]
        refine coherent.store agree here work.2.2 (coherent.stamped inode) fun _ => ⟨?_, ?_⟩
        · intro size window
          exact ⟨window.sized, window.vouched,
            fun _ => window.resized process layout .map here (.inl rfl)⟩
        · intro size settled
          exact ⟨settled.sized, rfl, settled.rebuilt process layout .map here (by simp)⟩
      · exact failed
  | clear =>
      exact coherent.store agree here ⟨work.2.2, rfl⟩ (fun set => absurd set (zero rfl))
        fun _ => .stored here (by simp) rfl (fun set => absurd set (zero rfl)) id
          (by simp [Stage.Resized])
  | count =>
      obtain ⟨_, _, sized, unset⟩ := work
      refine coherent.store agree here ⟨sized, unset, rfl⟩ (fun set => absurd set (zero unset))
        fun _ => .stored here (by simp) rfl (fun set => absurd set (zero unset)) ?_
          (by simp [Stage.Resized])
      rintro rfl
      rfl
  | describe =>
      obtain ⟨_, _, sized, unset, counted⟩ := work
      have described : (⟨(state.inode inode).numSlots, layout.slotSize⟩ : Layout) = layout := by
        rw [counted]
      exact coherent.store agree here ⟨sized, unset, described⟩ (fun set => absurd set (zero unset))
        fun _ => .stored here (by simp) rfl (fun set => absurd set (zero unset))
          (fun _ => described) (by simp [Stage.Resized])
  | clearSlots =>
      obtain ⟨_, _, sized, unset, described⟩ := work
      rw [State.build, ← unwritten]
      exact coherent.store agree here ⟨sized, unset, described⟩ (coherent.stamped inode)
        fun _ => .stored here (by simp) rfl (fun _ => ⟨described, sized⟩) id
          (by simp [Stage.Resized])
  | publish =>
      obtain ⟨called, _, sized, unset, described⟩ := work
      refine coherent.store agree here ⟨sized, described⟩ ?_
        fun _ => .stored here (by simp) rfl (fun _ => ⟨described, sized⟩) id
          (by simp [Stage.Resized])
      intro _
      exact described.symm ▸ called
  | ready => exact coherent

theorem Coherent.processStep (coherent : Coherent state) (agree : LocksAgree state)
    (process : Process) (ok : Bool) (undisturbed : Undisturbed state (.process process ok)) :
    Coherent (state.processStep process ok) := by
  have back : Coherent (state.goto process .idle) :=
    coherent.goto process .idle nofun True.intro (.inl rfl) rfl rfl rfl rfl rfl
  have fact := coherent.placed process
  simp only [Undisturbed] at undisturbed
  unfold State.processStep
  cases here : state.place process with
  | idle | dead => exact coherent
  | opening layout =>
      rw [here] at fact
      dsimp only
      split
      · split
        · exact coherent.create fact
        · exact coherent.goto process (.reopening layout) nofun fact (.inl rfl) rfl rfl rfl rfl rfl
      · exact back
  | reopening layout =>
      rw [here] at fact
      dsimp only
      split
      · rename_i inode resolved
        exact coherent.goto process (.opened layout inode) nofun
          ⟨fact, coherent.named inode resolved⟩ (.inl rfl) rfl rfl rfl rfl rfl
      · exact back
  | opened layout inode =>
      rw [here] at fact
      dsimp only
      split
      · refine coherent.goto process (.building layout inode .resize) ?_
          ⟨fact.1, fact.2, True.intro⟩ (.inl rfl) rfl rfl rfl rfl rfl
        intro _ _ _ same
        cases same
        rfl
      · exact back
  | building layout inode stage =>
      refine coherent.build agree here ok ?_
      rintro rfl
      rw [here] at undisturbed
      exact undisturbed
  | unmapped inode =>
      exact coherent.goto process .unlinking nofun True.intro (.inl rfl) rfl rfl rfl rfl rfl
  | unlinking =>
      refine coherent.goto process .idle nofun True.intro ?_ rfl rfl rfl rfl rfl
      dsimp only
      split
      · exact .inr rfl
      · exact .inl rfl

variable [DecidableEq Consumer]

theorem Coherent.step (state : State Process Consumer) (action : Action Process Consumer)
    (held : LocksAgree state ∧ Coherent state) (undisturbed : Undisturbed state action) :
    LocksAgree (step state action) ∧ Coherent (step state action) := by
  obtain ⟨agree, coherent⟩ := held
  refine ⟨agree.step state action, ?_⟩
  cases action with
  | create process layout =>
      simp only [Segment.step]
      split
      · have grown : ∀ asked ∈ state.calls, asked ∈ state.calls ++ [layout] :=
          fun _ member => List.mem_append_left _ member
        refine coherent.extend
          (Extends.goto process (.opening layout) (by simp) le_rfl grown rfl rfl)
          coherent.named rfl ?_
        intro other
        by_cases here : other = process
        · right
          simp only [State.goto, here, Function.update_self]
          exact List.mem_append_right _ List.mem_cons_self
        · left
          exact Function.update_of_ne here ..
      · exact coherent
  | destroy process =>
      simp only [Segment.step]
      split
      · rename_i inode _
        exact coherent.goto process (.unmapped inode) (by simp) True.intro (.inl rfl) rfl rfl rfl
          rfl rfl
      · exact coherent
  | process process ok => exact coherent.processStep agree process ok undisturbed
  | die process =>
      exact coherent.goto process .dead (by simp) True.intro (.inl rfl) rfl rfl rfl rfl rfl
  | attach consumer =>
      simp only [Segment.step]
      split
      · exact coherent.read True.intro
      · exact coherent
  | consumer consumer ok => exact coherent.read (coherent.consumerStep consumer ok undisturbed)
  | detach consumer => exact coherent.read True.intro

/-- In every run whose attaches are undisturbed, an attach that succeeds has the geometry of one
call of create and has mapped enough bytes for it. -/
theorem attach_consistent (actions : List (Action Process Consumer))
    (undisturbed : Meets step Undisturbed initial actions) (consumer : Consumer)
    (inode size : Nat) (layout : Layout)
    (attached : (run step initial actions).reader consumer = .attached inode size layout) :
    layout ∈ (run step initial actions).calls ∧ layout.totalSize ≤ size := by
  have start : LocksAgree (initial : State Process Consumer) ∧
      Coherent (initial : State Process Consumer) := ⟨.initial, .initial⟩
  obtain ⟨_, coherent⟩ := run_invariant_of_meets Coherent.step actions _ start undisturbed
  have fact := coherent.reading consumer
  rw [attached] at fact
  exact ⟨fact.1, fact.2.le⟩

/-- A process calls create and makes the given number of steps in it. -/
def createSteps (process : Process) (layout : Layout) (steps : Nat) :
    List (Action Process Consumer) :=
  .create process layout :: List.replicate steps (.process process true)

/-- A consumer attaches to the ring of a live producer. -/
def attachLive : List (Action Unit Unit) :=
  createSteps () ⟨2, 8⟩ 9 ++ .attach () :: List.replicate 6 (.consumer () true)

theorem attach_consistent_live :
    (⟨2, 8⟩ : Layout) ∈ (run step (initial : State Unit Unit) attachLive).calls ∧
      (⟨2, 8⟩ : Layout).totalSize ≤ 192 := by
  refine attach_consistent attachLive ?_ () 0 192 ⟨2, 8⟩ (by decide)
  refine ⟨True.intro, True.intro, True.intro, ?_, True.intro, True.intro, True.intro, True.intro,
    True.intro, True.intro, True.intro, True.intro, ?_, True.intro, True.intro, True.intro,
    True.intro, True.intro⟩
  · intro _ engaged
    exact engaged.elim fun _ => False.elim
  · refine fun _ _ => ⟨?_, fun _ => by decide⟩
    intro process layout stage building resized
    have ready : stage = .ready := by
      injection building with _ _ same
      exact same.symm
    rw [ready] at resized
    exact absurd resized (by simp [Stage.Resized])

/-- A consumer maps the ring that a dead producer left and reads the magic and the number of slots.
Then a second producer reclaims the segment with larger slots, and the consumer reads their size. -/
def tornAttach : List (Action Nat Unit) :=
  createSteps 0 ⟨2, 8⟩ 9 ++ .die 0 :: .attach () :: List.replicate 5 (.consumer () true) ++
    createSteps 1 ⟨4, 64⟩ 8 ++ [.consumer () true]

/-- The geometry is of neither create, and the mapping is too small for it. -/
theorem attach_torn :
    (run step (initial : State Nat Unit) tornAttach).reader () = .attached 0 192 ⟨2, 64⟩ ∧
      (⟨2, 64⟩ : Layout) ∉ (run step (initial : State Nat Unit) tornAttach).calls ∧
      192 < (⟨2, 64⟩ : Layout).totalSize :=
  ⟨by decide, by decide, by decide⟩

end Chappe.Segment
