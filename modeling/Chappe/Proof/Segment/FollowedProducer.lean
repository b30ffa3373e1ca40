/-
This file proves when a consumer follows the producers of a frame topic across their restarts.
-/

import Chappe.Construction.FrameTopic
import Chappe.Foundation.Table
import Chappe.Proof.Segment.Locking

namespace Chappe.Segment
open Foundation

variable {Process : Type}

/-- The mapping that the table of the node remembers. -/
def Topic.remembered (topic : Topic Process) : Option (Nat × Layout) :=
  match topic.ring.reader () with
  | .attached inode _ layout => some (inode, layout)
  | _ => none

/-- A create takes the lock only while the name resolves to the segment that it opened, the attach
of the consumer ends on the newest segment, and no new segment is made while the node remembers
one. The handler retains with the geometry that the newest frame was written with. -/
def Topic.steady (topic : Topic Process) : TopicAction Process → Bool
  | .segment (.process process ok) =>
      match topic.ring.place process with
      | .opening _ => decide (ok = true → topic.ring.name = none → topic.remembered = none)
      | .opened _ inode =>
          decide (ok = true → (topic.ring.lock inode).isNone → topic.ring.name = some inode)
      | _ => true
  | .segment (.consumer _ _) =>
      match topic.ring.reader () with
      | .counted inode _ _ => decide (inode + 1 = topic.ring.count)
      | _ => true
  | .retain _ _ =>
      match topic.remembered with
      | some (inode, layout) => (topic.latest inode).all fun frame => frame.2 = layout
      | none => true
  | _ => true

/-- The handle is in flight, or is about to be, or is with the consumer. -/
def Topic.Announced (topic : Topic Process) (handle : Nat) : Prop :=
  handle ∈ topic.handles ∨ topic.attaching = some handle ∨ handle ∈ topic.retaining ∨
    ∃ process, topic.announcing process = some handle

/-- The instances took their segments in order, and the owner of a segment is the last instance
that took it. A frame is by an instance of its segment, and none is older than an announced one. -/
structure Topic.Tracks (topic : Topic Process) : Prop where
  agree : LocksAgree topic.ring
  named : ∀ inode, topic.ring.name = some inode → inode + 1 = topic.ring.count
  newest : ∀ inode size layout, topic.ring.reader () = .attached inode size layout →
    inode + 1 = topic.ring.count
  homes : ∀ producer < topic.turn, topic.home producer < topic.ring.count
  ordered : ∀ second < topic.turn, ∀ first ≤ second, topic.home first ≤ topic.home second
  owners : ∀ process inode, topic.ring.lock inode = some process →
    topic.stamp process < topic.turn ∧ topic.home (topic.stamp process) = inode ∧
      ∀ other < topic.turn, topic.home other = inode → other ≤ topic.stamp process
  authors : ∀ inode author written, topic.latest inode = some (author, written) →
    author < topic.turn ∧ topic.home author = inode
  announced : ∀ handle, topic.Announced handle → handle < topic.turn ∧
    ∀ author written, topic.latest (topic.home handle) = some (author, written) → handle ≤ author
  views : ∀ view ∈ topic.views, view.handle ≤ view.author ∧ view.author < topic.turn ∧
    topic.home view.author = view.inode

theorem Topic.Tracks.initial : (Topic.initial : Topic Process).Tracks where
  agree := .initial
  named := by simp [Topic.initial, Segment.initial]
  newest := by simp [Topic.initial, Segment.initial]
  homes := by simp [Topic.initial]
  ordered := by simp [Topic.initial]
  owners := by simp [Topic.initial, Segment.initial]
  authors := by simp [Topic.initial]
  announced := by simp [Topic.initial, Topic.Announced]
  views := by simp [Topic.initial]

variable {topic : Topic Process}

/-- A step that makes no segment, gives out no lock and ends no attach. -/
theorem Topic.Tracks.withRing (tracks : topic.Tracks) (ring : State Process Unit)
    (agree : LocksAgree ring) (count : ring.count = topic.ring.count)
    (name : ∀ inode, ring.name = some inode → topic.ring.name = some inode)
    (lock : ∀ inode process, ring.lock inode = some process →
      topic.ring.lock inode = some process)
    (reader : ∀ inode size layout, ring.reader () = .attached inode size layout →
      inode + 1 = topic.ring.count) :
    { topic with ring := ring }.Tracks where
  agree := agree
  named := by
    intro inode resolved
    rw [count]
    exact tracks.named inode (name inode resolved)
  newest := by
    intro inode size layout attached
    rw [count]
    exact reader inode size layout attached
  homes := by
    intro producer known
    rw [count]
    exact tracks.homes producer known
  ordered := tracks.ordered
  owners := fun process inode held => tracks.owners process inode (lock inode process held)
  authors := tracks.authors
  announced := tracks.announced
  views := tracks.views

/-- A handle that was announced is passed on. -/
theorem Topic.Tracks.pass (tracks : topic.Tracks) {handles retaining : List Nat}
    {attaching : Option Nat}
    (passed : ∀ handle, handle ∈ handles ∨ attaching = some handle ∨ handle ∈ retaining →
      topic.Announced handle) :
    { topic with handles := handles, attaching := attaching, retaining := retaining }.Tracks where
  agree := tracks.agree
  named := tracks.named
  newest := tracks.newest
  homes := tracks.homes
  ordered := tracks.ordered
  owners := tracks.owners
  authors := tracks.authors
  announced := by
    intro handle announced
    apply tracks.announced handle
    rcases announced with sent | waits | retains | ⟨process, announcing⟩
    · exact passed handle (.inl sent)
    · exact passed handle (.inr (.inl waits))
    · exact passed handle (.inr (.inr retains))
    · exact .inr (.inr (.inr ⟨process, announcing⟩))
  views := tracks.views

/-- A segment without a frame has no frame that is too old. -/
theorem Topic.Tracks.clear (tracks : topic.Tracks) (inode : Nat) :
    { topic with latest := Function.update topic.latest inode none }.Tracks where
  agree := tracks.agree
  named := tracks.named
  newest := tracks.newest
  homes := tracks.homes
  ordered := tracks.ordered
  owners := tracks.owners
  authors := by
    intro segment author written found
    exact tracks.authors segment author written (Table.of_erase found)
  announced := by
    intro handle announced
    obtain ⟨known, recent⟩ := tracks.announced handle announced
    exact ⟨known, fun author written found => recent author written (Table.of_erase found)⟩
  views := tracks.views

/-- The remembered segment is the newest one, so its frame is by the sender of the handle or by a
later instance. -/
theorem Topic.Tracks.retain (tracks : topic.Tracks) {handle : Nat}
    (retains : handle ∈ topic.retaining) (garbled : Option Nat)
    (steady : topic.steady (.retain handle garbled) = true) :
    (topic.retain handle garbled).Tracks := by
  have fewer : { topic with retaining := topic.retaining.erase handle }.Tracks := by
    apply tracks.pass
    rintro other (sent | waits | rest)
    · exact .inl sent
    · exact .inr (.inl waits)
    · exact .inr (.inr (.inl (List.mem_of_mem_erase rest)))
  simp only [Topic.steady] at steady
  unfold Topic.retain
  split
  · rename_i inode size layout attached
    have remembered : topic.remembered = some (inode, layout) := by
      rw [Topic.remembered, attached]
    rw [remembered] at steady
    dsimp only at steady ⊢
    cases latest : topic.latest inode with
    | none => exact fewer
    | some frame =>
        obtain ⟨author, written⟩ := frame
        rw [latest, Option.all_some, decide_eq_true_eq] at steady
        dsimp only
        rw [if_pos steady]
        obtain ⟨known, recent⟩ := tracks.announced handle (.inr (.inr (.inl retains)))
        obtain ⟨wrote, lives⟩ := tracks.authors inode author written latest
        have newest := tracks.newest inode size layout attached
        have inside := tracks.homes handle known
        have later : handle ≤ author := by
          by_cases same : topic.home handle = inode
          · exact recent author written (same ▸ latest)
          · by_contra older
            have before := tracks.ordered handle known author (by omega)
            omega
        refine { fewer with views := ?_ }
        simp only [List.forall_mem_append, List.forall_mem_singleton]
        exact ⟨tracks.views, later, wrote, lives⟩
  · exact tracks

theorem Topic.Tracks.ringFor (tracks : topic.Tracks) {handle : Nat}
    (sent : handle ∈ topic.handles) : (topic.ringFor handle).Tracks := by
  unfold Topic.ringFor
  split
  · apply tracks.pass
    rintro other (rest | waits | retains)
    · exact .inl (List.mem_of_mem_erase rest)
    · exact .inr (.inl waits)
    · rcases List.mem_append.mp retains with before | same
      · exact .inr (.inr (.inl before))
      · exact .inl (List.mem_singleton.mp same ▸ sent)
  · have opening : { topic with ring := topic.ring.read () .opening }.Tracks := by
      apply tracks.withRing (topic.ring.read () .opening) tracks.agree rfl (fun _ => id)
        (fun _ _ => id)
      simp [State.read]
    apply opening.pass
    rintro other (rest | waits | retains)
    · exact .inl (List.mem_of_mem_erase rest)
    · exact .inl (Option.some.inj waits ▸ sent)
    · exact .inr (.inr (.inl retains))
  · exact tracks

/-- A new segment is newer than every home. -/
theorem Topic.Tracks.create (tracks : topic.Tracks) {ring : State Process Unit}
    (agree : LocksAgree ring) (name : ring.name = some topic.ring.count)
    (count : ring.count = topic.ring.count + 1)
    (lock : ring.lock = topic.ring.lock) (reader : ring.reader = topic.ring.reader)
    (free : ∀ inode size layout, topic.ring.reader () ≠ .attached inode size layout) :
    { topic with ring := ring }.Tracks where
  agree := agree
  named := by
    intro inode resolved
    dsimp only at resolved ⊢
    rw [name, Option.some.injEq] at resolved
    rw [count, resolved]
  newest := by
    intro inode size layout attached
    dsimp only at attached
    rw [reader] at attached
    exact absurd attached (free inode size layout)
  homes := by
    intro producer known
    dsimp only
    rw [count]
    exact Nat.lt_succ_of_lt (tracks.homes producer known)
  ordered := tracks.ordered
  owners := by
    intro process inode held
    exact tracks.owners process inode (lock ▸ held)
  authors := tracks.authors
  announced := tracks.announced
  views := tracks.views

variable [DecidableEq Process]

theorem Topic.Tracks.publish (tracks : topic.Tracks) (process : Process) :
    (topic.publish process).Tracks := by
  unfold Topic.publish
  split
  · rename_i layout inode here
    have locked : topic.ring.lock inode = some process := by
      rw [tracks.agree process inode, here]
      exact rfl
    obtain ⟨known, lives, last⟩ := tracks.owners process inode locked
    refine { tracks with authors := ?_, announced := ?_ }
    · intro segment author written found
      by_cases same : segment = inode
      · subst segment
        simp only [Function.update_self, Option.some.injEq, Prod.mk.injEq] at found
        obtain ⟨rfl, rfl⟩ := found
        exact ⟨known, lives⟩
      · simp only [Function.update_of_ne same] at found
        exact tracks.authors segment author written found
    · intro handle announced
      have before : handle = topic.stamp process ∨ topic.Announced handle := by
        rcases announced with sent | waits | retains | ⟨other, announcing⟩
        · exact .inr (.inl sent)
        · exact .inr (.inr (.inl waits))
        · exact .inr (.inr (.inr (.inl retains)))
        · by_cases same : other = process
          · subst other
            simp only [Function.update_self, Option.some.injEq] at announcing
            exact .inl announcing.symm
          · simp only [Function.update_of_ne same] at announcing
            exact .inr (.inr (.inr (.inr ⟨other, announcing⟩)))
      have old : handle < topic.turn ∧ (topic.home handle ≠ inode →
          ∀ author written, topic.latest (topic.home handle) = some (author, written) →
            handle ≤ author) := by
        rcases before with rfl | announced
        · exact ⟨known, fun other => absurd lives other⟩
        · exact ⟨(tracks.announced handle announced).1,
            fun _ => (tracks.announced handle announced).2⟩
      refine ⟨old.1, ?_⟩
      intro author written found
      by_cases same : topic.home handle = inode
      · simp only [same, Function.update_self, Option.some.injEq, Prod.mk.injEq] at found
        rw [← found.1]
        exact last handle old.1 same
      · simp only [Function.update_of_ne same] at found
        exact old.2 same author written found
  · exact tracks

theorem Topic.Tracks.announce (tracks : topic.Tracks) (process : Process) :
    (topic.announce process).Tracks := by
  unfold Topic.announce
  split
  · exact tracks
  · refine { tracks with announced := ?_ }
    intro handle announced
    apply tracks.announced handle
    rcases announced with sent | waits | retains | ⟨other, announcing⟩
    · rcases List.mem_append.mp sent with before | fresh
      · exact .inl before
      · exact .inr (.inr (.inr ⟨process, Option.mem_toList.mp fresh⟩))
    · exact .inr (.inl waits)
    · exact .inr (.inr (.inl retains))
    · exact .inr (.inr (.inr ⟨other, Table.of_erase announcing⟩))

/-- The lock of the newest segment makes the newest instance. -/
theorem Topic.Tracks.lock (tracks : topic.Tracks) {process : Process} {inode : Nat}
    (resolved : topic.ring.name = some inode) {ring : State Process Unit}
    (agree : LocksAgree ring) (name : ring.name = topic.ring.name)
    (count : ring.count = topic.ring.count)
    (lock : ring.lock = Function.update topic.ring.lock inode (some process))
    (reader : ring.reader = topic.ring.reader)
    (others : ∀ other, topic.ring.lock other ≠ some process) :
    { topic with
      turn := topic.turn + 1
      stamp := Function.update topic.stamp process topic.turn
      home := Function.update topic.home topic.turn inode
      ring := ring }.Tracks := by
  have newest := tracks.named inode resolved
  have kept {producer : Nat} (known : producer < topic.turn) :
      Function.update topic.home topic.turn inode producer = topic.home producer :=
    Function.update_of_ne (Nat.ne_of_lt known) ..
  refine ⟨agree, ?_, ?_, ?_, ?_, ?_, ?_, ?_, ?_⟩
  · intro segment found
    dsimp only at found ⊢
    rw [name] at found
    rw [count]
    exact tracks.named segment found
  · intro segment size layout attached
    dsimp only at attached ⊢
    rw [reader] at attached
    rw [count]
    exact tracks.newest segment size layout attached
  · intro producer known
    dsimp only at known ⊢
    rw [count]
    rcases Nat.lt_succ_iff_lt_or_eq.mp known with before | rfl
    · rw [kept before]
      exact tracks.homes producer before
    · rw [Function.update_self]
      omega
  · intro second known first order
    dsimp only at known ⊢
    rcases Nat.lt_succ_iff_lt_or_eq.mp known with before | rfl
    · rw [kept before, kept (by omega)]
      exact tracks.ordered second before first order
    · rw [Function.update_self]
      rcases Nat.lt_or_eq_of_le order with earlier | rfl
      · rw [kept earlier]
        have inside := tracks.homes first earlier
        omega
      · rw [Function.update_self]
  · intro other segment held
    dsimp only at held ⊢
    rw [lock] at held
    by_cases same : segment = inode
    · subst segment
      rw [Function.update_self, Option.some.injEq] at held
      subst other
      simp only [Function.update_self, true_and]
      exact ⟨Nat.lt_succ_self _, fun producer known _ => Nat.lt_succ_iff.mp known⟩
    · rw [Function.update_of_ne same] at held
      have different : other ≠ process := by
        rintro rfl
        exact others segment held
      obtain ⟨known, lives, last⟩ := tracks.owners other segment held
      rw [Function.update_of_ne different, kept known]
      refine ⟨Nat.lt_succ_of_lt known, lives, ?_⟩
      intro producer recent home
      rcases Nat.lt_succ_iff_lt_or_eq.mp recent with before | rfl
      · rw [kept before] at home
        exact last producer before home
      · rw [Function.update_self] at home
        exact absurd home.symm same
  · intro segment author written found
    obtain ⟨known, lives⟩ := tracks.authors segment author written found
    dsimp only
    rw [kept known]
    exact ⟨Nat.lt_succ_of_lt known, lives⟩
  · intro handle announced
    obtain ⟨known, recent⟩ := tracks.announced handle announced
    dsimp only
    rw [kept known]
    exact ⟨Nat.lt_succ_of_lt known, recent⟩
  · intro view member
    obtain ⟨later, known, lives⟩ := tracks.views view member
    dsimp only
    rw [kept known]
    exact ⟨later, Nat.lt_succ_of_lt known, lives⟩

theorem Topic.Tracks.build (tracks : topic.Tracks) {process : Process} {layout : Layout}
    {inode : Nat} {stage : Stage} (ok : Bool)
    (agree : LocksAgree (topic.ring.build process layout inode ok stage)) :
    { topic with ring := topic.ring.build process layout inode ok stage }.Tracks := by
  apply tracks.withRing _ agree
  · cases stage <;> simp only [State.build] <;> first | rfl | (split <;> rfl)
  · intro segment resolved
    rw [← resolved]
    cases stage <;> simp only [State.build] <;> first | rfl | (split <;> rfl)
  · intro segment other held
    cases stage with
    | resize | map =>
        simp only [State.build] at held
        split at held
        · exact held
        · exact Table.of_erase held
    | clear | count | describe | clearSlots | publish | ready => exact held
  · intro segment size layout attached
    apply tracks.newest segment size layout
    rw [← attached]
    cases stage <;> simp only [State.build] <;> first | rfl | (split <;> rfl)

theorem Topic.Tracks.processStep (tracks : topic.Tracks) (process : Process) (ok : Bool)
    (steady : topic.steady (.segment (.process process ok)) = true) :
    { topic.advance process ok with ring := topic.ring.processStep process ok }.Tracks := by
  have agree := tracks.agree.processStep process ok
  have moved (place : Place) (agree : LocksAgree (topic.ring.goto process place)) :
      { topic with ring := topic.ring.goto process place }.Tracks :=
    tracks.withRing _ agree rfl (fun _ => id) (fun _ _ => id) tracks.newest
  simp only [Topic.steady] at steady
  unfold State.processStep at agree ⊢
  unfold Topic.advance
  cases here : topic.ring.place process with
  | idle => exact tracks
  | dead => exact tracks
  | opening layout =>
      simp only [here, decide_eq_true_eq] at steady agree ⊢
      cases ok with
      | false => exact moved .idle agree
      | true =>
          cases name : topic.ring.name with
          | none =>
              simp only [name, if_true] at agree ⊢
              refine tracks.create agree rfl rfl rfl rfl ?_
              intro inode size layout attached
              have forgets := steady rfl name
              rw [Topic.remembered, attached] at forgets
              cases forgets
          | some inode =>
              simp only [name, if_true] at agree ⊢
              exact moved (.reopening layout) agree
  | reopening layout =>
      simp only [here] at agree ⊢
      cases name : topic.ring.name with
      | none =>
          simp only [name] at agree ⊢
          exact moved .idle agree
      | some inode =>
          cases ok with
          | false =>
              simp only [name] at agree ⊢
              exact moved .idle agree
          | true =>
              simp only [name] at agree ⊢
              exact moved (.opened layout inode) agree
  | opened layout inode =>
      simp only [here, decide_eq_true_eq, Option.isNone_iff_eq_none] at steady agree ⊢
      split
      · rename_i ready
        rw [if_pos ready] at agree
        refine tracks.lock (steady ready.1 ready.2) agree rfl rfl rfl rfl ?_
        intro other held
        have locks := (tracks.agree process other).mp held
        rw [here] at locks
        exact locks
      · rename_i busy
        rw [if_neg busy] at agree
        exact moved .idle agree
  | building layout inode stage =>
      simp only [here] at agree ⊢
      cases stage with
      | clearSlots => exact (tracks.clear inode).build ok agree
      | resize | map | clear | count | describe | publish | ready => exact tracks.build ok agree
  | unmapped inode =>
      simp only [here] at agree ⊢
      exact tracks.withRing _ agree rfl (fun _ => id) (fun _ _ => Table.of_erase) tracks.newest
  | unlinking =>
      simp only [here] at agree ⊢
      refine tracks.withRing _ agree rfl ?_ (fun _ _ => id) tracks.newest
      intro inode resolved
      dsimp only at resolved
      split at resolved
      · cases resolved
      · exact resolved

omit [DecidableEq Process] in
theorem Topic.Tracks.attachEnd (tracks : topic.Tracks) : topic.attachEnd.Tracks := by
  unfold Topic.attachEnd
  split
  · apply tracks.pass
    rintro handle (sent | waits | retains)
    · exact .inl sent
    · cases waits
    · rcases List.mem_append.mp retains with before | waited
      · exact .inr (.inr (.inl before))
      · exact .inr (.inl (Option.mem_toList.mp waited))
  · apply tracks.pass
    rintro handle (sent | waits | retains)
    · exact .inl sent
    · cases waits
    · exact .inr (.inr (.inl retains))
  · exact tracks

omit [DecidableEq Process] in
/-- An attach ends on the segment that it opened, which is the newest one. -/
theorem Topic.Tracks.consumerStep (tracks : topic.Tracks) (ok : Bool)
    (steady : topic.steady (.segment (.consumer () ok)) = true) :
    { topic with ring := topic.ring.read () (topic.ring.consumerStep () ok) }.Tracks := by
  apply tracks.withRing (topic.ring.read () (topic.ring.consumerStep () ok)) tracks.agree rfl
    (fun _ => id) (fun _ _ => id)
  intro inode size layout attached
  simp only [State.read, Function.update_self] at attached
  simp only [Topic.steady] at steady
  unfold State.consumerStep at attached
  cases here : topic.ring.reader () with
  | idle => simp [here] at attached
  | opening =>
      simp only [here] at attached
      split at attached <;> cases attached
  | opened segment =>
      simp only [here] at attached
      split at attached <;> cases attached
  | statted segment bytes =>
      simp only [here] at attached
      split at attached <;> cases attached
  | mapped segment bytes =>
      simp only [here] at attached
      split at attached <;> cases attached
  | checked segment bytes => simp [here] at attached
  | counted segment bytes numSlots =>
      simp only [here, decide_eq_true_eq, Reader.attached.injEq] at steady attached
      rw [← attached.1]
      exact steady
  | attached segment bytes known =>
      simp only [here] at attached
      exact tracks.newest inode size layout (here.trans attached)

theorem Topic.Tracks.step (topic : Topic Process) (action : TopicAction Process)
    (tracks : topic.Tracks) (steady : topic.steady action = true) : (topic.step action).Tracks := by
  cases action with
  | publish process => exact tracks.publish process
  | announce process => exact tracks.announce process
  | ringFor handle =>
      simp only [Topic.step]
      split
      · rename_i sent
        exact tracks.ringFor sent
      · exact tracks
  | retain handle garbled =>
      simp only [Topic.step]
      split
      · rename_i retains
        exact tracks.retain retains garbled steady
      · exact tracks
  | segment action =>
      cases action with
      | process process ok => exact tracks.processStep process ok steady
      | consumer consumer ok => exact (tracks.consumerStep ok steady).attachEnd
      | detach consumer => exact tracks
      | create process layout =>
          have agree := LocksAgree.step topic.ring (.create process layout) tracks.agree
          simp only [Topic.step, Topic.segmentStep, Segment.step] at agree ⊢
          split
          · rename_i ready
            rw [if_pos ready] at agree
            exact tracks.withRing _ agree rfl (fun _ => id) (fun _ _ => id) tracks.newest
          · exact tracks
      | destroy process =>
          have agree := LocksAgree.step topic.ring (.destroy process) tracks.agree
          simp only [Topic.step, Topic.segmentStep, Segment.step] at agree ⊢
          split
          · rename_i layout inode here
            simp only [here] at agree
            exact tracks.withRing _ agree rfl (fun _ => id) (fun _ _ => id) tracks.newest
          · exact tracks
      | die process =>
          have agree := LocksAgree.step topic.ring (.die process) tracks.agree
          refine tracks.withRing _ agree rfl (fun _ => id) ?_ tracks.newest
          intro inode other held
          simp only [Segment.step] at held
          split at held
          · cases held
          · exact held
      | attach consumer =>
          simp only [Topic.step, Topic.segmentStep, Segment.step]
          split
          · apply tracks.withRing (topic.ring.read () .opening) tracks.agree rfl (fun _ => id)
              (fun _ _ => id)
            simp [State.read]
          · exact tracks

/-- Every view is a slot of the segment of the instance that sent the handle or of a later one, and
has a frame that this instance wrote. -/
def Topic.Follows (topic : Topic Process) : Prop :=
  ∀ view ∈ topic.views, view.handle ≤ view.author ∧ topic.home view.author = view.inode

/-- In every run whose steps are steady, the consumer follows the producers of its topic. -/
theorem producer_followed (actions : List (TopicAction Process))
    (steady : Meets Topic.step (fun topic action => topic.steady action = true) Topic.initial
      actions) :
    (run Topic.step (Topic.initial : Topic Process) actions).Follows := by
  have tracks := run_invariant_of_meets Topic.Tracks.step actions _ .initial steady
  intro view member
  obtain ⟨later, -, lives⟩ := tracks.views view member
  exact ⟨later, lives⟩

/-- A process makes its calls on the ring of the topic. -/
def ringCalls (calls : List (Action Nat Unit)) : List (TopicAction Nat) := calls.map .segment

/-- A process creates the ring in the given number of calls and publishes a frame. -/
def produce (process steps : Nat) : List (TopicAction Nat) :=
  ringCalls (.create process ⟨2, 8⟩ :: List.replicate steps (.process process true)) ++
    [.publish process, .announce process]

/-- The consumer attaches on its first handle. -/
def attachFirst (handle : Nat) : List (TopicAction Nat) :=
  .ringFor handle :: ringCalls (List.replicate 6 (.consumer () true)) ++ [.retain handle none]

/-- The first producer is killed, and the consumer sees the frame of the next one. -/
def killedProducer : List (TopicAction Nat) :=
  produce 0 9 ++ attachFirst 0 ++ ringCalls [.die 0] ++ produce 1 10 ++
    [.ringFor 1, .retain 1 none]

theorem producer_followed_killed :
    (run Topic.step (Topic.initial : Topic Nat) killedProducer).views =
        [⟨0, 0, 0⟩, ⟨1, 0, 1⟩] ∧
      (run Topic.step (Topic.initial : Topic Nat) killedProducer).Follows :=
  ⟨by decide, producer_followed killedProducer (by decide)⟩

/-- The first producer destroys its ring, and the consumer sees its old frame with the handle of
the next one. -/
def destroyedProducer : List (TopicAction Nat) :=
  produce 0 9 ++ attachFirst 0 ++
    ringCalls [.destroy 0, .process 0 true, .process 0 true] ++ produce 1 9 ++
    [.ringFor 1, .retain 1 none]

theorem stale_frame_viewed :
    (run Topic.step (Topic.initial : Topic Nat) destroyedProducer).views =
        [⟨0, 0, 0⟩, ⟨1, 0, 0⟩] ∧
      ¬ (run Topic.step (Topic.initial : Topic Nat) destroyedProducer).Follows := by
  have views : (run Topic.step (Topic.initial : Topic Nat) destroyedProducer).views =
      [⟨0, 0, 0⟩, ⟨1, 0, 0⟩] := by decide
  refine ⟨views, ?_⟩
  intro follows
  exact absurd (follows ⟨1, 0, 0⟩ (by simp [views])).1 (by decide)

end Chappe.Segment
