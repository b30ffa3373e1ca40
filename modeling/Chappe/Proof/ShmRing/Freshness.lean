/-
This file proves that a consumer retains no older frame than the newest one that was published when
its call began.
-/

import Chappe.Construction.FrameFeed
import Chappe.Proof.ShmRing.HoldSafety

namespace Chappe.ShmRing
open Foundation

variable {Party : Type} {geometry : Geometry}

theorem newestIn_append (published : List (Frame geometry)) (frame : Frame geometry)
    (idx : geometry.Index) : newestIn (published ++ [frame]) idx =
      if frame.slot = idx then some (frame, published.length + 1) else newestIn published idx := by
  rw [newestIn, List.zipIdx_append, List.filter_append]
  split
  · rename_i here
    simp [here, Nat.add_comm]
  · rename_i elsewhere
    simp [elsewhere, newestIn]

/-- A frame has the number of its publish. -/
theorem newestIn_number {published : List (Frame geometry)} {idx : geometry.Index}
    {frame : Frame geometry} {number : Nat}
    (newest : newestIn published idx = some (frame, number)) :
    frame.slot = idx ∧ number ≤ published.length ∧ published[number - 1]? = some frame := by
  have member := List.mem_filter.mp (List.mem_of_getLast? newest)
  obtain ⟨listed, here⟩ := member
  obtain ⟨above, below, value⟩ := List.mem_zipIdx listed
  refine ⟨of_decide_eq_true here, by omega, ?_⟩
  rw [value]
  exact List.getElem?_eq_getElem _

/-- The slot has a frame with at least the given number. -/
def AtLeast (published : List (Frame geometry)) (idx : geometry.Index) (floor : Nat) : Prop :=
  ∃ frame number, newestIn published idx = some (frame, number) ∧ floor ≤ number

theorem AtLeast.append {published : List (Frame geometry)} {idx : geometry.Index} {floor : Nat}
    (reached : AtLeast published idx floor) (frame : Frame geometry) :
    AtLeast (published ++ [frame]) idx floor := by
  obtain ⟨older, number, newest, bound⟩ := reached
  unfold AtLeast
  rw [newestIn_append]
  split
  · have within := (newestIn_number newest).2.1
    exact ⟨frame, published.length + 1, rfl, by omega⟩
  · exact ⟨older, number, newest, bound⟩

/-- The slot that a consumer has loaded from `last_ready`. -/
def Consumer.slot : Consumer geometry → Option geometry.Index
  | .idle | .loadLast _ => none
  | .stake _ idx | .verify _ idx | .unstake _ idx | .holding idx => some idx

/-- The three things that a step can do to the published frames. -/
inductive Publishing (state next : State Party geometry) : Prop where
  | rests (published : next.published = state.published)
      (completed : completed next = completed state) (lastReady : next.lastReady = state.lastReady)
      (producer : ∀ idx, next.producer = .advertise idx → state.producer = .advertise idx)
  | stores (idx : geometry.Index) (owned : state.producer = .owned idx)
      (producer : next.producer = .advertise idx)
      (published : next.published = state.published ++ [⟨idx, state.draft⟩])
      (lastReady : next.lastReady = state.lastReady)
  | advertises (idx : geometry.Index) (advertise : state.producer = .advertise idx)
      (producer : next.producer = .idle) (published : next.published = state.published)
      (lastReady : next.lastReady = idx.val)

variable {state : State Party geometry}

/-- A step between two stores of a publish. -/
theorem Publishing.quiet {next : State Party geometry}
    (published : next.published = state.published) (lastReady : next.lastReady = state.lastReady)
    (before : ∀ idx, state.producer ≠ .advertise idx)
    (after : ∀ idx, next.producer ≠ .advertise idx) : Publishing state next := by
  refine .rests published ?_ lastReady fun idx advertise => absurd advertise (after idx)
  have whole {ring : State Party geometry} (other : ∀ idx, ring.producer ≠ .advertise idx) :
      completed ring = ring.published.length := by
    unfold completed
    split
    · rename_i idx advertise
      exact absurd advertise (other idx)
    · rfl
  rw [whole before, whole after, published]

theorem producerStep_publishing (state : State Party geometry) :
    Publishing state (producerStep state) := by
  unfold producerStep
  split
  case h_1 => exact .rests rfl rfl rfl fun _ same => same
  case h_2 published attempt phase =>
    dsimp only
    split_ifs <;> exact .quiet rfl rfl (by simp [phase]) (by simp)
  case h_3 published attempt idx phase =>
    split_ifs <;> exact .quiet rfl rfl (by simp [phase]) (by simp)
  case h_4 published attempt idx phase =>
    split_ifs <;> exact .quiet rfl rfl (by simp [phase]) (by simp)
  case h_5 published attempt idx prev phase =>
    exact .quiet rfl rfl (by simp [phase]) (by simp)
  case h_6 published attempt idx prev phase =>
    split_ifs <;> exact .quiet rfl rfl (by simp [phase]) (by simp)
  case h_7 published attempt idx prev phase =>
    exact .quiet rfl rfl (by simp [phase]) (by simp)
  case h_8 => exact .rests rfl rfl rfl fun _ same => same
  case h_9 idx phase => exact .advertises idx phase rfl rfl rfl

theorem Untouched.publishing {next : State Party geometry} (same : Untouched state next) :
    Publishing state next := by
  refine .rests same.published ?_ same.lastReady ?_
  · rw [completed, completed, same.producer, same.published]
  · intro idx advertise
    rw [same.producer] at advertise
    exact advertise

/-- The word `last_ready` names a slot whose frame is at least as new as every completed publish. -/
structure Offered (state : State Party geometry) : Prop where
  advertising : ∀ idx, state.producer = .advertise idx →
    ∃ frame, newestIn state.published idx = some (frame, state.published.length)
  offered : ∀ idx : geometry.Index, state.lastReady = idx.val →
    AtLeast state.published idx (completed state)

theorem initial_offered (payload : geometry.Index → geometry.Payload) :
    Offered (initial payload : State Party geometry) where
  advertising := by simp [initial]
  offered := by
    intro idx same
    have inside := idx.isLt
    have fits := geometry.fitsWord
    simp only [initial, shmLastNone] at same
    omega

theorem completed_of_owned {idx : geometry.Index} (owned : state.producer = .owned idx) :
    completed state = state.published.length := by
  simp only [completed, owned]

/-- The slot shows its newest frame. -/
def Shows (state : State Party geometry) (idx : geometry.Index) : Prop :=
  ∃ frame number, newestIn state.published idx = some (frame, number) ∧
    frame.bytes = state.payload idx

/-- The state of the slot that the producer works on. -/
def Producing (state : State Party geometry) : Prop :=
  match state.producer with
  | .claim _ _ idx prev => state.slotState idx = prev
  | .recheck _ _ idx prev | .rollback _ _ idx prev =>
      state.slotState idx = .writing ∧ (prev = .ready → Shows state idx)
  | .owned idx => state.slotState idx = .writing ∧ state.draft = state.payload idx
  | _ => True

/-- Every ready slot shows its newest frame, and the slot state agrees with the producer. -/
structure Intact (state : State Party geometry) : Prop where
  ready : ∀ idx, state.slotState idx = .ready → Shows state idx
  claimed : Producing state

/-- A step that stores to no slot keeps the frames when it keeps the producer's account. -/
theorem Intact.move (intact : Intact state) (producer : Producer geometry)
    (writeCursor lastReady : Nat) (draft : geometry.Payload)
    (claimed : Producing { state with
      producer := producer, writeCursor := writeCursor, lastReady := lastReady, draft := draft }) :
    Intact { state with
      producer := producer, writeCursor := writeCursor, lastReady := lastReady,
      draft := draft } :=
  ⟨intact.ready, claimed⟩

/-- A store to one slot state keeps the frames when a slot that it makes ready shows one. -/
theorem Intact.store (intact : Intact state) (idx : geometry.Index) (stored : SlotState)
    (producer : Producer geometry)
    (claimed : Producing { state with
      slotState := Function.update state.slotState idx stored, producer := producer })
    (available : stored = .ready → Shows state idx) :
    Intact { state with
      slotState := Function.update state.slotState idx stored, producer := producer } := by
  refine ⟨?_, claimed⟩
  intro slot ready
  by_cases same : slot = idx
  · subst slot
    exact available (by simpa using ready)
  · exact intact.ready slot (by simpa [Function.update_of_ne same] using ready)

theorem producerStep_intact (intact : Intact state) : Intact (producerStep state) := by
  have claimed := intact.claimed
  unfold producerStep
  split
  case h_1 | h_8 => exact intact
  case h_2 published attempt phase =>
    dsimp only
    split_ifs <;> exact intact.move _ _ _ _ True.intro
  case h_3 published attempt idx phase =>
    split_ifs <;> exact intact.move _ _ _ _ True.intro
  case h_4 published attempt idx phase =>
    split_ifs
    · exact intact.move _ _ _ _ True.intro
    · exact intact.move _ _ _ _ rfl
  case h_5 published attempt idx prev phase =>
    rw [Producing, phase] at claimed
    apply intact.store idx .writing _ _ (by simp)
    exact ⟨Function.update_self .., fun ready => intact.ready idx (claimed.trans ready)⟩
  case h_6 published attempt idx prev phase =>
    rw [Producing, phase] at claimed
    split_ifs
    · exact intact.move _ _ _ _ claimed
    · exact intact.move _ _ _ _ ⟨claimed.1, rfl⟩
  case h_7 published attempt idx prev phase =>
    rw [Producing, phase] at claimed
    exact intact.store idx prev _ True.intro claimed.2
  case h_9 idx phase => exact intact.move _ _ _ _ True.intro

theorem Intact.untouched {next : State Party geometry} (intact : Intact state)
    (same : Untouched state next) : Intact next := by
  have shows' {idx : geometry.Index} (shown : Shows state idx) : Shows next idx := by
    unfold Shows
    rw [same.published, same.payload]
    exact shown
  refine ⟨?_, ?_⟩
  · intro idx ready
    rw [same.slotState] at ready
    exact shows' (intact.ready idx ready)
  · have claimed := intact.claimed
    unfold Producing at claimed ⊢
    rw [same.producer, same.slotState, same.draft, same.payload]
    split at claimed
    · exact claimed
    · exact ⟨claimed.1, fun ready => shows' (claimed.2 ready)⟩
    · exact ⟨claimed.1, fun ready => shows' (claimed.2 ready)⟩
    · exact claimed
    · exact claimed

variable [DecidableEq Party]

theorem step_publishing (state : State Party geometry) (action : Action Party geometry) :
    Publishing state (step state action) := by
  have same : Publishing state state := .rests rfl rfl rfl fun _ same => same
  cases action with
  | acquireSlot =>
      simp only [step]
      split
      · rename_i idle
        exact .quiet rfl rfl (by simp [idle]) (by simp)
      · exact same
  | producer => exact producerStep_publishing state
  | writeByte offset value =>
      simp only [step]
      split
      · rename_i idx owned
        exact .quiet rfl rfl (by simp [owned]) (by simp [owned])
      · exact same
  | publishSlot =>
      simp only [step]
      split
      · rename_i idx owned
        exact .stores idx owned rfl rfl rfl
      · exact same
  | abandonSlot =>
      simp only [step]
      split
      · rename_i idx owned
        exact .quiet rfl rfl (by simp [owned]) (by simp)
      · exact same
  | retainLatest party => exact (retainLatest_untouched state party).publishing
  | consumer party => exact (consumerStep_untouched state party).publishing
  | releaseSlot party => exact (releaseSlot_untouched state party).publishing

/-- A consumer gets its slot from `last_ready` and keeps it until it drops it. -/
theorem step_slot (state : State Party geometry) (action : Action Party geometry) (party : Party) :
    ((step state action).consumer party).slot = (state.consumer party).slot ∨
      ((step state action).consumer party).slot = none ∨
      ∃ idx tries, action = .consumer party ∧ state.consumer party = .loadLast tries ∧
        ((step state action).consumer party).slot = some idx ∧ state.lastReady = idx.val := by
  have consuming := step_consuming state action party
  generalize (step state action).consumer party = next at consuming ⊢
  cases consuming with
  | rests => exact .inl rfl
  | loads acts tries idx phase named => exact .inr (.inr ⟨idx, tries, acts, phase, rfl, named⟩)
  | stakes acts tries idx phase | retains acts tries idx phase | rejects acts tries idx phase =>
      rw [phase]
      exact .inl rfl
  | calls | misses | retries | fails | releases => exact .inr (.inl rfl)

theorem step_offered (state : State Party geometry) (action : Action Party geometry)
    (offered : Offered state) : Offered (step state action) := by
  cases step_publishing state action with
  | rests published completed lastReady producer =>
      refine ⟨?_, ?_⟩
      · intro idx advertise
        rw [published]
        exact offered.advertising idx (producer idx advertise)
      · intro idx same
        rw [lastReady] at same
        rw [published, completed]
        exact offered.offered idx same
  | stores idx owned producer published lastReady =>
      have count : completed (step state action) = completed state := by
        rw [completed_of_owned owned, completed, producer]
        simp [published]
      refine ⟨?_, ?_⟩
      · intro slot advertise
        rw [producer] at advertise
        cases advertise
        rw [published, newestIn_append, if_pos rfl]
        exact ⟨⟨idx, state.draft⟩, by simp⟩
      · intro slot same
        rw [lastReady] at same
        rw [published, count]
        exact (offered.offered slot same).append _
  | advertises idx advertise producer published lastReady =>
      have count : completed (step state action) = state.published.length := by
        rw [completed, producer]
        exact congrArg List.length published
      refine ⟨?_, ?_⟩
      · intro slot other
        rw [producer] at other
        cases other
      · intro slot same
        rw [lastReady] at same
        obtain rfl := Fin.ext same
        obtain ⟨frame, newest⟩ := offered.advertising idx advertise
        rw [published, count]
        exact ⟨frame, _, newest, le_rfl⟩

theorem step_completed (state : State Party geometry) (action : Action Party geometry) :
    completed state ≤ completed (step state action) := by
  cases step_publishing state action with
  | rests _ completed => rw [completed]
  | stores idx owned producer published =>
      rw [completed_of_owned owned, completed, producer]
      simp [published]
  | advertises idx advertise producer published =>
      rw [completed, completed, advertise, producer]
      simp [published]

theorem step_atLeast {action : Action Party geometry} {idx : geometry.Index} {floor : Nat}
    (reached : AtLeast state.published idx floor) :
    AtLeast (step state action).published idx floor := by
  cases step_publishing state action with
  | rests published => exact published ▸ reached
  | stores _ _ _ published => exact published ▸ reached.append _
  | advertises _ _ _ published => exact published ▸ reached

/-- The publishes up to the floor are complete, and the consumer has loaded no older frame. -/
structure Reaches (floor : Nat) (party : Party) (state : State Party geometry) : Prop where
  floored : floor ≤ completed state
  loaded : ∀ idx, (state.consumer party).slot = some idx → AtLeast state.published idx floor

theorem step_reaches {floor : Nat} {party : Party} (offered : Offered state)
    (action : Action Party geometry) (reaches : Reaches floor party state) :
    Reaches floor party (step state action) := by
  refine ⟨reaches.floored.trans (step_completed state action), ?_⟩
  intro idx slot
  rcases step_slot state action party with same | none | ⟨loaded, tries, -, -, load, offer⟩
  · rw [same] at slot
    exact step_atLeast (reaches.loaded idx slot)
  · rw [none] at slot
    cases slot
  · rw [load] at slot
    cases slot
    obtain ⟨frame, number, newest, bound⟩ := offered.offered _ offer
    exact step_atLeast ⟨frame, number, newest, reaches.floored.trans bound⟩

theorem writeByte_intact (intact : Intact state) (offset : Fin geometry.slotSize) (value : UInt8) :
    Intact (step state (.writeByte offset value)) := by
  have claimed := intact.claimed
  simp only [step]
  split
  case h_1 idx phase =>
    rw [Producing, phase] at claimed
    refine ⟨?_, ?_⟩
    · intro slot ready
      have different : slot ≠ idx := by
        rintro rfl
        rw [claimed.1] at ready
        cases ready
      obtain ⟨frame, number, newest, bytes⟩ := intact.ready slot ready
      exact ⟨frame, number, newest, by simpa [Function.update_of_ne different] using bytes⟩
    · rw [Producing]
      simp only [phase]
      exact ⟨claimed.1, by rw [Function.update_self, claimed.2]⟩
  case h_2 => exact intact

theorem publishSlot_intact (intact : Intact state) : Intact (step state .publishSlot) := by
  have claimed := intact.claimed
  simp only [step]
  split
  case h_1 idx phase =>
    rw [Producing, phase] at claimed
    refine ⟨?_, True.intro⟩
    intro slot ready
    unfold Shows
    dsimp only at ready ⊢
    rw [newestIn_append]
    by_cases same : slot = idx
    · subst slot
      exact ⟨_, _, if_pos rfl, claimed.2⟩
    · rw [if_neg fun equal => same equal.symm]
      rw [Function.update_of_ne same] at ready
      exact intact.ready slot ready
  case h_2 => exact intact

theorem step_intact (state : State Party geometry) (action : Action Party geometry)
    (intact : Intact state) : Intact (step state action) := by
  cases action with
  | acquireSlot =>
      simp only [step]
      split
      · exact intact.move _ _ _ _ True.intro
      · exact intact
  | producer => exact producerStep_intact intact
  | writeByte offset value => exact writeByte_intact intact offset value
  | publishSlot => exact publishSlot_intact intact
  | abandonSlot =>
      simp only [step]
      split
      · exact intact.store _ .free .idle True.intro (by simp)
      · exact intact
  | retainLatest party => exact intact.untouched (retainLatest_untouched state party)
  | consumer party => exact intact.untouched (consumerStep_untouched state party)
  | releaseSlot party => exact intact.untouched (releaseSlot_untouched state party)

omit [DecidableEq Party] in
theorem initial_intact (payload : geometry.Index → geometry.Payload) :
    Intact (initial payload : State Party geometry) :=
  ⟨by simp [initial], True.intro⟩

/-- The frames of the ring in every run. -/
theorem run_frames (payload : geometry.Index → geometry.Payload)
    (actions : List (Action Party geometry)) :
    Offered (run step (initial payload) actions) ∧ Intact (run step (initial payload) actions) := by
  refine ⟨?_, ?_⟩
  · exact run_invariant step_offered actions _ (initial_offered payload)
  · exact run_invariant step_intact actions _ (initial_intact payload)

omit [DecidableEq Party] in
/-- A consumer between two calls has loaded nothing. -/
theorem Reaches.idle {party : Party} (idle : state.consumer party = .idle) :
    Reaches (completed state) party state := by
  refine ⟨le_rfl, ?_⟩
  intro idx slot
  rw [idle] at slot
  cases slot

theorem run_reaches {floor : Nat} {party : Party} (offered : Offered state)
    (reaches : Reaches floor party state) (actions : List (Action Party geometry)) :
    Reaches floor party (run step state actions) := by
  have keep (state : State Party geometry) (action : Action Party geometry)
      (held : Offered state ∧ Reaches floor party state) :
      Offered (step state action) ∧ Reaches floor party (step state action) :=
    ⟨step_offered state action held.1, step_reaches held.1 action held.2⟩
  exact (run_invariant keep actions state ⟨offered, reaches⟩).2

omit [DecidableEq Party] in
/-- A ready slot that the consumer has loaded shows a frame that is new enough. -/
theorem Reaches.retains {floor : Nat} {party : Party} (reaches : Reaches floor party state)
    (intact : Intact state) {idx : geometry.Index} (returns : Returns state party idx) :
    ∃ frame number, newestIn state.published idx = some (frame, number) ∧
      frame.bytes = state.payload idx ∧ floor ≤ number := by
  obtain ⟨tries, verify, ready⟩ := returns
  obtain ⟨frame, number, newest, bytes⟩ := intact.ready idx ready
  obtain ⟨other, same, again, bound⟩ := reaches.loaded idx (by rw [verify]; rfl)
  rw [newest] at again
  cases again
  exact ⟨frame, number, newest, bytes, bound⟩

/-- The handles that were sent announce completed publishes, and no handler was shown an older
frame. -/
structure Feed.Announces (feed : Feed Party geometry) : Prop where
  offered : Offered feed.ring
  intact : Intact feed.ring
  unsent : ∀ number, feed.unsent = some number → number ≤ completed feed.ring
  sent : ∀ number ∈ feed.sent, number ≤ completed feed.ring
  handling : ∀ party, Reaches (feed.handling party) party feed.ring
  shown : ∀ party, ∀ entry ∈ feed.shown party, entry.1 ≤ entry.2

variable {feed : Feed Party geometry}

/-- The ring takes a step under the feed. -/
theorem Feed.Announces.ring (announces : feed.Announces) (action : Action Party geometry) :
    { feed with ring := ShmRing.step feed.ring action }.Announces where
  offered := step_offered feed.ring action announces.offered
  intact := step_intact feed.ring action announces.intact
  unsent := fun number unsent =>
    (announces.unsent number unsent).trans (step_completed feed.ring action)
  sent := fun number sent => (announces.sent number sent).trans (step_completed feed.ring action)
  handling := fun party => step_reaches announces.offered action (announces.handling party)
  shown := announces.shown

omit [DecidableEq Party] in
theorem retains_returns {party : Party} {number : Nat}
    (retains : retains state party = some number) : ∃ idx frame, Returns state party idx ∧
      newestIn state.published idx = some (frame, number) := by
  unfold ShmRing.retains at retains
  split at retains
  · rename_i tries idx verify
    split at retains
    · rename_i ready
      obtain ⟨⟨frame, found⟩, newest, same⟩ := Option.map_eq_some_iff.mp retains
      cases same
      exact ⟨idx, frame, ⟨tries, verify, ready⟩, newest⟩
    · cases retains
  · cases retains

theorem Feed.Announces.consumer (announces : feed.Announces) (party : Party) :
    (feed.step (.ring (.consumer party))).Announces := by
  have moved := announces.ring (.consumer party)
  refine ⟨moved.offered, moved.intact, moved.unsent, moved.sent, moved.handling, ?_⟩
  intro other entry member
  dsimp only [Feed.step] at member
  by_cases mine : other = party
  · subst other
    rw [Function.update_self] at member
    rcases List.mem_append.mp member with before | now
    · exact announces.shown party entry before
    · obtain ⟨number, found, rfl⟩ := List.mem_map.mp now
      obtain ⟨idx, frame, returns, newest⟩ := retains_returns (Option.mem_toList.mp found)
      obtain ⟨_, _, again, -, bound⟩ := (announces.handling party).retains announces.intact returns
      rw [newest] at again
      cases again
      exact bound
  · rw [Function.update_of_ne mine] at member
    exact announces.shown other entry member

theorem Feed.Announces.producer (announces : feed.Announces) :
    (feed.step (.ring .producer)).Announces := by
  have moved := announces.ring .producer
  refine ⟨moved.offered, moved.intact, ?_, moved.sent, moved.handling, moved.shown⟩
  intro number unsent
  dsimp only [Feed.step] at unsent ⊢
  split at unsent
  · rename_i idx advertise
    cases unsent
    have count : completed (ShmRing.step feed.ring .producer) = feed.ring.published.length := by
      simp only [ShmRing.step, producerStep, advertise, completed]
    exact count.ge
  · exact moved.unsent number unsent

theorem Feed.Announces.handle (announces : feed.Announces) (party : Party) (announced : Nat) :
    (feed.step (.handle party announced)).Announces := by
  simp only [Feed.step]
  split
  · rename_i handled
    have moved := announces.ring (.retainLatest party)
    refine ⟨moved.offered, moved.intact, moved.unsent, moved.sent, ?_, moved.shown⟩
    intro other
    by_cases mine : other = party
    · subst other
      dsimp only
      rw [Function.update_self]
      apply step_reaches announces.offered
      refine ⟨announces.sent announced handled.1, ?_⟩
      intro idx slot
      rw [handled.2] at slot
      cases slot
    · dsimp only
      rw [Function.update_of_ne mine]
      exact moved.handling other
  · exact announces

theorem Feed.Announces.step (feed : Feed Party geometry) (action : FeedAction Party geometry)
    (announces : feed.Announces) : (feed.step action).Announces := by
  cases action with
  | ring action =>
      cases action with
      | acquireSlot =>
          simp only [Feed.step]
          split
          · exact announces.ring .acquireSlot
          · exact announces
      | producer => exact announces.producer
      | writeByte offset value => exact announces.ring (.writeByte offset value)
      | publishSlot => exact announces.ring .publishSlot
      | abandonSlot => exact announces.ring .abandonSlot
      | retainLatest party => exact announces
      | consumer party => exact announces.consumer party
      | releaseSlot party => exact announces.ring (.releaseSlot party)
  | send =>
      simp only [Feed.step]
      split
      · rename_i number unsent
        refine ⟨announces.offered, announces.intact, by simp, ?_, announces.handling,
          announces.shown⟩
        intro other member
        rcases List.mem_append.mp member with before | now
        · exact announces.sent other before
        · rw [List.mem_singleton.mp now]
          exact announces.unsent number unsent
      · exact announces
  | handle party announced => exact announces.handle party announced

omit [DecidableEq Party] in
theorem Feed.Announces.initial (payload : geometry.Index → geometry.Payload) :
    (Feed.initial payload : Feed Party geometry).Announces where
  offered := initial_offered payload
  intact := initial_intact payload
  unsent := by simp [Feed.initial]
  sent := by simp [Feed.initial]
  handling := fun party =>
    ⟨Nat.zero_le _, by simp [Feed.initial, ShmRing.initial, Consumer.slot]⟩
  shown := by simp [Feed.initial]

/-- A call of `shm_ring_retain_latest` returns no older frame than the newest one whose publish was
complete when the call began. So a handler of `subscribe_frame` never sees an older frame than the
one that its handle announces. -/
theorem retain_latest_fresh (payload : geometry.Index → geometry.Payload) :
    (∀ (before during : List (Action Party geometry)) (party : Party) (idx : geometry.Index),
      (run step (initial payload) before).consumer party = .idle →
      Returns (run step (run step (initial payload) before) during) party idx →
      ∃ frame number,
        newestIn (run step (run step (initial payload) before) during).published idx =
            some (frame, number) ∧
          frame.bytes = (run step (run step (initial payload) before) during).payload idx ∧
          completed (run step (initial payload) before) ≤ number) ∧
    ∀ (actions : List (FeedAction Party geometry)) (party : Party),
      ∀ entry ∈ (run Feed.step (.initial payload) actions).shown party, entry.1 ≤ entry.2 := by
  refine ⟨?_, ?_⟩
  · intro before during party idx idle returns
    obtain ⟨offered, -⟩ := run_frames payload before
    obtain ⟨-, intact⟩ := run_frames payload (before ++ during)
    rw [run, List.foldl_append] at intact
    exact (run_reaches offered (.idle idle) during).retains intact returns
  · intro actions party
    exact (run_invariant Feed.Announces.step actions _ (.initial payload)).shown party

/-- The consumer calls after one publish and is about to return its slot while the producer works on
the next frame. -/
def callDuringFill : List (Action Unit smallRing) :=
  [.retainLatest (), .consumer (), .acquireSlot, .producer, .consumer (), .producer]

theorem retain_latest_fresh_small :
    let before := publishAndStake.take 9
    Returns (run step (run step (initial fun _ _ => 0) before) callDuringFill) () slotOne ∧
      ∃ frame number, newestIn
        (run step (run step (initial fun _ _ => 0) before) callDuringFill).published slotOne =
          some (frame, number) ∧ 1 ≤ number := by
  have returns : Returns (run step (run step (initial fun _ _ => 0) (publishAndStake.take 9))
      callDuringFill) () slotOne := ⟨0, by decide, by decide⟩
  obtain ⟨frame, number, newest, -, bound⟩ := (retain_latest_fresh fun _ _ => 0).1
    (publishAndStake.take 9) callDuringFill () slotOne (by decide) returns
  exact ⟨returns, frame, number, newest, bound⟩

end Chappe.ShmRing
