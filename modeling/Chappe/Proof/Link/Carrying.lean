/-
This file proves what a pair of links that are in place does with the publishes of one client.
-/

import Chappe.Proof.Link.Forwarding

namespace Chappe
open Foundation

variable {Client : Type} [DecidableEq Client] {configs : Side → LinkConfig} {links : Side → Client}
  {pair : Pair Client} {side : Side} {sender client : Client}

/-- The publish that the sender makes in a step. -/
def Pair.makes (side : Side) (sender : Client) (pair : Pair Client) :
    PairAction Client → List Frame
  | .daemon place (.arrive actor frame) =>
      if place = side ∧ actor = sender ∧
          ((pair side).network.daemon.life actor).connected = true ∧ frame.isPublish = true then
        [frame]
      else []
  | _ => []

/-- The publish of the sender that its daemon begins to route in a step. -/
def Pair.begun (side : Side) (sender : Client) (pair : Pair Client) :
    PairAction Client → List Frame
  | .daemon place action =>
      if place = side then (pair side).network.daemon.begins sender action else []
  | _ => []

/-- The connection of the client stays up and its subscriptions stay the same. -/
def PairAction.Keeps (side : Side) (client : Client) : PairAction Client → Prop
  | .daemon place (.hangUp actor) => place = side → actor ≠ client
  | .daemon place (.arrive actor frame) =>
      place = side → actor = client → frame.isSubscription = false
  | _ => True

instance PairAction.Keeps.decidable (side : Side) (client : Client) :
    ∀ action : PairAction Client, Decidable (action.Keeps side client)
  | .daemon place (.hangUp actor) => inferInstanceAs (Decidable (place = side → actor ≠ client))
  | .daemon place (.arrive actor frame) =>
      inferInstanceAs (Decidable (place = side → actor = client → frame.isSubscription = false))
  | .daemon _ (.connect _) | .daemon _ (.thread _ _ _ _ _) | .daemon _ (.sweep _ _) | .start _
  | .localRead _ | .localSend _ | .peerRead _ | .peerSend _ => .isTrue True.intro

/-- What a step does to the network of a device whose link has started. -/
inductive Pair.Turn (links : Side → Client) (side : Side) (pair : Pair Client)
    (next : Network Client Unit) : PairAction Client → Prop where
  | rests {action : PairAction Client} (same : next = (pair side).network)
      (begun : ∀ sender, pair.begun side sender action = [])
      (made : ∀ sender, sender ≠ links side → pair.makes side sender action = []) :
      Turn links side pair next action
  | daemon (action : DaemonAction Client) (moved : next = (pair side).network.daemonStep action)
      (silent : ∀ actor frame, action ≠ .arrive actor frame) :
      Turn links side pair next (.daemon side action)
  | client (actor : Client) (frame : Frame) (foreign : actor ≠ links side)
      (wrote : next = (pair side).network.write actor frame) :
      Turn links side pair next (.daemon side (.arrive actor frame))
  | link (frame : Frame) (waits : frame ∈ (pair side).link.peerPending)
      (wrote : next = (pair side).network.write (links side) frame) :
      Turn links side pair next (.peerSend side)

omit [DecidableEq Client] in
/-- A device that keeps its network keeps that of each device. -/
theorem update_network (pair : Pair Client) {place : Side} {outpost : Outpost Client}
    (same : outpost.network = (pair place).network) (side : Side) :
    (Function.update pair place outpost side).network = (pair side).network := by
  by_cases here : side = place
  · subst place
    rw [Function.update_self, same]
  · rw [Function.update_of_ne here]

theorem Pair.turn (configs : Side → LinkConfig) (links : Side → Client)
    (started : (pair side).started = true) (action : PairAction Client) :
    Pair.Turn links side pair ((pair.step configs links action) side).network action := by
  cases action with
  | daemon place action =>
      by_cases here : side = place
      · subst place
        have moved (silent : ∀ actor frame, action ≠ .arrive actor frame)
            (foreign : action.isOf (links side) = false) : Pair.Turn links side pair
              ((pair.step configs links (.daemon side action)) side).network
                (.daemon side action) := by
          refine .daemon action ?_ silent
          rw [Pair.step, Function.update_self]
          unfold Outpost.daemonStep
          split
          · exact absurd rfl (silent _ _)
          · rw [foreign]
            rfl
        cases action with
        | arrive actor frame =>
            by_cases mine : actor = links side
            · refine .rests ?_ (fun _ => ?_) ?_
              · rw [Pair.step, Function.update_self, Outpost.daemonStep, if_pos mine]
              · exact if_pos rfl
              · intro sender foreign
                exact if_neg fun both => foreign (both.2.1.symm.trans mine)
            · refine .client actor frame mine ?_
              rw [Pair.step, Function.update_self, Outpost.daemonStep, if_neg mine]
        | connect actor =>
            by_cases mine : actor = links side
            · refine .rests ?_ (fun _ => if_pos rfl) fun _ _ => rfl
              rw [Pair.step, Function.update_self]
              simp only [Outpost.daemonStep, DaemonAction.isOf, mine, decide_true, if_true]
            · exact moved (by simp) (by simp [DaemonAction.isOf, mine])
        | thread actor target order now later => exact moved (by simp) rfl
        | hangUp actor => exact moved (by simp) rfl
        | sweep order read => exact moved (by simp) rfl
      · refine .rests ?_ (fun _ => if_neg (Ne.symm here)) ?_
        · rw [Pair.step, Function.update_of_ne here]
        · intro sender _
          unfold Pair.makes
          split
          · rename_i same
            cases same
            exact if_neg fun both => here both.1.symm
          · rfl
  | start place =>
      refine .rests ?_ (fun _ => rfl) fun _ _ => rfl
      rw [Pair.step]
      by_cases here : side = place
      · subst place
        rw [Function.update_self, Outpost.start, if_pos started]
      · rw [Function.update_of_ne here]
  | localRead place =>
      refine .rests (update_network pair ?_ side) (fun _ => rfl) fun _ _ => rfl
      unfold Outpost.localRead
      split
      · split <;> rfl
      · rfl
  | localSend place =>
      refine .rests (update_network pair ?_ side) (fun _ => rfl) fun _ _ => rfl
      unfold Outpost.localSend
      split <;> rfl
  | peerRead place =>
      refine .rests (update_network pair ?_ side) (fun _ => rfl) fun _ _ => rfl
      unfold Outpost.peerRead
      split
      · split <;> rfl
      · rfl
  | peerSend place =>
      by_cases here : side = place
      · subst place
        cases pending : (pair side).link.peerPending with
        | none =>
            refine .rests ?_ (fun _ => rfl) fun _ _ => rfl
            rw [Pair.step, Function.update_self]
            simp only [Outpost.peerSend, pending]
        | some frame =>
            refine .link frame pending ?_
            rw [Pair.step, Function.update_self]
            simp only [Outpost.peerSend, pending]
      · refine .rests ?_ (fun _ => rfl) fun _ _ => rfl
        rw [Pair.step, Function.update_of_ne here]

/-- The publishes of the sender go through its queue in the daemon in their order. -/
theorem Pair.Turn.waiting {next : Network Client Unit} {action : PairAction Client}
    (turn : Pair.Turn links side pair next action) (foreign : sender ≠ links side) :
    (pair side).network.waiting sender ++ pair.makes side sender action =
      pair.begun side sender action ++ next.waiting sender := by
  cases turn with
  | rests same begun made =>
      rw [same, begun, made sender foreign, List.append_nil]
      rfl
  | daemon action moved silent =>
      have makes : pair.makes side sender (.daemon side action) = [] := by
        unfold Pair.makes
        split
        · rename_i arrive
          cases arrive
          exact absurd rfl (silent _ _)
        · rfl
      rw [moved, makes, List.append_nil]
      refine (daemon_inbox _ sender (silent sender)).trans ?_
      rw [Pair.begun, if_pos rfl]
      rfl
  | client actor frame other wrote =>
      rw [wrote, write_waiting]
      simp only [Pair.makes, Pair.begun, Daemon.begins, if_true, true_and, List.nil_append]
  | link frame waits wrote =>
      rw [wrote, write_waiting, if_neg fun both => foreign both.1.symm]
      rfl

variable {accepts : Unit → Bytes → Bool} {start : Network Client Unit} {publishes : List Frame}

/-- The daemon goes on to route the publishes of the sender to a client that keeps its
subscriptions. -/
theorem Pair.Turn.follows {next : Network Client Unit} {action : PairAction Client}
    (turn : Pair.Turn links side pair next action)
    (follows : Network.Follows accepts start sender client (pair side).network publishes)
    (sound : (pair side).Sound (configs side) (links side)) (different : client ≠ sender)
    (keeps : action.Keeps side client ∨ client = links side ∧ action.KeepsLinks links) :
    Network.Follows accepts start sender client next
      (publishes ++ pair.begun side sender action) := by
  cases turn with
  | rests same begun made =>
      rw [same, begun, List.append_nil]
      exact follows
  | daemon action moved silent =>
      have stays : action ≠ .hangUp client := by
        rintro rfl
        rcases keeps with keeps | ⟨rfl, keeps⟩
        · exact keeps rfl rfl
        · exact keeps rfl
      rw [moved, Pair.begun, if_pos rfl]
      exact follows.daemonStep sound.marked different stays (silent client)
  | client actor frame foreign wrote =>
      have other : frame.isSubscription = false ∨ actor ≠ client := by
        rcases keeps with keeps | ⟨rfl, -⟩
        · by_cases same : actor = client
          · exact .inl (keeps rfl same)
          · exact .inr same
        · exact .inr foreign
      rw [wrote, Pair.begun, if_pos rfl]
      exact (List.append_nil publishes).symm ▸ follows.write sound.marked other
  | link frame waits wrote =>
      rw [wrote]
      exact (List.append_nil publishes).symm ▸
        follows.write sound.marked (.inl (sound.waits frame waits).1)

/-- A frame that the link has written and that stems from the sender is a publish. -/
theorem forwards_typed {outpost : Outpost Client} {config : LinkConfig} {me : Client}
    (follows : Network.Follows accepts start sender me outpost.network publishes)
    (forwards : outpost.Forwards config me sender (start.routed sender).length)
    {frame : Frame} {mark : Option (Client × Nat)} (member : (frame, mark) ∈ outpost.written)
    (other : frame.msg ≠ some .publish) :
    since sender (start.routed sender).length mark = none := by
  rw [Option.eq_none_iff_forall_ne_some]
  intro number marked
  have routed : (frame, number) ∈ routedBy sender (start.routed sender).length outpost.written :=
    List.mem_filterMap.mpr ⟨(frame, mark), member, by simp [marked]⟩
  have taken := List.mem_append_left (routedBy sender (start.routed sender).length
    (outpost.link.localPending.toList.map fun frame => (frame, outpost.localMark))) routed
  rw [forwards] at taken
  obtain ⟨origin, arrived, passed⟩ := List.mem_filterMap.mp (List.mem_filter.mp taken).1
  obtain ⟨found, cause, same⟩ := Option.map_eq_some_iff.mp passed
  cases same
  have foreign := follows.foreign (List.mem_of_mem_take arrived) other
  rw [cause] at foreign
  cases foreign

/-- What holds in a run from a state in which both links are in place. The run has begun to route
the given publishes of a client of one device. -/
structure Pair.Carries (configs : Side → LinkConfig) (links : Side → Client) (side : Side)
    (sender : Client) (start pair : Pair Client) (publishes : List Frame) : Prop where
  sound : pair.Sound configs links
  started : ∀ side, (pair side).started = true
  settled : (pair side.other).network.daemon.Settled (links side.other)
  follows : Network.Follows (fun _ _ => true) (start side).network sender (links side)
    (pair side).network publishes
  forwards : (pair side).Forwards (configs side) (links side) sender
    ((start side).network.routed sender).length
  passes : (pair side.other).Publishes (configs side.other) sender
    ((start side).network.routed sender).length (pair side)
  earlier : (start side.other).crossed <+: (pair side.other).crossed

variable {origin : Pair Client}

/-- A link that is in place stays so. -/
theorem Pair.Turn.settled {next : Network Client Unit} {action : PairAction Client}
    (turn : Pair.Turn links side pair next action)
    (settled : (pair side).network.daemon.Settled (links side))
    (sound : (pair side).Sound (configs side) (links side)) (keeps : action.KeepsLinks links) :
    next.daemon.Settled (links side) := by
  have written {actor : Client} {frame : Frame}
      (other : actor = links side → frame.isSubscription = false) :
      ((pair side).network.write actor frame).daemon.Settled (links side) := by
    unfold Network.write
    split
    · have stays : DaemonAction.arrive actor frame ≠ .hangUp (links side) := by simp
      refine (settled.step stays ?_).1
      rintro arrived ⟨⟩
      exact other rfl
    · exact settled
  cases turn with
  | rests same begun made => rwa [same]
  | daemon action moved silent =>
      have stays : action ≠ .hangUp (links side) := by
        rintro rfl
        exact keeps rfl
      rw [moved]
      exact (settled.step stays fun frame arrive => absurd arrive (silent _ frame)).1
  | client actor frame foreign wrote =>
      rw [wrote]
      exact written fun same => absurd same foreign
  | link frame waits wrote =>
      rw [wrote]
      exact written fun _ => (sound.waits frame waits).1

theorem Pair.Turn.wire {next : Network Client Unit} {action : PairAction Client}
    (turn : Pair.Turn links side pair next action) (client : Client) :
    (pair side).network.wire client <+: next.wire client := by
  cases turn with
  | rests same begun made => rw [same]
  | daemon action moved silent =>
      rw [moved]
      exact daemonStep_grows _ action client
  | client actor frame foreign wrote => rw [wrote, write_wire]
  | link frame waits wrote => rw [wrote, write_wire]

theorem Pair.Carries.forwards_step
    (carries : Pair.Carries configs links side sender origin pair publishes)
    (action : PairAction Client) :
    ((pair.step configs links action) side).Forwards (configs side) (links side) sender
      ((origin side).network.routed sender).length := by
  have forwards := carries.forwards
  have sound := carries.sound.device side
  have wire := (Pair.turn configs links (carries.started side) action).wire (links side)
  revert wire
  apply Pair.step_device (fun next =>
    (pair side).network.wire (links side) <+: next.network.wire (links side) →
      next.Forwards (configs side) (links side) sender
        ((origin side).network.routed sender).length)
  · exact fun _ => forwards
  · intro inner _ wire
    obtain ⟨_, same⟩ := daemonStep_loops (links side) (pair side) inner
    rw [same] at wire ⊢
    exact forwards.of_same rfl rfl rfl rfl sound.taken wire
  · intro wire
    obtain ⟨_, _, same⟩ := start_loops (configs side) (links side) (pair side)
    rw [same] at wire ⊢
    exact forwards.of_same rfl rfl rfl rfl sound.taken wire
  · exact fun _ => forwards.localRead sound.taken fun _ _ => carries.follows.foreign
  · exact fun _ => forwards.localSend
  · intro wire
    obtain ⟨_, _, _, same, pending⟩ :=
      peerRead_loops (configs side) (pair side) (pair side.other)
    rw [same] at wire ⊢
    exact forwards.of_same rfl pending rfl rfl sound.taken wire
  · intro wire
    obtain ⟨_, _, _, same, pending⟩ := peerSend_loops (links side) (pair side)
    rw [same] at wire ⊢
    exact forwards.of_same rfl pending rfl rfl sound.taken wire

/-- A frame that stems from the sender and waits to be published is a publish. -/
theorem Pair.Carries.waits_typed
    (carries : Pair.Carries configs links side sender origin pair publishes) {frame : Frame}
    (waits : frame ∈ (pair side.other).link.peerPending) (other : frame.isPublish = false) :
    since sender ((origin side).network.routed sender).length (pair side.other).peerMark =
      none := by
  rw [Option.eq_none_iff_forall_ne_some]
  intro number marked
  have held : (frame, number) ∈ routedBy sender ((origin side).network.routed sender).length
      ((pair side.other).link.peerPending.toList.map fun frame =>
        (frame, (pair side.other).peerMark)) := by
    rw [Option.mem_def.mp waits, Option.toList_some, List.map_singleton, routedBy_single, marked]
    exact List.mem_singleton.mpr rfl
  have read := List.mem_append_right (routedBy sender ((origin side).network.routed sender).length
    (pair side.other).crossed) held
  rw [carries.passes] at read
  obtain ⟨entry, arrived, passed⟩ := List.mem_filterMap.mp (List.mem_filter.mp read).1
  obtain ⟨found, cause, same⟩ := Option.map_eq_some_iff.mp passed
  cases same
  have plain : entry.1.msg ≠ some .publish := by
    intro publish
    simp [Frame.isPublish, publish] at other
  have foreign := forwards_typed carries.follows carries.forwards (List.mem_of_mem_take arrived)
    plain
  rw [cause] at foreign
  cases foreign

theorem Pair.Carries.passes_step
    (carries : Pair.Carries configs links side sender origin pair publishes)
    (action : PairAction Client) :
    ((pair.step configs links action) side.other).Publishes (configs side.other) sender
      ((origin side).network.routed sender).length ((pair.step configs links action) side) := by
  have passes := carries.passes
  have reads := carries.sound.step_reads pair action side.other
  rw [Side.other_other] at reads
  refine Outpost.Publishes.grows ?_ reads.read (step_written configs links pair action side)
  apply Pair.step_device (fun next => next.Publishes (configs side.other) sender
    ((origin side).network.routed sender).length (pair side))
  · exact passes
  · intro inner _
    obtain ⟨_, same⟩ := daemonStep_loops (links side.other) (pair side.other) inner
    rw [same]
    exact passes.of_same rfl rfl rfl rfl
  · obtain ⟨_, _, same⟩ :=
      start_loops (configs side.other) (links side.other) (pair side.other)
    rw [same]
    exact passes.of_same rfl rfl rfl rfl
  · obtain ⟨_, _, _, same, pending⟩ :=
      localRead_loops (configs side.other) (links side.other) (pair side.other)
    rw [same]
    exact passes.of_same rfl pending rfl rfl
  · unfold Outpost.localSend
    split
    · exact passes.of_same rfl (localSend_kept _).1 rfl rfl
    · exact passes
  · rw [Side.other_other]
    obtain ⟨rest, opened⟩ := (carries.sound.device side).opened
    exact passes.peerRead (carries.sound.device side.other).vetted ⟨_, rest, opened⟩
      fun _ _ => forwards_typed carries.follows carries.forwards
  · exact passes.peerSend carries.settled.stays.1 fun _ => carries.waits_typed

theorem step_crossed (configs : Side → LinkConfig) (links : Side → Client) (pair : Pair Client)
    (action : PairAction Client) (side : Side) :
    (pair side).crossed <+: ((pair.step configs links action) side).crossed := by
  apply Pair.step_device (fun next => (pair side).crossed <+: next.crossed)
  · exact List.prefix_refl _
  · intro inner _
    obtain ⟨_, same⟩ := daemonStep_loops (links side) (pair side) inner
    exact same ▸ List.prefix_refl _
  · obtain ⟨_, _, same⟩ := start_loops (configs side) (links side) (pair side)
    exact same ▸ List.prefix_refl _
  · obtain ⟨_, _, _, same, -⟩ := localRead_loops (configs side) (links side) (pair side)
    exact same ▸ List.prefix_refl _
  · unfold Outpost.localSend
    split <;> exact List.prefix_refl _
  · obtain ⟨_, _, _, same, -⟩ := peerRead_loops (configs side) (pair side) (pair side.other)
    exact same ▸ List.prefix_refl _
  · unfold Outpost.peerSend
    split
    · dsimp only
      split
      · exact List.prefix_append _ _
      · exact List.prefix_refl _
    · exact List.prefix_refl _

theorem step_started (configs : Side → LinkConfig) (links : Side → Client) (pair : Pair Client)
    (action : PairAction Client) (side : Side) (started : (pair side).started = true) :
    ((pair.step configs links action) side).started = true := by
  apply Pair.step_device (fun next => next.started = true)
  · exact started
  · intro inner _
    obtain ⟨_, same⟩ := daemonStep_loops (links side) (pair side) inner
    rwa [same]
  · rw [Outpost.start, if_pos started]
    exact started
  · obtain ⟨_, _, _, same, -⟩ := localRead_loops (configs side) (links side) (pair side)
    rwa [same]
  · unfold Outpost.localSend
    split <;> exact started
  · obtain ⟨_, _, _, same, -⟩ := peerRead_loops (configs side) (pair side) (pair side.other)
    rwa [same]
  · obtain ⟨_, _, _, same, -⟩ := peerSend_loops (links side) (pair side)
    rwa [same]

theorem Pair.Carries.step
    (carries : Pair.Carries configs links side sender origin pair publishes)
    (foreign : sender ≠ links side) (action : PairAction Client)
    (keeps : action.KeepsLinks links) :
    Pair.Carries configs links side sender origin (pair.step configs links action)
      (publishes ++ pair.begun side sender action) where
  sound := carries.sound.step pair action keeps
  started := fun place => step_started configs links pair action place (carries.started place)
  settled := (Pair.turn configs links (carries.started side.other) action).settled
    carries.settled (carries.sound.device side.other) keeps
  follows := (Pair.turn configs links (carries.started side) action).follows carries.follows
    (carries.sound.device side) (Ne.symm foreign) (.inr ⟨rfl, keeps⟩)
  forwards := carries.forwards_step action
  passes := carries.passes_step action
  earlier := carries.earlier.trans (step_crossed configs links pair action side.other)

/-- The marks at the start of a run belong to publishes that were routed before. -/
theorem Pair.Sound.early (sound : pair.Sound configs links) {mark : Option (Client × Nat)}
    (member : mark ∈ none :: ((pair side).network.wire (links side)).map Prod.snd) :
    since sender ((pair side).network.routed sender).length mark = none := by
  rcases List.mem_cons.mp member with rfl | routed
  · rfl
  · obtain ⟨entry, arrived, rfl⟩ := List.mem_map.mp routed
    unfold since
    split
    · rename_i actor number cause
      obtain ⟨-, bound⟩ :=
        (sound.device side).marked.number (links side) entry arrived actor number cause
      rw [if_neg]
      rintro ⟨rfl, later⟩
      omega
    · rfl

theorem routedBy_early {base : Nat}
    {entries : List (Frame × Option (Client × Nat))}
    (early : ∀ entry ∈ entries, since sender base entry.2 = none) :
    routedBy sender base entries = [] := by
  rw [routedBy, List.filterMap_eq_nil_iff]
  intro entry member
  rw [early entry member]
  rfl

/-- No frame that has crossed at the start stems from a later publish. -/
theorem Pair.Sound.crossed_early (sound : pair.Sound configs links)
    {entry : Frame × Option (Client × Nat)} (member : entry ∈ (pair side.other).crossed) :
    since sender ((pair side).network.routed sender).length entry.2 = none := by
  have reads := (sound.reads side.other).marks
  rw [Side.other_other] at reads
  apply sound.early
  rcases List.mem_cons.mp (reads entry.2
    (List.mem_cons_of_mem _ (List.mem_map.mpr ⟨entry, member, rfl⟩))) with none | written
  · rw [none]
    exact List.mem_cons_self
  · exact (sound.device side).marks entry.2 (List.mem_cons_of_mem _ written)

omit [DecidableEq Client] in
theorem network_settled {network : Network Client Unit}
    (nodes : network.node = (.initial : Network Client Unit).node)
    (settled : network.daemon.Settled client) : network.Settled client where
  daemon := settled
  unsent := by simp [nodes, Network.initial]
  topics := by
    rw [nodes]
    exact fun topic member => absurd member Finmap.notMem_empty
  patterns := by
    rw [nodes]
    exact fun pattern member => absurd member Finmap.notMem_empty

/-- The run starts when both links are in place. -/
theorem Pair.Carries.refl (sound : origin.Sound configs links)
    (started : ∀ side, (origin side).started = true)
    (settled : ∀ side, (origin side).network.daemon.Settled (links side)) (side : Side)
    (sender : Client) : Pair.Carries configs links side sender origin origin [] where
  sound := sound
  started := started
  settled := settled side.other
  follows := .refl _ (sound.device side).marked
    (network_settled (sound.device side).nodes (settled side)) sender
  forwards := by
    have marks := (sound.device side).marks
    unfold Outpost.Forwards
    rw [routedBy_early, routedBy_early, routedBy_early]
    · rfl
    · intro entry member
      exact sound.early (List.mem_cons_of_mem _
        (List.mem_map.mpr ⟨entry, List.mem_of_mem_take member, rfl⟩))
    · intro entry member
      obtain ⟨frame, -, rfl⟩ := List.mem_map.mp member
      exact sound.early (marks _ List.mem_cons_self)
    · intro entry member
      exact sound.early (marks entry.2
        (List.mem_cons_of_mem _ (List.mem_map.mpr ⟨entry, member, rfl⟩)))
  passes := by
    have marks := (sound.device side).marks
    have reads := (sound.reads side.other).marks
    rw [Side.other_other] at reads
    unfold Outpost.Publishes
    rw [routedBy_early fun _ => sound.crossed_early, routedBy_early, routedBy_early]
    · rfl
    · intro entry member
      exact sound.early (marks entry.2 (List.mem_cons_of_mem _
        (List.mem_map.mpr ⟨entry, List.mem_of_mem_take member, rfl⟩)))
    · intro entry member
      obtain ⟨frame, -, rfl⟩ := List.mem_map.mp member
      apply sound.early
      rcases List.mem_cons.mp (reads _ List.mem_cons_self) with none | written
      · rw [none]
        exact List.mem_cons_self
      · exact marks _ (List.mem_cons_of_mem _ written)
  earlier := List.prefix_refl _

/-- A run in which the links stay connected carries the publishes that its daemon takes. -/
theorem Pair.Carries.reach (foreign : sender ≠ links side) {actions : List (PairAction Client)}
    (keeps : ∀ action ∈ actions, action.KeepsLinks links)
    (carries : Pair.Carries configs links side sender origin pair publishes) :
    Pair.Carries configs links side sender origin (run (Pair.step configs links) pair actions)
      (publishes ++ collect (Pair.step configs links) (Pair.begun side sender) pair actions) := by
  induction actions generalizing pair publishes with
  | nil =>
      rw [collect, List.append_nil]
      exact carries
  | cons action rest ih =>
      have next := carries.step foreign action (keeps action List.mem_cons_self)
      rw [collect, ← List.append_assoc]
      exact ih (fun later member => keeps later (List.mem_cons_of_mem _ member)) next

/-- The publishes that the sender makes in a run are taken by the daemon in their order. -/
theorem Pair.Carries.publishes_run (foreign : sender ≠ links side)
    {actions : List (PairAction Client)} (keeps : ∀ action ∈ actions, action.KeepsLinks links)
    (carries : Pair.Carries configs links side sender origin pair publishes) :
    (pair side).network.waiting sender ++
        collect (Pair.step configs links) (Pair.makes side sender) pair actions =
      collect (Pair.step configs links) (Pair.begun side sender) pair actions ++
        ((run (Pair.step configs links) pair actions) side).network.waiting sender := by
  have keep (pair : Pair Client) (action : PairAction Client)
      (held : ∃ publishes, Pair.Carries configs links side sender origin pair publishes)
      (kept : action.KeepsLinks links) :
      (∃ publishes, Pair.Carries configs links side sender origin
        (pair.step configs links action) publishes) ∧
      (pair side).network.waiting sender ++ pair.makes side sender action =
        pair.begun side sender action ++
          ((pair.step configs links action) side).network.waiting sender := by
    obtain ⟨publishes, carries⟩ := held
    exact ⟨⟨_, carries.step foreign action kept⟩,
      (Pair.turn configs links (carries.started side) action).waiting foreign⟩
  exact collect_queue keep actions pair ⟨publishes, carries⟩ (Meets.of_admitted keeps)

end Chappe
