/-
This file proves that two neighbours of a mesh run as a pair of devices whose other clients include
the links to the other neighbours.
-/

import Chappe.Construction.Mesh
import Chappe.Proof.Link.Crossing

namespace Chappe
open Foundation

variable {Device User : Type}

/-- The links stay connected to their daemons. -/
def MeshAction.KeepsLinks : MeshAction Device User → Prop
  | .daemon _ (.hangUp client) => client.isRight = true
  | _ => True

/-- The connection of the user of a device stays up and its subscriptions stay the same. -/
def MeshAction.Keeps (device : Device) (user : User) : MeshAction Device User → Prop
  | .daemon place (.hangUp client) => place = device → client ≠ .inr user
  | .daemon place (.arrive client frame) =>
      place = device → client = .inr user → frame.isSubscription = false
  | _ => True

instance MeshAction.KeepsLinks.decidable :
    ∀ action : MeshAction Device User, Decidable action.KeepsLinks
  | .daemon _ (.hangUp client) => inferInstanceAs (Decidable (client.isRight = true))
  | .daemon _ (.connect _) | .daemon _ (.arrive _ _) | .daemon _ (.thread _ _ _ _ _)
  | .daemon _ (.sweep _ _) | .start _ _ | .localRead _ _ | .localSend _ _ | .peerRead _ _
  | .peerSend _ _ => .isTrue True.intro

instance MeshAction.Keeps.decidable [DecidableEq Device] [DecidableEq User] (device : Device)
    (user : User) : ∀ action : MeshAction Device User, Decidable (action.Keeps device user)
  | .daemon place (.hangUp client) =>
      inferInstanceAs (Decidable (place = device → client ≠ .inr user))
  | .daemon place (.arrive client frame) =>
      inferInstanceAs (Decidable (place = device → client = .inr user →
        frame.isSubscription = false))
  | .daemon _ (.connect _) | .daemon _ (.thread _ _ _ _ _) | .daemon _ (.sweep _ _)
  | .start _ _ | .localRead _ _ | .localSend _ _ | .peerRead _ _ | .peerSend _ _ =>
      .isTrue True.intro

/-- The two devices as the sides of a pair. -/
def between (near far : Device) : Side → Device
  | .a => near
  | .b => far

/-- The client that a link of the pair is on its daemon. -/
def linkClients (ends : Side → Device) (side : Side) : MeshClient Device User :=
  .inl (ends side.other)

def linkConfigs (config : Device → Device → LinkConfig) (ends : Side → Device) (side : Side) :
    LinkConfig := config (ends side) (ends side.other)

/-- Two devices of a mesh with the links between them. -/
def Mesh.pair (mesh : Mesh Device User) (ends : Side → Device) : Pair (MeshClient Device User) :=
  fun side => mesh.outpost (ends side) (ends side.other)

theorem between_apart {near far : Device} (apart : near ≠ far) (side : Side) :
    between near far side ≠ between near far side.other := by
  cases side with
  | a => exact apart
  | b => exact apart.symm

variable [DecidableEq Device] [DecidableEq User] {mesh next : Mesh Device User}
  {ends : Side → Device} {side : Side}

omit [DecidableEq User] in
/-- A step at the daemon of one end leaves the links and the other end. -/
theorem pair_network (apart : ∀ side, ends side ≠ ends side.other)
    {network : Network (MeshClient Device User) Unit}
    (moved : next.network = Function.update mesh.network (ends side) network)
    (gates : ∀ side, next.gate (ends side) (ends side.other) =
      mesh.gate (ends side) (ends side.other)) :
    next.pair ends =
      Function.update (mesh.pair ends) side { mesh.pair ends side with network := network } := by
  funext other
  rcases Side.eq_or_other side other with rfl | rfl
  · rw [Function.update_self, Mesh.pair, Mesh.outpost, gates, moved, Function.update_self]
    rfl
  · rw [Function.update_of_ne (by cases side <;> nofun), Mesh.pair, Mesh.outpost, gates, moved,
      Function.update_of_ne (apart side).symm]
    rfl

omit [DecidableEq User] in
/-- A step elsewhere leaves both ends. -/
theorem pair_elsewhere {device : Device} (away : ∀ side, ends side ≠ device)
    {network : Network (MeshClient Device User) Unit}
    (moved : next.network = Function.update mesh.network device network)
    (gates : ∀ side, next.gate (ends side) (ends side.other) =
      mesh.gate (ends side) (ends side.other)) : next.pair ends = mesh.pair ends := by
  funext other
  rw [Mesh.pair, Mesh.outpost, gates, moved, Function.update_of_ne (away other)]
  rfl

omit [DecidableEq User] in
/-- The link of one end takes a step with its daemon. -/
theorem pair_put (apart : ∀ side, ends side ≠ ends side.other) (mesh : Mesh Device User)
    (side : Side) (outpost : Outpost (MeshClient Device User)) :
    (mesh.put (ends side) (ends side.other) outpost).pair ends =
      Function.update (mesh.pair ends) side outpost := by
  funext other
  rcases Side.eq_or_other side other with rfl | rfl
  · rw [Function.update_self, Mesh.pair, Mesh.outpost, Mesh.put]
    dsimp only
    rw [Function.update_self, Function.update_self, Function.update_self]
    rfl
  · rw [Function.update_of_ne (by cases side <;> nofun), Mesh.pair, Mesh.outpost, Mesh.put]
    dsimp only
    rw [Function.update_of_ne (apart side).symm, Function.update_of_ne (apart side).symm]
    rfl

omit [DecidableEq User] in
/-- The link of one end to a third device takes a step with its daemon. -/
theorem put_gates {near far : Device} (mesh : Mesh Device User)
    (outpost : Outpost (MeshClient Device User))
    (third : ∀ side, near = ends side → far ≠ ends side.other) (side : Side) :
    (mesh.put near far outpost).gate (ends side) (ends side.other) =
      mesh.gate (ends side) (ends side.other) := by
  rw [Mesh.put]
  dsimp only
  by_cases here : ends side = near
  · rw [← here, Function.update_self, Function.update_of_ne (third side here.symm).symm]
  · rw [Function.update_of_ne here]

/-- The pair makes the steps of other clients at the daemon of one end. -/
theorem run_daemon {configs : Side → LinkConfig} {links : Side → MeshClient Device User}
    {actions : List (DaemonAction (MeshClient Device User))}
    (pair : Pair (MeshClient Device User)) (side : Side)
    (foreign : ∀ action ∈ actions, action.isOf (links side) = false) :
    run (Pair.step configs links) pair (actions.map (.daemon side)) =
      Function.update pair side
        { pair side with network := actions.foldl Network.serve (pair side).network } := by
  induction actions generalizing pair with
  | nil => exact (Function.update_eq_self side pair).symm
  | cons action rest ih =>
      have first : pair.step configs links (.daemon side action) = Function.update pair side
          { pair side with network := (pair side).network.serve action } := by
        have apart := foreign action List.mem_cons_self
        rw [Pair.step]
        congr 1
        unfold Outpost.daemonStep
        cases action with
        | arrive client frame =>
            rw [DaemonAction.isOf, decide_eq_false_iff_not] at apart
            exact if_neg apart
        | connect client =>
            simp only [apart, Bool.false_eq_true, if_false]
            rfl
        | thread client target order now later =>
            simp only [apart, Bool.false_eq_true, if_false]
            rfl
        | hangUp client =>
            simp only [apart, Bool.false_eq_true, if_false]
            rfl
        | sweep order read =>
            simp only [apart, Bool.false_eq_true, if_false]
            rfl
      rw [List.map_cons, run, List.foldl_cons, first]
      refine (ih _ fun later member => foreign later (List.mem_cons_of_mem _ member)).trans ?_
      rw [Function.update_idem, Function.update_self]
      rfl

/-- The publish that a user of the device makes in a step. -/
def Mesh.makes (device : Device) (user : User) (mesh : Mesh Device User) :
    MeshAction Device User → List Frame
  | .daemon place (.arrive client frame) =>
      if place = device ∧ client = .inr user ∧
          ((mesh.network device).daemon.life client).connected = true ∧
            frame.isPublish = true then
        [frame]
      else []
  | _ => []

/-- What two ends of a mesh do in a step of it. -/
structure Mesh.Mirrors (config : Device → Device → LinkConfig) (ends : Side → Device)
    (mesh next : Mesh Device User) (action : MeshAction Device User)
    (actions : List (PairAction (MeshClient Device User))) : Prop where
  pair : next.pair ends =
    run (Pair.step (linkConfigs config ends) (linkClients ends)) (mesh.pair ends) actions
  links : action.KeepsLinks → ∀ member ∈ actions, member.KeepsLinks (linkClients ends)
  users : ∀ side user, action.Keeps (ends side) user → ∀ member ∈ actions,
    member.Keeps side (.inr user)
  makes : ∀ side user, collect (Pair.step (linkConfigs config ends) (linkClients ends))
      (Pair.makes side (.inr user)) (mesh.pair ends) actions =
    mesh.makes (ends side) user action

/-- The link to a third device connects or writes to its daemon. -/
def DaemonAction.isOfLink (far : Device) : DaemonAction (MeshClient Device User) → Bool
  | .connect client | .arrive client _ => client = .inl far
  | .thread _ _ _ _ _ | .hangUp _ | .sweep _ _ => false

variable {config : Device → Device → LinkConfig} {action : MeshAction Device User}

theorem isOfLink_cases {far : Device} {action : DaemonAction (MeshClient Device User)}
    (mine : action.isOfLink far = true) :
    action = .connect (.inl far) ∨ ∃ frame, action = .arrive (.inl far) frame := by
  cases action with
  | connect client =>
      rw [DaemonAction.isOfLink, decide_eq_true_eq] at mine
      exact .inl (by rw [mine])
  | arrive client frame =>
      rw [DaemonAction.isOfLink, decide_eq_true_eq] at mine
      exact .inr ⟨frame, by rw [mine]⟩
  | thread client target order now later => cases mine
  | hangUp client => cases mine
  | sweep order read => cases mine

theorem Mesh.Mirrors.rest (same : next.pair ends = mesh.pair ends)
    (unmade : ∀ side user, mesh.makes (ends side) user action = []) :
    mesh.Mirrors config ends next action [] where
  pair := same
  links := fun _ _ member => absurd member List.not_mem_nil
  users := fun _ _ _ _ member => absurd member List.not_mem_nil
  makes := fun side user => (unmade side user).symm

/-- The link of one end to a third device is a client like others for the pair. -/
theorem Mesh.Mirrors.third {far : Device} (different : far ≠ ends side.other)
    {actions : List (DaemonAction (MeshClient Device User))}
    (theirs : ∀ action ∈ actions, action.isOfLink far = true)
    (unmade : ∀ side user, mesh.makes (ends side) user action = [])
    (pair : next.pair ends = Function.update (mesh.pair ends) side
      { mesh.pair ends side with
        network := actions.foldl Network.serve (mesh.network (ends side)) }) :
    mesh.Mirrors config ends next action (actions.map (.daemon side)) where
  pair := by
    refine pair.trans (run_daemon (mesh.pair ends) side ?_).symm
    intro action member
    have apart : (.inl far : MeshClient Device User) ≠ linkClients ends side :=
      fun same => different (Sum.inl.inj same)
    rcases isOfLink_cases (theirs action member) with rfl | ⟨frame, rfl⟩
    · exact decide_eq_false apart
    · exact decide_eq_false apart
  links := by
    intro _ step member
    obtain ⟨action, there, rfl⟩ := List.mem_map.mp member
    rcases isOfLink_cases (theirs action there) with rfl | ⟨frame, rfl⟩
    · exact True.intro
    · exact True.intro
  users := by
    intro other user _ step member
    obtain ⟨action, there, rfl⟩ := List.mem_map.mp member
    rcases isOfLink_cases (theirs action there) with rfl | ⟨frame, rfl⟩
    · exact True.intro
    · exact fun _ same => nomatch same
  makes := by
    intro other user
    rw [unmade]
    apply collect_nothing
    intro step member pair
    obtain ⟨action, there, rfl⟩ := List.mem_map.mp member
    rcases isOfLink_cases (theirs action there) with rfl | ⟨frame, rfl⟩
    · rfl
    · exact if_neg fun made => nomatch made.2.1

/-- A link that is not between the ends moves. The daemon that it serves takes the given steps of
the link. -/
theorem Mesh.Mirrors.beside (apart : ∀ side, ends side ≠ ends side.other) {near far : Device}
    (third : ∀ side, near = ends side → far ≠ ends side.other)
    {actions : List (DaemonAction (MeshClient Device User))}
    (theirs : ∀ action ∈ actions, action.isOfLink far = true)
    (unmade : ∀ side user, mesh.makes (ends side) user action = [])
    {outpost : Outpost (MeshClient Device User)}
    (network : outpost.network = actions.foldl Network.serve (mesh.network near)) :
    ∃ actions, mesh.Mirrors config ends (mesh.put near far outpost) action actions := by
  by_cases here : ∃ side, near = ends side
  · obtain ⟨side, rfl⟩ := here
    refine ⟨_, .third (third side rfl) theirs unmade ?_⟩
    rw [← network]
    exact pair_network apart rfl (put_gates mesh outpost third)
  · have away (side : Side) : ends side ≠ near := fun same => here ⟨side, same.symm⟩
    exact ⟨[], .rest (pair_elsewhere away rfl (put_gates mesh outpost third)) unmade⟩

/-- A link takes the step. -/
def PairAction.isLoop {Client : Type} : PairAction Client → Bool
  | .daemon _ _ => false
  | .start _ | .localRead _ | .localSend _ | .peerRead _ | .peerSend _ => true

/-- A step of a link concerns no other client. -/
theorem isLoop_quiet {Client : Type} [DecidableEq Client] {step : PairAction Client}
    (loop : step.isLoop = true) (links : Side → Client) :
    step.KeepsLinks links ∧ ∀ side client,
      step.Keeps side client ∧ ∀ pair, Pair.makes side client pair step = [] := by
  cases step with
  | daemon side action => cases loop
  | start side => exact ⟨True.intro, fun _ _ => ⟨True.intro, fun _ => rfl⟩⟩
  | localRead side => exact ⟨True.intro, fun _ _ => ⟨True.intro, fun _ => rfl⟩⟩
  | localSend side => exact ⟨True.intro, fun _ _ => ⟨True.intro, fun _ => rfl⟩⟩
  | peerRead side => exact ⟨True.intro, fun _ _ => ⟨True.intro, fun _ => rfl⟩⟩
  | peerSend side => exact ⟨True.intro, fun _ _ => ⟨True.intro, fun _ => rfl⟩⟩

/-- The link of one end to the other takes a step of the pair. -/
theorem Mesh.Mirrors.own (apart : ∀ side, ends side ≠ ends side.other)
    {outpost : Outpost (MeshClient Device User)} (step : PairAction (MeshClient Device User))
    (loop : step.isLoop = true)
    (moved : (mesh.pair ends).step (linkConfigs config ends) (linkClients ends) step =
      Function.update (mesh.pair ends) side outpost)
    (unmade : ∀ side user, mesh.makes (ends side) user action = []) :
    mesh.Mirrors config ends (mesh.put (ends side) (ends side.other) outpost) action [step] where
  pair := (pair_put apart mesh side outpost).trans moved.symm
  links := by
    intro _ _ there
    exact List.mem_singleton.mp there ▸ (isLoop_quiet loop _).1
  users := by
    intro side user _ _ there
    exact List.mem_singleton.mp there ▸ ((isLoop_quiet loop (linkClients ends)).2 side _).1
  makes := by
    intro side user
    rw [collect, ((isLoop_quiet loop (linkClients ends)).2 side _).2, unmade]
    rfl

/-- The daemon of one end takes a step with one of its users. -/
theorem Mesh.Mirrors.daemon (apart : ∀ side, ends side ≠ ends side.other)
    {step : DaemonAction (MeshClient Device User)} (foreign : step.isLink = false) :
    mesh.Mirrors config ends (mesh.serve (ends side) step) (.daemon (ends side) step)
      [.daemon side step] where
  pair := by
    have user (client : MeshClient Device User) (right : client.isLeft = false) :
        client ≠ linkClients ends side := by
      rintro rfl
      cases right
    have stranger : ∀ action ∈ [step], action.isOf (linkClients ends side) = false := by
      intro action member
      rw [List.mem_singleton.mp member]
      cases step with
      | connect client => exact decide_eq_false (user client foreign)
      | arrive client frame => exact decide_eq_false (user client foreign)
      | thread client target order now later => rfl
      | hangUp client => rfl
      | sweep order read => rfl
    have moved : (mesh.serve (ends side) step).network =
        Function.update mesh.network (ends side) ((mesh.network (ends side)).serve step) := rfl
    exact (pair_network apart moved fun _ => rfl).trans (run_daemon _ side stranger).symm
  links := by
    intro kept action member
    rw [List.mem_singleton.mp member]
    cases step with
    | hangUp client =>
        cases client with
        | inl far => cases kept
        | inr user => exact Sum.inr_ne_inl
    | connect client => exact True.intro
    | arrive client frame => exact True.intro
    | thread client target order now later => exact True.intro
    | sweep order read => exact True.intro
  users := by
    intro other user kept action member
    rw [List.mem_singleton.mp member]
    cases step with
    | hangUp client => exact fun same => kept (congrArg ends same)
    | arrive client frame => exact fun same => kept (congrArg ends same)
    | connect client => exact True.intro
    | thread client target order now later => exact True.intro
    | sweep order read => exact True.intro
  makes := by
    intro other user
    rw [collect, collect, List.append_nil]
    cases step with
    | arrive client frame =>
        rcases Side.eq_or_other side other with rfl | rfl
        · simp only [Pair.makes, Mesh.makes, true_and]
          rfl
        · have away : side ≠ side.other := fun same => apart side (congrArg ends same)
          simp only [Pair.makes, Mesh.makes, away, apart side, false_and, if_false]
    | hangUp client => rfl
    | connect client => rfl
    | thread client target order now later => rfl
    | sweep order read => rfl

variable {graph : SimpleGraph Device} [DecidableRel graph.Adj]

/-- A link takes a step with its daemon. -/
theorem Mesh.Mirrors.move (apart : ∀ side, ends side ≠ ends side.other) {near far : Device}
    {outpost : Outpost (MeshClient Device User)}
    {steps : List (DaemonAction (MeshClient Device User))}
    (network : outpost.network = steps.foldl Network.serve (mesh.network near))
    (theirs : ∀ step ∈ steps, step.isOfLink far = true)
    (unmade : ∀ side user, mesh.makes (ends side) user action = [])
    (own : ∀ side, near = ends side → far = ends side.other → ∃ actions,
      mesh.Mirrors config ends (mesh.put near far outpost) action actions) :
    ∃ actions, mesh.Mirrors config ends (mesh.move graph near far outpost) action actions := by
  unfold Mesh.move
  split
  · by_cases between : ∃ side, near = ends side ∧ far = ends side.other
    · obtain ⟨side, here, there⟩ := between
      exact own side here there
    · exact Mesh.Mirrors.beside apart (fun side here there => between ⟨side, here, there⟩)
        theirs unmade network
  · exact ⟨[], .rest rfl unmade⟩

theorem linkWrites_ofLink {frames : List Frame} {far : Device}
    {step : DaemonAction (MeshClient Device User)}
    (member : step ∈ frames.map (.arrive (.inl far))) : step.isOfLink far = true := by
  obtain ⟨frame, -, rfl⟩ := List.mem_map.mp member
  exact decide_eq_true rfl

/-- Two ends take the steps of a pair in each step of the mesh. -/
theorem mirrors_step (graph : SimpleGraph Device) [DecidableRel graph.Adj]
    (config : Device → Device → LinkConfig) (apart : ∀ side, ends side ≠ ends side.other)
    (mesh : Mesh Device User) (action : MeshAction Device User) :
    ∃ actions, mesh.Mirrors config ends (mesh.step graph config action) action actions := by
  have nothing (far : Device) :
      ∀ step ∈ ([] : List (DaemonAction (MeshClient Device User))), step.isOfLink far = true :=
    fun _ member => absurd member List.not_mem_nil
  cases action with
  | daemon device action =>
      rw [Mesh.step]
      split
      · rename_i own
        refine ⟨[], .rest rfl ?_⟩
        intro side user
        cases action with
        | arrive client frame =>
            rw [Mesh.makes, if_neg]
            rintro ⟨-, rfl, -⟩
            cases own
        | connect client => rfl
        | hangUp client => rfl
        | thread client target order now later => rfl
        | sweep order read => rfl
      · rename_i foreign
        by_cases here : ∃ side, device = ends side
        · obtain ⟨side, rfl⟩ := here
          exact ⟨_, .daemon apart (Bool.eq_false_of_not_eq_true foreign)⟩
        · have away (side : Side) : ends side ≠ device := fun same => here ⟨side, same.symm⟩
          have moved : (mesh.serve device action).network =
              Function.update mesh.network device ((mesh.network device).serve action) := rfl
          refine ⟨[], .rest (pair_elsewhere away moved fun _ => rfl) ?_⟩
          intro side user
          cases action with
          | arrive client frame => exact if_neg fun made => away side made.1.symm
          | connect client => rfl
          | hangUp client => rfl
          | thread client target order now later => rfl
          | sweep order read => rfl
  | start near far =>
      by_cases started : (mesh.gate near far).started = true
      · have same : (mesh.outpost near far).start (config near far) (.inl far) =
            mesh.outpost near far := if_pos started
        refine Mesh.Mirrors.move apart (by rw [same]; rfl) (nothing far) (fun _ _ => rfl) ?_
        rintro side rfl rfl
        exact ⟨_, .own apart (.start side) rfl rfl fun _ _ => rfl⟩
      · have moved : ((mesh.outpost near far).start (config near far) (.inl far)).network =
            (DaemonAction.connect (.inl far) ::
              (config near far).startup.map (.arrive (.inl far))).foldl Network.serve
                (mesh.network near) := by
          have fresh : ¬ (mesh.outpost near far).started = true := started
          rw [Outpost.start, if_neg fresh, List.foldl_cons, List.foldl_map]
          rfl
        refine Mesh.Mirrors.move apart moved ?_ (fun _ _ => rfl) ?_
        · intro step member
          rcases List.mem_cons.mp member with rfl | wrote
          · exact decide_eq_true rfl
          · exact linkWrites_ofLink wrote
        · rintro side rfl rfl
          exact ⟨_, .own apart (.start side) rfl rfl fun _ _ => rfl⟩
  | localRead near far =>
      obtain ⟨_, _, _, same, -⟩ := localRead_loops (config near far) (.inl far)
        (mesh.outpost near far)
      refine Mesh.Mirrors.move apart (by rw [same]; rfl) (nothing far) (fun _ _ => rfl) ?_
      rintro side rfl rfl
      exact ⟨_, .own apart (.localRead side) rfl rfl fun _ _ => rfl⟩
  | localSend near far =>
      have same : (mesh.outpost near far).localSend.network =
          ([] : List (DaemonAction (MeshClient Device User))).foldl Network.serve
            (mesh.network near) := by
        unfold Outpost.localSend
        split <;> rfl
      refine Mesh.Mirrors.move apart same (nothing far) (fun _ _ => rfl) ?_
      rintro side rfl rfl
      exact ⟨_, .own apart (.localSend side) rfl rfl fun _ _ => rfl⟩
  | peerRead near far =>
      obtain ⟨_, _, _, same, -⟩ := peerRead_loops (config near far) (mesh.outpost near far)
        (mesh.outpost far near)
      refine Mesh.Mirrors.move apart (by rw [same]; rfl) (nothing far) (fun _ _ => rfl) ?_
      rintro side rfl rfl
      refine ⟨_, .own apart (.peerRead side) rfl ?_ fun _ _ => rfl⟩
      have far : (mesh.pair ends) side.other = mesh.outpost (ends side.other) (ends side) := by
        rw [Mesh.pair, Side.other_other]
      rw [Pair.step, far]
      rfl
  | peerSend near far =>
      have moved : ((mesh.outpost near far).peerSend (.inl far)).network =
          ((mesh.gate near far).link.peerPending.toList.map (.arrive (.inl far))).foldl
            Network.serve (mesh.network near) := by
        unfold Outpost.peerSend
        cases waits : (mesh.gate near far).link.peerPending with
        | none => simp only [Mesh.outpost, Gate.outpost, waits, Option.toList_none, List.map_nil,
            List.foldl_nil]
        | some frame => simp only [Mesh.outpost, Gate.outpost, waits, Option.toList_some,
            List.map_cons, List.map_nil, List.foldl_cons, List.foldl_nil, Network.serve]
      refine Mesh.Mirrors.move apart moved (fun _ => linkWrites_ofLink) (fun _ _ => rfl) ?_
      rintro side rfl rfl
      exact ⟨_, .own apart (.peerSend side) rfl rfl fun _ _ => rfl⟩

/-- Two ends run as a pair in a run of the mesh in which the links stay connected. -/
theorem mirrors_run (graph : SimpleGraph Device) [DecidableRel graph.Adj]
    (config : Device → Device → LinkConfig) (apart : ∀ side, ends side ≠ ends side.other)
    (actions : List (MeshAction Device User)) (kept : ∀ action ∈ actions, action.KeepsLinks)
    (mesh : Mesh Device User) :
    ∃ steps, (run (Mesh.step graph config) mesh actions).pair ends =
        run (Pair.step (linkConfigs config ends) (linkClients ends)) (mesh.pair ends) steps ∧
      (∀ step ∈ steps, step.KeepsLinks (linkClients ends)) ∧
      (∀ side user, (∀ action ∈ actions, action.Keeps (ends side) user) →
        ∀ step ∈ steps, step.Keeps side (.inr user)) ∧
      ∀ side user, collect (Pair.step (linkConfigs config ends) (linkClients ends))
          (Pair.makes side (.inr user)) (mesh.pair ends) steps =
        collect (Mesh.step graph config) (Mesh.makes (ends side) user) mesh actions := by
  induction actions generalizing mesh with
  | nil => exact ⟨[], rfl, by simp, by simp, fun _ _ => rfl⟩
  | cons action rest ih =>
      obtain ⟨first, mirrors⟩ := mirrors_step graph config apart mesh action
      obtain ⟨later, pair, links, users, makes⟩ :=
        ih (fun action member => kept action (List.mem_cons_of_mem _ member))
          (mesh.step graph config action)
      refine ⟨first ++ later, ?_, ?_, ?_, ?_⟩
      · rw [run_append, ← mirrors.pair]
        exact pair
      · intro step member
        rcases List.mem_append.mp member with now | next
        · exact mirrors.links (kept action List.mem_cons_self) step now
        · exact links step next
      · intro side user keeps step member
        rcases List.mem_append.mp member with now | next
        · exact mirrors.users side user (keeps action List.mem_cons_self) step now
        · exact users side user (fun action member =>
            keeps action (List.mem_cons_of_mem _ member)) step next
      · intro side user
        rw [collect_append, mirrors.makes, ← mirrors.pair, makes]
        rfl

end Chappe
