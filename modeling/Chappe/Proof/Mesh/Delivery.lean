/-
This file proves that a publish reaches every device of a forest of links once, in order, and does
not come back.
-/

import Chappe.Proof.Mesh.Tracing

namespace Chappe
open Foundation

variable {Device User : Type} [DecidableEq Device] [DecidableEq User]

/-- The number of the publish of a user at the end of the route that a mark on the device leads
to. -/
def Mesh.trace (mesh : Mesh Device User) (user : User) (base : Nat) :
    Device → List Device → Option (MeshClient Device User × Nat) → Option Nat
  | _, [], mark => since (.inr user) base mark
  | device, near :: rest, mark =>
      (since (.inl near) 0 mark).bind fun number =>
        mesh.trace user base near rest ((mesh.outpost device near).origin number)

/-- What the link of a device to the first device of the route has published on it. -/
def Mesh.passed (mesh : Mesh Device User) (user : User) (base : Nat) (device near : Device)
    (rest : List Device) : List (Frame × Nat) :=
  tracedBy (mesh.trace user base near rest) (mesh.gate device near).crossed

/-- The frames on the way to a user of the device that stem from publishes over the route. -/
def Mesh.arrivals (mesh : Mesh Device User) (user : User) (base : Nat) (device : Device)
    (route : List Device) (client : User) : List (Frame × Nat) :=
  tracedBy (mesh.trace user base device route) ((mesh.network device).wire (.inr client))

/-- Every link on the route forwards the topic. -/
def routeForwards (config : Device → Device → LinkConfig) :
    Device → List Device → Bytes → Bool
  | _, [], _ => true
  | device, near :: rest, topic => routeForwards config near rest topic &&
      ((config near device).forwardsTopic topic && (config device near).forwardsTopic topic)

/-- The links of a mesh are in place. -/
structure Mesh.Ready (graph : SimpleGraph Device) (mesh : Mesh Device User) : Prop where
  started : ∀ near far, graph.Adj near far → (mesh.gate near far).started = true
  settled : ∀ near far, graph.Adj near far →
    (mesh.network near).daemon.Settled (.inl far : MeshClient Device User)

/-- Nothing that was published is still on its way. -/
structure Mesh.Quiet (graph : SimpleGraph Device) (mesh : Mesh Device User) : Prop where
  waiting : ∀ device client, (mesh.network device).waiting client = []
  routed : ∀ device sender client,
    ((mesh.network device).daemon.broker.thread sender).owes client = []
  taken : ∀ near far, graph.Adj near far →
    (mesh.gate near far).taken = ((mesh.network near).wire (.inl far)).length
  unwritten : ∀ near far, graph.Adj near far → (mesh.gate near far).link.localPending = none
  read : ∀ near far, graph.Adj near far →
    (mesh.gate near far).read = (mesh.gate far near).written.length
  unpublished : ∀ near far, graph.Adj near far → (mesh.gate near far).link.peerPending = none

/-- The publishes of a client that its daemon has begun to route since the start. -/
def Mesh.routed (start last : Mesh Device User) (device : Device)
    (client : MeshClient Device User) : List Frame :=
  ((last.network device).routed client).drop ((start.network device).routed client).length

/-- What holds of the links of a mesh at the end of a run that starts with them in place. -/
structure Mesh.Carries (graph : SimpleGraph Device) (config : Device → Device → LinkConfig)
    (start last : Mesh Device User) : Prop where
  ready : start.Ready graph
  sound : ∀ near far, graph.Adj near far → (start.pair (between near far)).Sound
    (linkConfigs config (between near far)) (linkClients (between near far))
  carries : ∀ near far, graph.Adj near far → ∀ sender, sender ≠ .inl far →
    Pair.Carries (linkConfigs config (between near far)) (linkClients (between near far)) .a
      sender (start.pair (between near far)) (last.pair (between near far))
      (start.routed last near sender)
  apart : ∀ near far, ¬ graph.Adj near far → (last.gate near far).crossed = []

variable {graph : SimpleGraph Device} {config : Device → Device → LinkConfig}
  {start last : Mesh Device User} {user : User} {device near : Device} {rest : List Device}
  {ends : Side → Device}

/-- The number of publishes of a user before the run. -/
def Mesh.base (start : Mesh Device User) (user : User) (home : Device) : Nat :=
  ((start.network home).routed (.inr user)).length

theorem Mesh.Carries.published (carries : start.Carries graph config last)
    (adjacent : graph.Adj near device) :
    (last.network device).routed (.inl near) ++ (last.network device).waiting (.inl near) =
      (last.gate device near).crossed.map Prod.fst := by
  have pair := carries.carries near device adjacent (.inl near) (by simpa using adjacent.ne)
  exact (pair.sound.device .b).published

theorem Mesh.Carries.earlier (carries : start.Carries graph config last)
    (adjacent : graph.Adj near device) :
    (start.gate device near).crossed <+: (last.gate device near).crossed :=
  (carries.carries near device adjacent (.inl near) (by simpa using adjacent.ne)).earlier

/-- A publish of a link before the run had crossed before it. -/
theorem Mesh.Carries.first (carries : start.Carries graph config last)
    (adjacent : graph.Adj near device) :
    ((start.network device).routed (.inl near)).length ≤
      (start.gate device near).crossed.length := by
  have published := congrArg List.length ((carries.sound near device adjacent).device .b).published
  rw [List.length_append, List.length_map] at published
  change ((start.network device).routed (.inl near)).length + _ =
    (start.gate device near).crossed.length at published
  omega

/-- The first publishes of a link come from frames that had crossed before the run. -/
theorem Mesh.Carries.origin_early (carries : start.Carries graph config last)
    (adjacent : graph.Adj near device) {number : Nat} (positive : 0 < number)
    (bound : number ≤ ((start.network device).routed (.inl near)).length) :
    ∃ entry ∈ (start.gate device near).crossed,
      (last.outpost device near).origin number = entry.2 := by
  obtain ⟨more, whole⟩ := carries.earlier adjacent
  cases number with
  | zero => exact absurd positive (Nat.lt_irrefl 0)
  | succ place =>
      have inside : place < (start.gate device near).crossed.length :=
        bound.trans (carries.first adjacent)
      refine ⟨_, List.getElem_mem inside, ?_⟩
      rw [Outpost.origin]
      change ((last.gate device near).crossed[place]?).bind Prod.snd = _
      rw [← whole, List.getElem?_append_left inside, List.getElem?_eq_getElem inside]
      rfl

/-- What had crossed before the run comes from publishes before it. -/
theorem Mesh.Carries.mark_early (carries : start.Carries graph config last)
    (adjacent : graph.Adj near device) {entry : Frame × Option (MeshClient Device User × Nat)}
    (member : entry ∈ (start.gate device near).crossed) (sender : MeshClient Device User) :
    since sender ((start.network near).routed sender).length entry.2 = none := by
  have crossed : entry ∈ (start.pair (between near device) Side.a.other).crossed := member
  exact (carries.sound near device adjacent).crossed_early crossed

theorem trace_none (mesh : Mesh Device User) (user : User) (base : Nat) (device : Device)
    (route : List Device) : mesh.trace user base device route none = none := by
  cases route with
  | nil => rfl
  | cons near rest => rfl

/-- What had crossed before the run leads to no later publish. -/
theorem Mesh.Carries.trace_early (carries : start.Carries graph config last) (user : User) :
    ∀ {rest : List Device} {device near : Device}, graph.Adj near device →
      (near :: rest).IsChain graph.Adj → ∀ entry ∈ (start.gate device near).crossed,
      last.trace user (start.base user (rest.getLastD near)) near rest entry.2 = none := by
  intro rest
  induction rest with
  | nil =>
      intro device near adjacent _ entry member
      exact carries.mark_early adjacent member (.inr user)
  | cons prior rest ih =>
      intro device near adjacent linked entry member
      have early := carries.mark_early adjacent member (.inl prior)
      rw [Mesh.trace, List.getLastD_cons]
      cases found : since (.inl prior) 0 entry.2 with
      | none => rfl
      | some number =>
          obtain ⟨mark, positive⟩ := since_eq_some.mp found
          have bound : number ≤ ((start.network near).routed (.inl prior)).length := by
            by_contra later
            have late := since_eq_some.mpr ⟨mark, Nat.lt_of_not_le later⟩
            rw [early] at late
            cases late
          obtain ⟨earlier, crossed, origin⟩ :=
            carries.origin_early linked.rel.symm positive bound
          rw [Option.bind_some, origin]
          exact ih linked.rel.symm linked.tail earlier crossed

/-- A route through a link leads from the publishes of the link to what these come from. -/
theorem tracedBy_route (mesh : Mesh Device User) (user : User) (base : Nat) (device near : Device)
    (rest : List Device) (entries : List (Frame × Option (MeshClient Device User × Nat))) :
    tracedBy (mesh.trace user base device (near :: rest)) entries =
      (routedBy (.inl near) 0 entries).filterMap fun entry =>
        (mesh.trace user base near rest ((mesh.outpost device near).origin entry.2)).map
          fun number => (entry.1, number) := by
  rw [routedBy, List.filterMap_filterMap]
  apply List.filterMap_congr
  intro entry _
  rw [Mesh.trace]
  cases since (.inl near : MeshClient Device User) 0 entry.2 with
  | none => rfl
  | some number => rfl

/-- What a link has published since the start leads to what had crossed it. -/
theorem Mesh.Carries.traced_publishes (carries : start.Carries graph config last) (user : User)
    (linked : (device :: near :: rest).IsChain graph.Adj) (admits : Bytes → Bool) :
    ((forwarded admits ((start.network device).routed (.inl near)).length
        (start.routed last device (.inl near))).filterMap fun entry =>
      (last.trace user (start.base user (rest.getLastD near)) near rest
        ((last.outpost device near).origin entry.2)).map fun number => (entry.1, number)) =
      (tracedBy (last.trace user (start.base user (rest.getLastD near)) near rest)
        ((last.gate device near).crossed.take
          ((last.network device).routed (.inl near)).length)).filter
            fun entry => admits entry.1.name := by
  have adjacent := linked.rel.symm
  obtain ⟨more, whole⟩ := carries.earlier adjacent
  have first := carries.first adjacent
  have plain := ((carries.carries near device adjacent (.inl near)
    (by simpa using adjacent.ne)).sound.device .b).plain
  have frames : start.routed last device (.inl near) = (((last.gate device near).crossed.take
      ((last.network device).routed (.inl near)).length).drop
        ((start.network device).routed (.inl near)).length).map Prod.fst := by
    rw [List.map_drop, List.map_take, ← carries.published adjacent, List.take_left]
    rfl
  have split : tracedBy (last.trace user (start.base user (rest.getLastD near)) near rest)
      ((last.gate device near).crossed.take ((last.network device).routed (.inl near)).length) =
      tracedBy (last.trace user (start.base user (rest.getLastD near)) near rest)
        (((last.gate device near).crossed.take
          ((last.network device).routed (.inl near)).length).drop
            ((start.network device).routed (.inl near)).length) := by
    conv_lhs => rw [← List.take_append_drop ((start.network device).routed (.inl near)).length
      ((last.gate device near).crossed.take ((last.network device).routed (.inl near)).length)]
    rw [tracedBy_append, tracedBy_nothing, List.nil_append]
    intro entry member
    refine carries.trace_early user adjacent linked.tail entry ?_
    rw [List.take_take, ← whole, List.take_append_of_le_length
      ((Nat.min_le_left _ _).trans first)] at member
    exact List.mem_of_mem_take member
  rw [frames, split]
  apply forwarded_traced
  · intro entry member
    exact plain entry (List.mem_of_mem_take (List.mem_of_mem_drop member))
  · intro place entry found
    rw [List.getElem?_drop] at found
    obtain ⟨there, -⟩ := List.getElem?_eq_some_iff.mp found
    rw [List.getElem?_take_of_lt (by rw [List.length_take] at there; omega)] at found
    rw [Nat.add_right_comm, Outpost.origin]
    change ((last.gate device near).crossed[_]?).bind Prod.snd = _
    rw [found]
    rfl

/-- The first publishes of a link lead to nothing later. -/
theorem Mesh.Carries.value_early (carries : start.Carries graph config last) (user : User)
    (linked : (device :: near :: rest).IsChain graph.Adj) {number : Nat}
    (bound : number ≤ ((start.network device).routed (.inl near)).length) :
    last.trace user (start.base user (rest.getLastD near)) near rest
      ((last.outpost device near).origin number) = none := by
  rcases Nat.eq_zero_or_pos number with rfl | positive
  · exact trace_none ..
  · obtain ⟨entry, crossed, origin⟩ := carries.origin_early linked.rel.symm positive bound
    rw [origin]
    exact carries.trace_early user linked.rel.symm linked.tail entry crossed

omit [DecidableEq Device] [DecidableEq User] in
/-- The links at both ends of a quiet connection have nothing left to do. -/
theorem Mesh.Quiet.idle [DecidableEq Device] [DecidableEq User] (quiet : last.Quiet graph)
    (adjacent : graph.Adj near device) (sender : MeshClient Device User) :
    (last.outpost near device).Drained (.inl device) sender ∧
      (last.outpost device near).Emptied (last.outpost near device) :=
  ⟨⟨quiet.waiting near sender, quiet.routed near sender _, quiet.taken near device adjacent,
      quiet.unwritten near device adjacent⟩,
    ⟨quiet.read device near adjacent.symm, quiet.unpublished device near adjacent.symm⟩⟩

/-- What has crossed the next link is what both of its ends forward of the publishes of a client. -/
theorem Mesh.Carries.crossed (carries : start.Carries graph config last)
    (adjacent : graph.Adj near device) {sender : MeshClient Device User}
    (foreign : sender ≠ .inl device) :
    let base := ((start.network near).routed sender).length
    let both := fun topic =>
      (config near device).forwardsTopic topic && (config device near).forwardsTopic topic
    routedBy sender base (last.gate device near).crossed <+:
        forwarded both base (start.routed last near sender) ∧
      (last.Quiet graph → routedBy sender base (last.gate device near).crossed =
        forwarded both base (start.routed last near sender)) := by
  intro base both
  have pair := carries.carries near device adjacent sender foreign
  obtain ⟨part, whole⟩ := pair.crossed (carries.sound near device adjacent)
    (carries.ready.started near device adjacent) (carries.ready.settled near device adjacent)
  refine ⟨part, fun quiet => ?_⟩
  obtain ⟨drained, emptied⟩ := quiet.idle adjacent sender
  exact whole drained emptied

/-- What has crossed the links of a route is what they all forward of the publishes of a user. -/
theorem Mesh.Carries.passed (carries : start.Carries graph config last) (user : User) :
    ∀ {rest : List Device} {device near : Device}, (device :: near :: rest).IsChain graph.Adj →
      Onward (device :: near :: rest) →
      let base := start.base user (rest.getLastD near)
      let publishes := start.routed last (rest.getLastD near) (.inr user)
      last.passed user base device near rest <+:
          forwarded (routeForwards config device (near :: rest)) base publishes ∧
        (last.Quiet graph → last.passed user base device near rest =
          forwarded (routeForwards config device (near :: rest)) base publishes) := by
  intro rest
  induction rest with
  | nil =>
      intro device near linked _ base publishes
      exact carries.crossed linked.rel.symm Sum.inr_ne_inl
  | cons prior rest ih =>
      intro device near linked onward
      rw [List.getLastD_cons]
      intro base publishes
      obtain ⟨part, whole⟩ := ih linked.tail onward.2
      have foreign : (.inl prior : MeshClient Device User) ≠ .inl device :=
        fun same => onward.1 (Sum.inl.inj same).symm
      obtain ⟨crossed, settled⟩ := carries.crossed linked.rel.symm foreign
      have early (number : Nat)
          (bound : number ≤ ((start.network near).routed (.inl prior)).length) :
          last.trace user base prior rest ((last.outpost near prior).origin number) = none :=
        carries.value_early user linked.tail bound
      have traced : last.passed user base device near (prior :: rest) =
          (routedBy (.inl prior) ((start.network near).routed (.inl prior)).length
            (last.gate device near).crossed).filterMap fun entry =>
              (last.trace user base prior rest ((last.outpost near prior).origin entry.2)).map
                fun number => (entry.1, number) := by
        rw [Mesh.passed, tracedBy_route, routedBy_later early]
      have filtered := forwarded_filter (routeForwards config near (prior :: rest))
        (fun topic => (config near device).forwardsTopic topic &&
          (config device near).forwardsTopic topic) base publishes
      constructor
      · rw [traced]
        refine (crossed.filterMap _).trans ?_
        rw [carries.traced_publishes user linked.tail]
        refine List.IsPrefix.trans ?_ (filtered ▸ part.filter _)
        exact ((List.take_prefix _ _).filterMap _).filter _
      · intro quiet
        rw [traced, settled quiet, carries.traced_publishes user linked.tail]
        have published := carries.published linked.tail.rel.symm
        rw [quiet.waiting, List.append_nil] at published
        rw [published, List.length_map, List.take_length]
        refine Eq.trans ?_ filtered
        exact congrArg _ (whole quiet)

/-- The frames on the way to a user are what the links of the route forward and the user wants. -/
theorem Mesh.Carries.arrivals (carries : start.Carries graph config last) (user client : User)
    (linked : (device :: near :: rest).IsChain graph.Adj) (onward : Onward (device :: near :: rest))
    {accepts : Unit → Bytes → Bool}
    (follows : Network.Follows accepts (start.network device) (.inl near) (.inr client)
      (last.network device) (start.routed last device (.inl near))) :
    let base := start.base user (rest.getLastD near)
    let publishes := start.routed last (rest.getLastD near) (.inr user)
    let wanted := fun topic => routeForwards config device (near :: rest) topic && decide
      (.inr client ∈ (start.network device).daemon.broker.tables.targets topic)
    last.arrivals user base device (near :: rest) client <+: forwarded wanted base publishes ∧
      (last.Quiet graph → last.arrivals user base device (near :: rest) client =
        forwarded wanted base publishes) := by
  intro base publishes wanted
  obtain ⟨part, whole⟩ := carries.passed user linked onward
  have early (number : Nat)
      (bound : number ≤ ((start.network device).routed (.inl near)).length) :
      last.trace user base near rest ((last.outpost device near).origin number) = none :=
    carries.value_early user linked bound
  have traced : last.arrivals user base device (near :: rest) client =
      (routedBy (.inl near) ((start.network device).routed (.inl near)).length
        ((last.network device).wire (.inr client))).filterMap fun entry =>
          (last.trace user base near rest ((last.outpost device near).origin entry.2)).map
            fun number => (entry.1, number) := by
    rw [Mesh.arrivals, tracedBy_route, routedBy_later early]
  have stream := follows.stream
  have targets (topic : Bytes) :
      .inr client ∈ (start.network device).daemon.broker.tables.targets topic ↔
        decide (.inr client ∈ (start.network device).daemon.broker.tables.targets topic) = true :=
    decide_eq_true_iff.symm
  rw [copies_forwarded targets] at stream
  have filtered := forwarded_filter (routeForwards config device (near :: rest))
    (fun topic => decide (.inr client ∈ (start.network device).daemon.broker.tables.targets topic))
    base publishes
  constructor
  · rw [traced]
    refine List.IsPrefix.trans (List.IsPrefix.filterMap _ ⟨_, stream⟩) ?_
    rw [carries.traced_publishes user linked]
    refine List.IsPrefix.trans ?_ (filtered ▸ part.filter _)
    exact ((List.take_prefix _ _).filterMap _).filter _
  · intro quiet
    rw [Network.pending, quiet.routed, List.map_nil, ite_self, List.append_nil] at stream
    have published := carries.published linked.rel.symm
    rw [quiet.waiting, List.append_nil] at published
    rw [traced, stream, carries.traced_publishes user linked, published, List.length_map,
      List.take_length]
    refine Eq.trans ?_ filtered
    exact congrArg _ (whole quiet)

/-- A link publishes nothing that it has taken from its own device. -/
theorem Mesh.Carries.crossed_silent (carries : start.Carries graph config last)
    (adjacent : graph.Adj near device) {entry : Frame × Option (MeshClient Device User × Nat)}
    (member : entry ∈ (last.gate device near).crossed) (number : Nat) :
    entry.2 ≠ some (.inl device, number) := by
  have pair := carries.carries near device adjacent (.inl near) (by simpa using adjacent.ne)
  have marks := (pair.sound.reads .b).marks entry.2
    (List.mem_cons_of_mem _ (List.mem_map.mpr ⟨entry, member, rfl⟩))
  rcases List.mem_cons.mp marks with none | written
  · rw [none]
    exact nofun
  · obtain ⟨copy, there, same⟩ := List.mem_map.mp written
    rw [← same]
    exact (pair.sound.device .a).silent there number

/-- A mark that leads to a publish leads over links and never straight back. -/
theorem Mesh.Carries.trace_route (carries : start.Carries graph config last) {user : User}
    {base number : Nat} : ∀ {route : List Device} {device : Device}
      {mark : Option (MeshClient Device User × Nat)},
      last.trace user base device route mark = some number →
        (device :: route).IsChain graph.Adj ∧ Onward (device :: route) := by
  intro route
  induction route with
  | nil => exact fun _ => ⟨.singleton _, True.intro⟩
  | cons near rest ih =>
      intro device mark found
      obtain ⟨count, -, later⟩ := Option.bind_eq_some_iff.mp found
      cases count with
      | zero =>
          rw [Outpost.origin, trace_none] at later
          cases later
      | succ place =>
          rw [Outpost.origin] at later
          change last.trace user base near rest
            (((last.gate device near).crossed[place]?).bind Prod.snd) = some number at later
          cases entry : (last.gate device near).crossed[place]? with
          | none =>
              rw [entry, Option.bind_none, trace_none] at later
              cases later
          | some crossed =>
              rw [entry, Option.bind_some] at later
              have member := List.mem_of_getElem? entry
              have adjacent : graph.Adj near device := by
                by_contra apart
                rw [carries.apart device near fun same => apart same.symm] at member
                cases member
              obtain ⟨linked, onward⟩ := ih later
              refine ⟨linked.cons_cons adjacent.symm, ?_⟩
              cases rest with
              | nil => exact True.intro
              | cons prior rest =>
                  refine ⟨?_, onward⟩
                  rintro rfl
                  obtain ⟨cause, since, -⟩ := Option.bind_eq_some_iff.mp later
                  exact carries.crossed_silent adjacent member cause (since_eq_some.mp since).1

variable [DecidableRel graph.Adj]

omit [DecidableEq User] in
/-- Only neighbours have a link. -/
theorem move_crossed (mesh : Mesh Device User) {near far : Device}
    (apart : ¬ graph.Adj near far) (here there : Device)
    (outpost : Outpost (MeshClient Device User)) :
    (mesh.move graph here there outpost).gate near far = mesh.gate near far := by
  unfold Mesh.move
  split
  · rename_i adjacent
    unfold Mesh.put
    dsimp only
    by_cases same : near = here
    · subst same
      have other : far ≠ there := by
        rintro rfl
        exact apart adjacent
      rw [Function.update_self, Function.update_of_ne other]
    · rw [Function.update_of_ne same]
  · rfl

theorem step_apart (config : Device → Device → LinkConfig) (mesh : Mesh Device User)
    (action : MeshAction Device User) {near far : Device} (apart : ¬ graph.Adj near far) :
    (mesh.step graph config action).gate near far = mesh.gate near far := by
  cases action with
  | daemon device action =>
      rw [Mesh.step]
      split
      · rfl
      · rfl
  | start here there => exact move_crossed mesh apart ..
  | localRead here there => exact move_crossed mesh apart ..
  | localSend here there => exact move_crossed mesh apart ..
  | peerRead here there => exact move_crossed mesh apart ..
  | peerSend here there => exact move_crossed mesh apart ..

/-- Two ends of a mesh at the start are a pair at its start. -/
theorem initial_mirrors (graph : SimpleGraph Device) [DecidableRel graph.Adj]
    (config : Device → Device → LinkConfig) (apart : ∀ side, ends side ≠ ends side.other)
    {before : List (MeshAction Device User)} (kept : ∀ action ∈ before, action.KeepsLinks) :
    ((run (Mesh.step graph config) (.initial config) before).pair ends).Sound
      (linkConfigs config ends) (linkClients ends) := by
  obtain ⟨steps, pair, links, -⟩ := mirrors_run graph config apart before kept (.initial config)
  rw [pair]
  exact run_invariant_of_meets Pair.Sound.step steps _ (.initial _ _) (Meets.of_admitted links)

omit [DecidableEq Device] [DecidableEq User] [DecidableRel graph.Adj] in
theorem Mesh.Ready.pair (ready : start.Ready graph) (adjacent : graph.Adj near device)
    (side : Side) : (start.pair (between near device) side).started = true ∧
      (start.pair (between near device) side).network.daemon.Settled
        (linkClients (between near device) side) := by
  cases side with
  | a => exact ⟨ready.started _ _ adjacent, ready.settled _ _ adjacent⟩
  | b => exact ⟨ready.started _ _ adjacent.symm, ready.settled _ _ adjacent.symm⟩

omit [DecidableEq Device] [DecidableEq User] [DecidableRel graph.Adj] in
/-- The publishes that a run has routed are the last ones. -/
theorem Network.Follows.publishes_eq {Client : Type} [DecidableEq Client]
    {accepts : Unit → Bytes → Bool} {start network : Network Client Unit}
    {sender client : Client} {publishes : List Frame}
    (follows : Network.Follows accepts start sender client network publishes) :
    (network.routed sender).drop (start.routed sender).length = publishes := by
  rw [follows.routed, List.drop_left]

/-- The runs that start when every link is in place. -/
theorem Mesh.Carries.of_run (before after : List (MeshAction Device User))
    (kept : ∀ action ∈ before ++ after, action.KeepsLinks)
    (ready : (run (Mesh.step graph config) (.initial config) before).Ready graph) :
    let start := run (Mesh.step graph config) (.initial config) before
    start.Carries graph config (run (Mesh.step graph config) start after) := by
  intro start
  have sound (near far : Device) (adjacent : graph.Adj near far) :=
    initial_mirrors graph config (between_apart adjacent.ne)
      (fun action member => kept action (List.mem_append_left after member))
  refine ⟨ready, sound, ?_, ?_⟩
  · intro near far adjacent sender foreign
    obtain ⟨steps, pair, links, -⟩ := mirrors_run graph config (between_apart adjacent.ne)
      after (fun action member => kept action (List.mem_append_right _ member)) start
    have origin := Pair.Carries.refl (sound near far adjacent)
      (fun side => (ready.pair adjacent side).1) (fun side => (ready.pair adjacent side).2) .a
      sender
    have carries := origin.reach foreign links
    rw [List.nil_append, ← pair] at carries
    rw [← carries.follows.publishes_eq] at carries
    exact carries
  · intro near far apart
    have keep (mesh : Mesh Device User) (action : MeshAction Device User)
        (held : (mesh.gate near far).crossed = []) :
        ((mesh.step graph config action).gate near far).crossed = [] := by
      rw [step_apart config mesh action apart]
      exact held
    exact run_invariant keep after start (run_invariant keep before (.initial config) rfl)

end Chappe
