/-
This file proves that a user anywhere in a forest of links gets the publishes of a user of another
device once each and in order, and that no publish comes back to its own device.
-/

import Chappe.Proof.Mesh.Delivery
import Mathlib.Combinatorics.SimpleGraph.Star

namespace Chappe
open Foundation

variable {Device User : Type} [DecidableEq Device] [DecidableEq User]
  {graph : SimpleGraph Device} [DecidableRel graph.Adj] {config : Device → Device → LinkConfig}
  {start last : Mesh Device User} {user client : User} {device near : Device}
  {rest route : List Device}

/-- A user that keeps its subscriptions is routed the publishes of the link that it wants. -/
theorem mesh_follows {before after : List (MeshAction Device User)}
    (kept : ∀ action ∈ before ++ after, action.KeepsLinks)
    (ready : (run (Mesh.step graph config) (.initial config) before).Ready graph)
    (adjacent : graph.Adj near device)
    (settled : ((run (Mesh.step graph config) (.initial config) before).network
      device).daemon.Settled (.inr client))
    (keeps : ∀ action ∈ after, action.Keeps device client) :
    let start := run (Mesh.step graph config) (.initial config) before
    let last := run (Mesh.step graph config) start after
    Network.Follows (fun _ _ => true) (start.network device) (.inl near) (.inr client)
      (last.network device) (start.routed last device (.inl near)) := by
  intro start last
  have sound := initial_mirrors graph config (between_apart adjacent.ne)
    (fun action member => kept action (List.mem_append_left after member))
  obtain ⟨steps, pair, links, users, -⟩ := mirrors_run graph config (between_apart adjacent.ne)
    after (fun action member => kept action (List.mem_append_right _ member)) start
  have origin : Network.Follows (fun _ _ => true) (start.network device) (.inl near)
      (.inr client) ((start.pair (between near device)) .b).network [] :=
    .refl _ (sound.device .b).marked (network_settled (sound.device .b).nodes settled) _
  have foreign : (.inr client : MeshClient Device User) ≠
      linkClients (between near device) .b := Sum.inr_ne_inl
  obtain ⟨publishes, follows⟩ := Pair.step_follows foreign links
    (users .b client keeps) sound (ready.pair adjacent .b).1 origin
  rw [← pair] at follows
  rw [← follows.publishes_eq] at follows
  exact follows

/-- The publishes that a user makes are taken by its daemon in their order. -/
theorem Mesh.Carries.made {before after : List (MeshAction Device User)}
    (kept : ∀ action ∈ before ++ after, action.KeepsLinks)
    (ready : (run (Mesh.step graph config) (.initial config) before).Ready graph)
    (adjacent : graph.Adj near device) (user : User) :
    let start := run (Mesh.step graph config) (.initial config) before
    let last := run (Mesh.step graph config) start after
    (start.network near).waiting (.inr user) ++
        collect (Mesh.step graph config) (Mesh.makes near user) start after =
      start.routed last near (.inr user) ++ (last.network near).waiting (.inr user) := by
  intro start last
  have sound := initial_mirrors graph config (between_apart adjacent.ne)
    (fun action member => kept action (List.mem_append_left after member))
  obtain ⟨steps, pair, links, -, makes⟩ := mirrors_run graph config (between_apart adjacent.ne)
    after (fun action member => kept action (List.mem_append_right _ member)) start
  have origin := Pair.Carries.refl sound (fun side => (ready.pair adjacent side).1)
    (fun side => (ready.pair adjacent side).2) .a (.inr user)
  have foreign : (.inr user : MeshClient Device User) ≠
      linkClients (between near device) .a := Sum.inr_ne_inl
  have carries := origin.reach foreign links
  have queue := origin.publishes_run foreign links
  rw [makes, ← pair] at queue
  rw [List.nil_append, ← pair] at carries
  rw [← carries.follows.publishes_eq] at queue
  exact queue

omit [DecidableEq Device] [DecidableRel graph.Adj] in
/-- The last device of a route has a neighbour on it. -/
theorem exists_neighbour : ∀ {rest : List Device} {device near : Device},
    (device :: near :: rest).IsChain graph.Adj →
      ∃ neighbour, graph.Adj (rest.getLastD near) neighbour := by
  intro rest
  induction rest with
  | nil => exact fun linked => ⟨_, linked.rel.symm⟩
  | cons prior rest ih =>
      intro device near linked
      rw [List.getLastD_cons]
      exact ih linked.tail

omit [DecidableRel graph.Adj] in
/-- The frames that arrive over a route come over the only one. -/
theorem Mesh.Carries.only_route (carries : start.Carries graph config last)
    (forest : graph.IsAcyclic) (linked : (device :: rest).IsChain graph.Adj)
    (onward : Onward (device :: rest)) (different : route ≠ rest)
    (home : route.getLastD device = rest.getLastD device) (base : Nat) :
    last.arrivals user base device route client = [] := by
  rw [Mesh.arrivals]
  apply tracedBy_nothing
  intro entry _
  by_contra found
  obtain ⟨number, traced⟩ := Option.ne_none_iff_exists'.mp found
  obtain ⟨also, straight⟩ := carries.trace_route traced
  refine different (route_unique forest also straight linked onward ?_)
  rw [List.getLast?_cons, List.getLast?_cons, ← List.getLastD_eq_getLast?,
    ← List.getLastD_eq_getLast?, home]

/-- The links of a forest of devices are in place and stay connected. A user that keeps its
subscriptions gets the publishes of a user of another device that every link on the route between
them forwards, once each and in order, as far as they have come. It gets no copy over another route,
and none of the publishes of its own device over the links. -/
theorem mesh_delivers_once (forest : graph.IsAcyclic)
    (before after : List (MeshAction Device User))
    (kept : ∀ action ∈ before ++ after, action.KeepsLinks)
    (ready : (run (Mesh.step graph config) (.initial config) before).Ready graph)
    (linked : (device :: near :: rest).IsChain graph.Adj)
    (direct : (device :: near :: rest).Nodup)
    (settled : ((run (Mesh.step graph config) (.initial config) before).network
      device).daemon.Settled (.inr client))
    (keeps : ∀ action ∈ after, action.Keeps device client) :
    let start := run (Mesh.step graph config) (.initial config) before
    let last := run (Mesh.step graph config) start after
    let home := rest.getLastD near
    let base := start.base user home
    let made := (start.network home).waiting (.inr user) ++
      collect (Mesh.step graph config) (Mesh.makes home user) start after
    let wanted := fun topic => routeForwards config device (near :: rest) topic && decide
      (.inr client ∈ (start.network device).daemon.broker.tables.targets topic)
    last.arrivals user base device (near :: rest) client <+: forwarded wanted base made ∧
    (last.Quiet graph → last.arrivals user base device (near :: rest) client =
      forwarded wanted base made) ∧
    (∀ route, route ≠ near :: rest → route.getLastD device = home →
      last.arrivals user base device route client = []) ∧
    ∀ route base, route ≠ [] → route.getLastD device = device →
      last.arrivals user base device route client = [] := by
  intro start last home base made wanted
  have carries : start.Carries graph config last := .of_run before after kept ready
  have onward := Onward.of_nodup direct
  obtain ⟨neighbour, adjacent⟩ := exists_neighbour linked
  have queue : made = _ := Mesh.Carries.made kept ready adjacent user
  obtain ⟨part, whole⟩ := carries.arrivals user client linked onward
    (mesh_follows kept ready linked.rel.symm settled keeps)
  refine ⟨?_, ?_, ?_, ?_⟩
  · rw [queue]
    refine part.trans ?_
    exact forwarded_prefix ..
  · intro quiet
    rw [queue, quiet.waiting, List.append_nil]
    exact whole quiet
  · intro route different same
    exact carries.only_route forest linked onward different
      (same.trans (List.getLastD_cons ..).symm) base
  · intro route base some back
    exact carries.only_route forest (.singleton device) True.intro some back base

/-- The links between the hub `none` and two other devices forward every topic of one level. -/
def hubConfig : Option Bool → Option Bool → LinkConfig := fun _ _ => ⟨[[43]], [], false, [], 0⟩

/-- The links are put in place, and the user of one device subscribes. -/
def hubSetup : List (MeshAction (Option Bool) Unit) :=
  [.daemon (some false) (.connect (.inr ())), .daemon (some true) (.connect (.inr ())),
    .start none (some false), .start (some false) none, .start none (some true),
    .start (some true) none,
    .daemon (some false) (.thread (.inl none) (.inr ()) [] 0 0),
    .daemon (some true) (.thread (.inl none) (.inr ()) [] 0 0),
    .daemon none (.thread (.inl (some false)) (.inr ()) [] 0 0),
    .daemon none (.thread (.inl (some true)) (.inr ()) [] 0 0),
    .daemon (some true) (.arrive (.inr ()) (Msg.subscribe.frame [97] [])),
    .daemon (some true) (.thread (.inr ()) (.inr ()) [] 0 0),
    .daemon (some true) (.thread (.inr ()) (.inr ()) [] 0 0),
    .peerRead (some false) none, .peerRead none (some false), .peerRead none (some true),
    .peerRead (some true) none]

/-- The user of the other device publishes, and the publish crosses both links. -/
def hubPublish : List (MeshAction (Option Bool) Unit) :=
  [.daemon (some false) (.arrive (.inr ()) (Msg.publish.frame [97] [7])),
    .daemon (some false) (.thread (.inr ()) (.inr ()) [] 0 0),
    .daemon (some false) (.thread (.inr ()) (.inl none) [] 0 0),
    .localRead (some false) none, .localSend (some false) none,
    .peerRead none (some false), .peerSend none (some false),
    .daemon none (.thread (.inl (some false)) (.inr ()) [] 0 0),
    .daemon none (.thread (.inl (some false)) (.inl (some true)) [] 0 0),
    .localRead none (some true), .localSend none (some true),
    .peerRead (some true) none, .peerSend (some true) none,
    .daemon (some true) (.thread (.inl none) (.inr ()) [] 0 0),
    .daemon (some true) (.thread (.inl none) (.inr ()) [] 0 0)]

/-- The devices with the links in place. -/
def hubStart : Mesh (Option Bool) Unit :=
  run (Mesh.step (SimpleGraph.starGraph none) hubConfig) (.initial hubConfig) hubSetup

/-- The devices after the publish. -/
def hubLast : Mesh (Option Bool) Unit :=
  run (Mesh.step (SimpleGraph.starGraph none) hubConfig) hubStart hubPublish

theorem hubStart_settled (near far : Option Bool)
    (adjacent : (SimpleGraph.starGraph none).Adj near far) :
    (hubStart.network near).daemon.Settled (.inl far) := by
  rcases near with _ | (_ | _) <;> rcases far with _ | (_ | _)
  · exact absurd adjacent (by decide)
  · exact ⟨⟨by decide +kernel, True.intro⟩, by decide +kernel⟩
  · exact ⟨⟨by decide +kernel, True.intro⟩, by decide +kernel⟩
  · exact ⟨⟨by decide +kernel, True.intro⟩, by decide +kernel⟩
  · exact absurd adjacent (by decide)
  · exact absurd adjacent (by decide)
  · exact ⟨⟨by decide +kernel, True.intro⟩, by decide +kernel⟩
  · exact absurd adjacent (by decide)
  · exact absurd adjacent (by decide)

theorem hubStart_ready : hubStart.Ready (SimpleGraph.starGraph none) where
  started := by decide +kernel
  settled := hubStart_settled

theorem hubLast_quiet : hubLast.Quiet (SimpleGraph.starGraph none) where
  waiting := by decide +kernel
  routed := by decide +kernel
  taken := by decide +kernel
  unwritten := by decide +kernel
  read := by decide +kernel
  unpublished := by decide +kernel

theorem mesh_delivers_once_hub :
    hubLast.arrivals () (hubStart.base () (some false)) (some true) [none, some false] () =
      [(Msg.publish.frame [97] [7], 1)] := by
  have settled : (hubStart.network (some true)).daemon.Settled (.inr ()) :=
    ⟨⟨by decide +kernel, True.intro⟩, by decide +kernel⟩
  have linked : [some true, none, some false].IsChain (SimpleGraph.starGraph none).Adj := by
    decide
  obtain ⟨-, whole, -⟩ := @mesh_delivers_once _ _ _ _ _ _ hubConfig () () _ _ _
    (SimpleGraph.isAcyclic_starGraph none) hubSetup hubPublish (by decide) hubStart_ready linked
    (by decide) settled (by decide)
  exact (whole hubLast_quiet).trans (by decide +kernel)

end Chappe
