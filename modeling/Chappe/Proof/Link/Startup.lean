/-
This file proves that a link asks for its keys before it writes any of them.
-/

import Chappe.Proof.Link.Changes

namespace Chappe
open Foundation

variable {Client : Type} {key : Bytes} {session : Nat} {device : Device Client}

instance (frame : Frame) (key : Bytes) : Decidable (frame.Gets key) :=
  match request : KvRequest.ofFrame frame with
  | some (.get id) =>
      decidable_of_iff (frame.name = key) ⟨fun name => ⟨name, id, request⟩, And.left⟩
  | none => .isFalse (by simp [Frame.Gets, request])
  | some (.set _) => .isFalse (by simp [Frame.Gets, request])
  | some (.setex _ _) => .isFalse (by simp [Frame.Gets, request])
  | some .del => .isFalse (by simp [Frame.Gets, request])
  | some (.incr _ _) => .isFalse (by simp [Frame.Gets, request])
  | some (.setnx _ _ _) => .isFalse (by simp [Frame.Gets, request])

/-- The number of gets of the key that the daemon has still to answer. -/
def Device.gets (key : Bytes) (session : Nat) (device : Device Client) : Nat :=
  (device.uplink session).countP fun frame => frame.Gets key

/-- The gets of the constructor come first, and only the link of the session writes. -/
structure Device.Orderly (key : Bytes) (session : Nat) (device : Device Client) : Prop where
  alone : ∀ other, other ≠ session → device.uplink other = []
  pending : ∀ frame ∈ device.link.peerPending, ¬ frame.Gets key
  order : ∃ asked orders, device.uplink session = asked ++ orders ∧
    (∀ frame ∈ asked, frame.command = none) ∧ ∀ frame ∈ orders, ¬ frame.Gets key

/-- A step of the device that leaves what its link writes to the daemon. -/
theorem Device.Orderly.same (orderly : device.Orderly key session) {next : Device Client}
    (uplink : next.uplink = device.uplink)
    (pending : next.link.peerPending = device.link.peerPending) : next.Orderly key session := by
  refine ⟨?_, ?_, ?_⟩
  · rw [uplink]
    exact orderly.alone
  · rw [pending]
    exact orderly.pending
  · rw [uplink]
    exact orderly.order

theorem Device.Orderly.peerFrame (orderly : device.Orderly key session) (config : LinkConfig)
    (frame : Frame) :
    { device with link := device.link.peerFrame config frame }.Orderly key session := by
  refine ⟨orderly.alone, ?_, orderly.order⟩
  intro write member
  rcases peerFrame_pending member with before | ⟨name, payload, rfl⟩ | ⟨change, -, rfl⟩
  · exact orderly.pending write before
  · exact publish_gets name payload key
  · exact change_gets change key

theorem Device.Orderly.peerSend (orderly : device.Orderly key session) :
    (device.peerSend session).Orderly key session ∧
      (device.peerSend session).gets key session = device.gets key session := by
  unfold Device.peerSend
  split
  · rename_i frame pending _
    have quiet : ¬ frame.Gets key := orderly.pending frame pending
    refine ⟨⟨?_, by simp, ?_⟩, ?_⟩
    · intro other different
      exact (Function.update_of_ne different ..).trans (orderly.alone other different)
    · obtain ⟨asked, orders, split, silent, ordered⟩ := orderly.order
      refine ⟨asked, orders ++ [frame], ?_, silent, all_append_singleton ordered quiet⟩
      dsimp only
      rw [Function.update_self, split, List.append_assoc]
    · simp only [Device.gets, Function.update_self, List.countP_append]
      simp [quiet]
  · exact ⟨orderly, rfl⟩

theorem gets_pos {device : Device Client} {session : Nat} {frame : Frame} {rest : List Frame}
    (queued : device.uplink session = frame :: rest) (gets : frame.Gets key) :
    0 < device.gets key session := by
  rw [Device.gets, queued, List.countP_cons, if_pos (decide_eq_true gets)]
  exact Nat.succ_pos _

/-- The startup of a link asks once for each listing of the key. -/
theorem Device.gets_startLink (config : LinkConfig) (device : Device Client) :
    (device.startLink config session).gets key session = config.keys.count key := by
  have topics : (config.topics.map fun topic => Msg.subscribe.frame topic []).countP
      (fun frame => frame.Gets key) = 0 := by
    rw [List.countP_eq_zero]
    intro frame member
    obtain ⟨topic, -, rfl⟩ := List.mem_map.mp member
    simp [Frame.Gets, KvRequest.ofFrame]
  have keys : (config.keys.zipIdx.map fun entry =>
      Msg.kvGet.frame entry.1 (appendU32 [] entry.2)).countP (fun frame => frame.Gets key) =
        config.keys.count key := by
    have names : (config.keys.zipIdx.map Prod.fst).countP (fun name => name == key) =
        config.keys.count key := by
      rw [List.zipIdx_map_fst]
      rfl
    rw [← names, List.countP_map, List.countP_map]
    apply List.countP_congr
    intro entry _
    simp [Frame.Gets, KvRequest.ofFrame, appendU32, littleEndian_length]
  rw [Device.gets, Device.startLink]
  simp only [Function.update_self, LinkConfig.startup, List.countP_append, topics, keys,
    Nat.zero_add]

theorem Device.Orderly.startLink (config : LinkConfig)
    (alone : ∀ other, other ≠ session → device.uplink other = []) :
    (device.startLink config session).Orderly key session := by
  refine ⟨?_, by simp [Device.startLink, Link.start], ?_⟩
  · intro other different
    exact (Function.update_of_ne different ..).trans (alone other different)
  · refine ⟨config.startup, [], ?_, fun _ => startup_command, by simp⟩
    exact (Function.update_self ..).trans (List.append_nil _).symm

/-- Both links ask before they write. -/
def Federation.Orderly (key : Bytes) (federation : Federation Client) : Prop :=
  ∀ side, (federation.device side).Orderly key federation.session

variable {federation : Federation Client}

theorem Federation.Orderly.update (orderly : federation.Orderly key) (side : Side)
    {device : Device Client} (here : device.Orderly key federation.session) :
    (federation.update side device).Orderly key := by
  intro other
  by_cases same : other = side
  · subst other
    rw [update_device_self]
    exact here
  · rw [update_device_of_ne _ same]
    exact orderly other

/-- A link that does not watch the key has still to ask for it. -/
theorem gets_pos_of_unwatched {config : Side → LinkConfig} {side : Side}
    (accounted : federation.Accounted config)
    (listed : key ∈ (config side).keys)
    (unwatched : ¬ (federation.device side).store.Watches (.inl federation.session) key) :
    0 < (federation.device side).gets key federation.session := by
  obtain ⟨asked, orders, split, -, -, primed⟩ := (accounted side).primed
  obtain ⟨id, member⟩ := (primed key listed).resolve_left unwatched
  rw [Device.gets, split, List.countP_pos_iff]
  refine ⟨_, List.mem_append_left _ member, ?_⟩
  simp [Frame.Gets, KvRequest.ofFrame, appendU32, littleEndian_length]

theorem update_uplink {here : Side} {device : Device Client}
    (uplink : device.uplink = (federation.device here).uplink) (side : Side) :
    ((federation.update here device).device side).uplink = (federation.device side).uplink := by
  by_cases same : side = here
  · subst here
    rw [update_device_self]
    exact uplink
  · rw [update_device_of_ne _ same]

theorem Federation.Orderly.peerRead (orderly : federation.Orderly key)
    (config : Side → LinkConfig) (side : Side) : (federation.peerRead config side).Orderly key := by
  unfold Federation.peerRead
  dsimp only
  split
  · rename_i frame rest _ _ _
    split
    · have far : (federation.update side.other
          { federation.device side.other with
            link := { (federation.device side.other).link with toPeer := rest } }).Orderly key :=
        orderly.update side.other ((orderly side.other).same rfl rfl)
      exact far.update side ((orderly side).peerFrame (config side) frame)
    · exact orderly.update side ((orderly side).same rfl rfl)
  · exact orderly

variable [DecidableEq Client]

theorem Device.Orderly.serve (orderly : device.Orderly key session) (source now later : Nat) :
    (device.serve session source now later).Orderly key session := by
  unfold Device.serve
  split
  · exact orderly
  · rename_i frame rest queued
    have mine : source = session := by
      by_contra different
      rw [orderly.alone source different] at queued
      cases queued
    subst source
    refine ⟨?_, orderly.pending, ?_⟩
    · intro other different
      exact (Function.update_of_ne different ..).trans (orderly.alone other different)
    · obtain ⟨asked, orders, split, silent, ordered⟩ := orderly.order
      rw [queued] at split
      dsimp only [Device.push]
      rw [Function.update_self]
      cases asked with
      | nil =>
          rw [List.nil_append] at split
          subst orders
          refine ⟨[], rest, rfl, by simp, ?_⟩
          intro later member
          exact ordered later (List.mem_cons_of_mem _ member)
      | cons first more =>
          rw [List.cons_append] at split
          cases split
          refine ⟨more, orders, rfl, ?_, ordered⟩
          intro later member
          exact silent later (List.mem_cons_of_mem _ member)

theorem Federation.Orderly.step (config : Side → LinkConfig) (federation : Federation Client)
    (action : FederationAction Client) (orderly : federation.Orderly key) :
    (federation.step config action).Orderly key := by
  cases action with
  | client side _ _ _ _ => exact orderly.update side ((orderly side).same rfl rfl)
  | sweep side _ _ => exact orderly.update side ((orderly side).same rfl rfl)
  | publish side _ _ => exact orderly.update side ((orderly side).same rfl rfl)
  | serve side source now later => exact orderly.update side ((orderly side).serve source now later)
  | localRead side =>
      exact orderly.update side ((orderly side).same rfl (localRead_kept _ _).1)
  | localSend side => exact orderly.update side ((orderly side).same rfl (localSend_kept _).1)
  | peerRead side => exact orderly.peerRead config side
  | peerSend side => exact orderly.update side (orderly side).peerSend.1

/-- The daemon of a side takes the next frame of its link, or its gets stay as they are. -/
theorem step_gets (orderly : federation.Orderly key) (config : Side → LinkConfig)
    (action : FederationAction Client) (side : Side) :
    (∃ now later frame rest, action = .serve side federation.session now later ∧
      (federation.device side).uplink federation.session = frame :: rest ∧
      ((federation.step config action).device side).uplink federation.session = rest) ∨
    (federation.obeyed key side action = [] ∧ ¬ federation.Answers key side action ∧
      ((federation.step config action).device side).gets key federation.session =
        (federation.device side).gets key federation.session) := by
  by_cases serves : ∃ now later frame rest, action = .serve side federation.session now later ∧
      (federation.device side).uplink federation.session = frame :: rest
  · obtain ⟨now, later, frame, rest, rfl, queued⟩ := serves
    refine .inl ⟨now, later, frame, rest, rfl, queued, ?_⟩
    rw [Federation.step, update_device_self]
    simp only [Device.serve, queued, Device.push, Function.update_self]
  · have idle : ¬ federation.Answers key side action := by
      rintro ⟨now, later, frame, rest, same, queued, _⟩
      exact serves ⟨now, later, frame, rest, same, queued⟩
    refine .inr ⟨?_, idle, ?_⟩
    · rcases obeyed_cases key federation side action with
        none | ⟨now, later, frame, rest, _, same, queued, _, _, _⟩
      · exact none
      · exact absurd ⟨now, later, frame, rest, same, queued⟩ serves
    · have unchanged (same : ((federation.step config action).device side).uplink =
          (federation.device side).uplink) :
          ((federation.step config action).device side).gets key federation.session =
            (federation.device side).gets key federation.session := by
        rw [Device.gets, same]
        rfl
      cases action with
      | peerRead here => exact unchanged (peerRead_store config federation here side).2
      | peerSend here =>
          by_cases same : side = here
          · subst here
            rw [Federation.step, update_device_self]
            exact (orderly side).peerSend.2
          · exact unchanged (by rw [Federation.step, update_device_of_ne _ same])
      | serve here source now later =>
          apply unchanged
          by_cases same : side = here
          · subst here
            have empty : (federation.device side).uplink source = [] := by
              by_cases mine : source = federation.session
              · subst source
                cases queued : (federation.device side).uplink federation.session with
                | nil => rfl
                | cons frame rest => exact absurd ⟨now, later, frame, rest, rfl, queued⟩ serves
              · exact (orderly side).alone source mine
            rw [Federation.step, update_device_self]
            simp only [Device.serve, empty]
          · rw [Federation.step, update_device_of_ne _ same]
      | client here _ _ _ _ | sweep here _ _ | publish here _ _ | localRead here
      | localSend here =>
          apply unchanged
          rw [Federation.step]
          apply update_uplink
          rfl

/-- Gets are only answered. When the first command is served, no get is left. -/
theorem gets_step (orderly : federation.Orderly key) (config : Side → LinkConfig)
    (action : FederationAction Client) (side : Side) :
    ((federation.step config action).device side).gets key federation.session ≤
        (federation.device side).gets key federation.session ∧
      (federation.Answers key side action →
        ((federation.step config action).device side).gets key federation.session + 1 =
          (federation.device side).gets key federation.session) ∧
      (federation.obeyed key side action ≠ [] →
        ((federation.step config action).device side).gets key federation.session = 0) := by
  rcases step_gets orderly config action side with
    ⟨now, later, frame, rest, rfl, queued, left⟩ | ⟨none, idle, same⟩
  · simp only [Device.gets, queued, left, List.countP_cons]
    refine ⟨Nat.le_add_right _ _, ?_, ?_⟩
    · rintro ⟨_, _, _, _, _, waiting, gets⟩
      rw [queued] at waiting
      cases waiting
      rw [if_pos (decide_eq_true gets)]
    · intro obeyed
      rcases obeyed_cases key federation side (.serve side federation.session now later) with
        none | ⟨_, _, _, _, change, -, waiting, command, -, -⟩
      · exact absurd none obeyed
      · rw [queued] at waiting
        cases waiting
        obtain ⟨asked, orders, split, silent, ordered⟩ := (orderly side).order
        rw [queued] at split
        cases asked with
        | nil =>
            rw [List.nil_append] at split
            subst orders
            rw [List.countP_eq_zero]
            intro later member
            simpa using ordered later (List.mem_cons_of_mem _ member)
        | cons first more =>
            rw [List.cons_append] at split
            cases split
            rw [silent frame List.mem_cons_self] at command
            cases command
  · exact ⟨same.le, fun answers => absurd answers idle, fun obeyed => absurd none obeyed⟩

variable {side : Side} {action : FederationAction Client}

/-- A daemon that does not have the key answers the gets of its link with nothing. -/
theorem seeded_of_unseeded (config : Side → LinkConfig)
    (unseeded : 0 < (federation.device side).gets key federation.session →
      (federation.device side).store.kv key = none)
    (calm : federation.stirred key side action = []) : federation.seeded key side action = [] := by
  by_cases answers : federation.Answers key side action
  · have performed := performed_eq key federation side action
    rw [obeyed_of_answers answers, calm] at performed
    rw [seeded_of_answers config answers, step_kv, performed]
    obtain ⟨_, _, frame, rest, _, queued, gets⟩ := answers
    rw [List.append_nil, List.foldl_nil, unseeded (gets_pos queued gets)]
    rfl
  · exact seeded_eq_nil answers

/-- A daemon that changes the key only on command does not have it before the last get. -/
theorem unseeded_step (config : Side → LinkConfig) (orderly : federation.Orderly key)
    (unseeded : 0 < (federation.device side).gets key federation.session →
      (federation.device side).store.kv key = none)
    (calm : federation.stirred key side action = []) :
    0 < ((federation.step config action).device side).gets key
      (federation.step config action).session →
      ((federation.step config action).device side).store.kv key = none := by
  rw [step_session, step_kv, performed_eq, calm, List.append_nil]
  obtain ⟨fewer, -, last⟩ := gets_step orderly config action side
  intro left
  have uncommanded : federation.obeyed key side action = [] := by
    by_contra commanded
    rw [last commanded] at left
    exact Nat.lt_irrefl 0 left
  rw [uncommanded]
  exact unseeded (left.trans_le fewer)

end Chappe
