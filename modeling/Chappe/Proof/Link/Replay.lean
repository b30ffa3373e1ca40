/-
This file proves that within one session the other device replays what the owning device tells its
link about the key.
-/

import Chappe.Proof.Link.OwnerSessions
import Chappe.Proof.Link.Startup

namespace Chappe
open Foundation

variable {Client : Type} {config : Side → LinkConfig} {key : Bytes}
  {federation : Federation Client} {action : FederationAction Client}

/-- Every change of the key on the other device comes from the owning one, and none goes back. -/
structure Federation.Replays (config : Side → LinkConfig) (key : Bytes)
    (federation : Federation Client) : Prop where
  kept : federation.Kept config key
  accounted : federation.Accounted config
  greets : federation.Greets config
  orderly : federation.Orderly key
  clear : federation.Clear key .a
  unseeded : 0 < (federation.device .b).gets key federation.session →
    (federation.device .b).store.kv key = none
  silent : asks key (federation.device .b).link.sent = []

theorem Federation.Replays.seedsNothing (replays : federation.Replays config key) :
    SeedsNothing key federation (.step action) := by
  cases action with
  | serve side source now later =>
      cases side with
      | a => exact True.intro
      | b =>
          intro _ _ frame rest queued gets
          refine ⟨replays.unseeded (gets_pos queued gets), ?_⟩
          intro earlier different write member
          rw [(replays.orderly .b).alone earlier different] at member
          cases member
  | _ => exact True.intro

theorem Federation.Replays.joined {store : Side → Store (Nat ⊕ Client)}
    (absent : AgreeAt key (store .b) .empty)
    (unlinked : ∀ session name, ¬ (store .b).Watches (.inl session) name) :
    (Federation.joined config store).Replays config key where
  kept := .joined absent.expires unlinked
  accounted := fun _ => Device.Accounted.startLink _ _ _
  greets := .joined config store
  orderly := fun side => Device.Orderly.startLink (config side) fun _ _ => rfl
  clear := .joined config store .a
  unseeded := fun _ => absent.kv
  silent := rfl

variable [DecidableEq Client]

/-- The daemon of the other device changes the key only on command of its link. -/
theorem Federation.Kept.unstirred (kept : federation.Kept config key)
    (orderly : federation.Orderly key) (owned : OwnedByA key (.step action)) :
    federation.stirred key .b action = [] := by
  have forever := kept.follows.forever
  unfold Federation.stirred
  split
  · rename_i uncommanded
    rcases step_store key config federation action .b with
      ⟨client, frame, now, later, rfl⟩ | ⟨order, now, rfl⟩ |
        ⟨source, now, later, frame, rest, rfl, queued⟩ | ⟨-, none, -⟩
    · simp only [Federation.performed, if_true]
      exact performed_forever forever (Frame.fromLink_of_reads owned)
        (Frame.spares_of_reads owned) now
    · simp only [Federation.performed, if_true]
      exact sweepPerformed_forever now _ _ forever
    · have mine : source = federation.session := by
        by_contra different
        rw [(orderly .b).alone source different] at queued
        cases queued
      subst source
      simp only [Federation.obeyed, true_and, if_true, queued] at uncommanded
      simp only [Federation.performed, if_true, queued]
      have shape := kept.follows.shape federation.session frame (by simp [queued])
      exact performed_forever forever (fun _ => shape) (asks_eq_nil_iff.mp uncommanded) now
    · exact none
  · rfl

/-- A link that has nothing to forward about the key sends nothing about it. -/
theorem Federation.Clear.sent {side : Side} (clear : federation.Clear key side)
    (config : Side → LinkConfig) (action : FederationAction Client)
    (silent : asks key (federation.device side.other).link.sent = []) :
    asks key ((federation.step config action).device side.other).link.sent = [] := by
  have kept {here : Side} {device : Device Client}
      (same : device.link.sent = (federation.device here).link.sent) :
      asks key ((federation.update here device).device side.other).link.sent = [] := by
    by_cases mine : side.other = here
    · subst here
      rw [update_device_self, same]
      exact silent
    · rw [update_device_of_ne _ mine]
      exact silent
  cases action with
  | client here _ _ _ _ => exact kept rfl
  | sweep here _ _ => exact kept rfl
  | publish here _ _ => exact kept rfl
  | serve here source now later =>
      apply kept
      unfold Device.serve
      split <;> rfl
  | localRead here => exact kept (localRead_sent _ _)
  | localSend here =>
      by_cases mine : side.other = here
      · subst here
        rw [Federation.step, update_device_self]
        unfold Link.localSend
        dsimp only
        split
        · rename_i frame pending alive
          have quiet := clear.mute.localPending
          rw [pending] at quiet
          dsimp only
          rw [asks_append, silent]
          exact quiet
        · exact silent
      · rw [Federation.step, update_device_of_ne _ mine]
        exact silent
  | peerRead here =>
      simp only [Federation.step, Federation.peerRead]
      split
      · split
        · rcases here.eq_or_other side.other with same | same
          · rw [same, update_device_self, peerFrame_sent, ← same]
            exact silent
          · rw [same, update_device_of_ne _ here.other_ne, update_device_self, ← same]
            exact silent
        · exact kept rfl
      · exact silent
  | peerSend here =>
      apply kept
      obtain ⟨pending, same⟩ := peerSend_link (federation.device here) federation.session
      rw [same]

/-- A step keeps all this. The other daemon performs what its link commands, in the order in which
the owning daemon told it. -/
theorem Federation.Replays.step (replays : federation.Replays config key)
    (listed : ∀ side, key ∈ (config side).keys) (owned : OwnedByA key (.step action)) :
    (federation.step config action).Replays config key ∧
      federation.onWay key .a ++ federation.owes key .a action =
        federation.performed key .b action ++ (federation.step config action).onWay key .a := by
  have calm := replays.kept.unstirred replays.orderly owned
  have performed := performed_eq key federation .b action
  rw [calm, List.append_nil] at performed
  have echoes : federation.reported key .b action = federation.obeyed key .b action :=
    reported_eq_obeyed (listed .b) (replays.accounted .b) calm
      (seeded_of_unseeded config replays.unseeded calm)
  have flows := replays.clear.step listed replays.accounted replays.greets action echoes
  constructor
  · refine ⟨replays.kept.step owned replays.seedsNothing,
      replays.accounted.step config federation action,
      replays.greets.step config federation action,
      replays.orderly.step config federation action, flows.clear, ?_,
      replays.clear.sent config action replays.silent⟩
    exact unseeded_step config replays.orderly replays.unseeded calm
  · rw [← reported_eq_owes, performed]
    exact flows.flow

/-- A link that asks once for the key has no get left when it watches the key. -/
structure Federation.AsksOnce (key : Bytes) (side : Side) (federation : Federation Client) :
    Prop where
  orderly : federation.Orderly key
  once : (federation.device side).gets key federation.session ≤ 1
  asked : (federation.device side).store.Watches (.inl federation.session) key →
    (federation.device side).gets key federation.session = 0

theorem Federation.AsksOnce.step {side : Side} (asks : federation.AsksOnce key side)
    (config : Side → LinkConfig) (action : FederationAction Client) :
    (federation.step config action).AsksOnce key side ∧
      federation.owes key side action =
        if (federation.device side).store.Watches (.inl federation.session) key then
          federation.performed key side action
        else federation.seeded key side action := by
  obtain ⟨fewer, answered, -⟩ := gets_step asks.orderly config action side
  constructor
  · refine ⟨asks.orderly.step config federation action, ?_, ?_⟩
    · rw [step_session]
      exact fewer.trans asks.once
    · rw [step_session]
      intro watches
      rcases (step_watches key config federation action side).mp watches with before | answers
      · exact Nat.le_zero.mp (fewer.trans_eq (asks.asked before))
      · have drops := answered answers
        have once := asks.once
        omega
  · rw [Federation.owes]
    split
    · rename_i watches
      have idle : ¬ federation.Answers key side action := by
        intro answers
        have drops := answered answers
        have none := asks.asked watches
        omega
      rw [seeded_eq_nil idle, List.append_nil]
    · rfl

/-- In every run of one session in which only clients of the first device write the key, the second
device starts without the key and both links carry it, the link of the second device asks for no
change of the key, and the second device performs a prefix of what the daemon of the first one owes
to its link. When nothing is on its way, it has performed all of it, and the two devices have the
same value. A link that lists the key once is owed the value that the key has when its watch is
registered, and every later change. -/
theorem far_device_replays (config : Side → LinkConfig) (key : Bytes)
    (listed : ∀ side, key ∈ (config side).keys) (store : Side → Store (Nat ⊕ Client))
    (absent : AgreeAt key (store .b) .empty)
    (unlinked : ∀ side session name, ¬ (store side).Watches (.inl session) name)
    (actions : List (FederationAction Client))
    (owned : ∀ action ∈ actions, OwnedByA key (.step action)) :
    let start := Federation.joined config store
    let federation := run (Federation.step config) start actions
    (∀ frame ∈ (federation.device .b).link.sent, frame.Spares key) ∧
      start.history config key .b actions <+: start.owed config key .a actions ∧
      ((∀ side, (federation.device side).Quiet federation.session) →
        start.history config key .b actions = start.owed config key .a actions ∧
          (federation.device .a).store.kv key = (federation.device .b).store.kv key) ∧
      ((config .a).keys.count key = 1 →
        start.owed config key .a actions = start.sinceWatch config key .a actions) := by
  intro start federation
  have first : start.Replays config key := .joined absent (unlinked .b)
  have met : Meets (Federation.step config) (fun _ action => OwnedByA key (.step action)) start
      actions := Meets.of_admitted owned
  have always : Meets (Federation.step config) (fun _ _ => True) start actions :=
    Meets.of_admitted fun _ _ => True.intro
  have last : federation.Replays config key :=
    run_invariant_of_meets (fun _ _ replays owned => (replays.step listed owned).1) actions start
      first met
  have queue : start.owed config key .a actions =
      start.history config key .b actions ++ federation.onWay key .a :=
    (congrArg (· ++ _) (onWay_joined config store .a)).symm.trans
      (collect_queue (fun _ _ replays owned => replays.step listed owned) actions start first met)
  have unwatched : ¬ (start.device .a).store.Watches (.inl start.session) key :=
    unlinked .a start.session key
  refine ⟨?_, ⟨_, queue.symm⟩, ?_, ?_⟩
  · intro frame member change command about
    have asked : change ∈ asks key (federation.device .b).link.sent :=
      mem_about.mpr ⟨List.mem_filterMap.mpr ⟨frame, member, command⟩, about⟩
    rw [last.silent] at asked
    cases asked
  · intro quiet
    have equal : start.history config key .b actions = start.owed config key .a actions := by
      rw [queue, Device.Quiet.onWay quiet, List.append_nil]
    refine ⟨equal, ?_⟩
    have here : federation.learned key .a =
        (start.owed config key .a actions).foldl Change.apply (start.learned key .a) :=
      collect_fold (Federation.learned key .a)
        (fun state action => learned_step key config state action .a) actions start
    have there : (federation.device .b).store.kv key =
        (start.history config key .b actions).foldl Change.apply
          ((start.device .b).store.kv key) :=
      collect_fold (fun state => (state.device .b).store.kv key)
        (fun state action => step_kv config state action .b) actions start
    have watches := (quiet .a).watches last.accounted (listed .a)
    have lacking : (start.device .b).store.kv key = none := absent.kv
    rw [Federation.learned, if_pos watches, Federation.learned, if_neg unwatched] at here
    rw [here, there, equal, lacking]
  · intro once
    have asks : start.AsksOnce key .a := by
      refine ⟨first.orderly, ?_, fun watches => absurd watches unwatched⟩
      exact (Device.gets_startLink (config .a) _).le.trans once.le
    exact collect_congr (fun _ action asks _ => asks.step config action) actions start asks always

theorem far_device_replays_small :
    (let start := Federation.joined smallLink fun _ => (.empty : Store (Nat ⊕ Unit))
     let federation := run (Federation.step smallLink) start localWrite
     start.history smallLink [7] .b localWrite = [.set [7] [1]] ∧
      start.owed smallLink [7] .a localWrite = start.sinceWatch smallLink [7] .a localWrite ∧
      (federation.device .a).store.kv [7] = (federation.device .b).store.kv [7]) := by
  have replays := far_device_replays smallLink [7] (fun _ => List.mem_singleton_self _)
    (fun _ => .empty) (.refl [7] _) (by simp [Store.Watches, Store.empty]) localWrite
    (by simp [localWrite, OwnedByA])
  obtain ⟨-, -, quiescent, once⟩ := replays
  refine ⟨by decide, once (by decide), (quiescent ?_).2⟩
  intro side
  cases side <;> exact ⟨by decide, by decide, by decide, by decide, by decide⟩

/-- The link of the first device lists the key `[7]` twice. -/
def twiceListed : Side → LinkConfig
  | .a => ⟨[], [[7], [7]], false, [], 0⟩
  | .b => ⟨[], [[7]], false, [], 0⟩

/-- Both gets of the first link are answered, and it forwards both answers. -/
def seededTwice : List (FederationAction Unit) :=
  [.serve .b 0 0 0, .localRead .b, .peerRead .a, .peerRead .b, .serve .a 0 0 0, .serve .a 0 0 0,
    .localRead .a, .localSend .a, .localRead .a, .localSend .a, .peerRead .b, .peerSend .b,
    .serve .b 0 0 0, .peerRead .b, .peerSend .b, .serve .b 0 0 0]

/-- The second device then performs the value of the key twice. -/
theorem replay_duplicated :
    (let store : Side → Store (Nat ⊕ Unit) := fun side =>
       if side = .a then (Store.empty.store [7] [1] 0 0).1 else .empty
     let start := Federation.joined twiceListed store
     (∀ side, [7] ∈ (twiceListed side).keys) ∧ AgreeAt [7] (store .b) .empty ∧
      (∀ side session name, ¬ (store side).Watches (.inl session) name) ∧
      (∀ action ∈ seededTwice, OwnedByA [7] (.step action)) ∧
      start.history twiceListed [7] .b seededTwice = [.set [7] [1], .set [7] [1]] ∧
      start.sinceWatch twiceListed [7] .a seededTwice = [.set [7] [1]] ∧
      ¬ start.history twiceListed [7] .b seededTwice <+:
        start.sinceWatch twiceListed [7] .a seededTwice) := by
  refine ⟨?_, ⟨rfl, rfl⟩, ?_, ?_, by decide, by decide, by decide⟩
  · intro side
    cases side <;> decide
  · intro side session name
    cases side <;> simp [Store.Watches, Store.empty, Store.store]
  · simp [seededTwice, OwnedByA]

end Chappe
