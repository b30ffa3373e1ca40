/-
This file proves that two joined devices agree on a key at rest when each change of the key starts
while none is on its way to its device.
-/

import Chappe.Proof.Link.Transit

namespace Chappe
open Foundation

variable {Client : Type} {config : Side → LinkConfig} {key : Bytes} {federation : Federation Client}
  {side : Side} {action : FederationAction Client} {change : Change}

/-- What holds of the links in every state of a session. A link that does not watch the key has sent
nothing about it. -/
structure Federation.Regular (config : Side → LinkConfig) (key : Bytes)
    (federation : Federation Client) : Prop where
  accounted : federation.Accounted config
  greets : federation.Greets config
  orderly : federation.Orderly key
  untold : ∀ side, ¬ (federation.device side).store.Watches (.inl federation.session) key →
    federation.moving key side = []

/-- The two devices agree on the key, and all that is on its way is the value that they have. -/
structure Federation.Calm (key : Bytes) (federation : Federation Client) : Prop where
  agree : ∀ side, (federation.device side.other).store.kv key =
    (federation.device side).store.kv key
  carried : ∀ side, ∀ change ∈ federation.moving key side,
    change ∈ ((federation.device side).store.kv key).toList.map (.set key)

/-- Nothing about the key is on its way to the side, which has what the other side will have. As
long as its link does not watch the key, its value is still to be sent. -/
structure Federation.Led (key : Bytes) (side : Side) (federation : Federation Client) : Prop where
  clear : federation.Clear key side
  unseeded : 0 < (federation.device side.other).gets key federation.session →
    (federation.device side.other).store.kv key = none
  ahead : (federation.device side).store.Watches (.inl federation.session) key →
    (federation.device side).store.kv key = (federation.onWay key side).foldl Change.apply
      ((federation.device side.other).store.kv key)
  behind : ¬ (federation.device side).store.Watches (.inl federation.session) key →
    (federation.device side).store.kv key = none →
    (federation.device side.other).store.kv key = none

/-- One device is ahead of the other, or both are at rest. -/
structure Federation.Converging (config : Side → LinkConfig) (key : Bytes)
    (federation : Federation Client) : Prop where
  regular : federation.Regular config key
  phase : federation.Calm key ∨ ∃ side, federation.Led key side

theorem foldl_value {value : Option Bytes} {changes : List Change}
    (all : ∀ change ∈ changes, change ∈ value.toList.map (.set key)) :
    changes.foldl Change.apply value = value := by
  induction changes with
  | nil => rfl
  | cons first rest ih =>
      obtain ⟨bytes, present, rfl⟩ := List.mem_map.mp (all first List.mem_cons_self)
      rw [Option.mem_toList] at present
      subst present
      exact ih fun change member => all change (List.mem_cons_of_mem _ member)

theorem foldl_eq_none {changes : List Change} {value : Option Bytes}
    (about : ∀ change ∈ changes, change.key = key)
    (absent : changes.foldl Change.apply value = none) :
    (changes = [] ∧ value = none) ∨ changes.getLast? = some (.del key) := by
  rcases changes.eq_nil_or_concat' with rfl | ⟨before, last, rfl⟩
  · exact .inl ⟨rfl, absent⟩
  · right
    have here := about last (List.mem_append_right _ (List.mem_singleton_self _))
    rw [List.foldl_append, List.foldl_cons, List.foldl_nil] at absent
    cases last with
    | set name value => cases absent
    | del name =>
        cases here
        exact List.getLast?_concat

/-- A device with nothing on its way to it takes the lead. -/
theorem Federation.Calm.lead (calm : federation.Calm key) (clear : federation.Clear key side)
    (unseeded : 0 < (federation.device side.other).gets key federation.session →
      (federation.device side.other).store.kv key = none) : federation.Led key side := by
  refine ⟨clear, unseeded, fun _ => ?_, fun _ absent => (calm.agree side).trans absent⟩
  rw [calm.agree side]
  exact (foldl_value fun change member =>
    calm.carried side change (mem_moving_of_onWay member)).symm

theorem Federation.Converging.joined {store : Side → Store (Nat ⊕ Client)}
    (agree : (store .a).kv key = (store .b).kv key) :
    (Federation.joined config store).Converging config key := by
  have still (side : Side) : (Federation.joined config store).moving key side = [] := by
    refine List.append_eq_nil_iff.mpr ⟨startLink_inbound _ _ _, ?_⟩
    exact List.append_eq_nil_iff.mpr ⟨List.append_eq_nil_iff.mpr ⟨hello_asks _, rfl⟩, rfl⟩
  refine ⟨⟨fun _ => Device.Accounted.startLink _ _ _, .joined config store, ?_, ?_⟩, .inl ⟨?_, ?_⟩⟩
  · exact fun side => Device.Orderly.startLink (config side) fun _ _ => rfl
  · exact fun side _ => still side
  · intro side
    cases side with
    | a => exact agree.symm
    | b => exact agree
  · intro side change member
    rw [still side] at member
    cases member

variable [DecidableEq Client]

theorem Federation.Regular.step (regular : federation.Regular config key)
    (action : FederationAction Client) : (federation.step config action).Regular config key where
  accounted := regular.accounted.step config federation action
  greets := regular.greets.step config federation action
  orderly := regular.orderly.step config federation action
  untold := by
    intro side unwatched
    rw [step_session, step_watches, not_or] at unwatched
    obtain ⟨before, idle⟩ := unwatched
    rw [List.eq_nil_iff_forall_not_mem]
    intro change member
    rcases mem_moving_step member with moved | reported
    · rw [regular.untold side before] at moved
      cases moved
    · rw [reported_eq_owes, Federation.owes, if_neg before, seeded_eq_nil idle] at reported
      cases reported

/-- Without a change of its own, a device keeps the value. -/
theorem Federation.Calm.step (calm : federation.Calm key)
    (unstirred : ∀ side, federation.stirred key side action = []) :
    (federation.step config action).Calm key := by
  have performed (side : Side) : federation.performed key side action =
      federation.obeyed key side action := by
    rw [performed_eq, unstirred, List.append_nil]
  have obeyed (side : Side) : ∀ change ∈ federation.obeyed key side action,
      change ∈ ((federation.device side).store.kv key).toList.map (.set key) := by
    intro change member
    rw [← calm.agree side]
    exact calm.carried side.other change (mem_moving_of_obeyed member)
  have kept (side : Side) : ((federation.step config action).device side).store.kv key =
      (federation.device side).store.kv key := by
    rw [step_kv, performed]
    exact foldl_value (obeyed side)
  refine ⟨fun side => ?_, fun side change member => ?_⟩
  · rw [kept, kept]
    exact calm.agree side
  · rcases mem_moving_step member with moved | reported
    · rw [kept]
      exact calm.carried side change moved
    · rw [reported_eq_owes, Federation.owes, List.mem_append] at reported
      rcases reported with told | seeded
      · rw [kept]
        split at told
        · exact obeyed side change (performed side ▸ told)
        · cases told
      · by_cases answers : federation.Answers key side action
        · rw [seeded_of_answers config answers] at seeded
          exact seeded
        · rw [seeded_eq_nil answers] at seeded
          cases seeded

theorem mem_performed (member : change ∈ federation.performed key side action) :
    change.key = key := by
  unfold Federation.performed at member
  split at member
  · split at member
    · exact (mem_about.mp member).2
    · cases member
  · dsimp only at member
    split at member
    · exact (mem_about.mp member).2
    · cases member
  · split at member
    · split at member
      · cases member
      · exact (mem_about.mp member).2
    · cases member
  · cases member

/-- A leading device stays in the lead when it changes the key and the other device only obeys. -/
theorem Federation.Led.step (led : federation.Led key side)
    (regular : federation.Regular config key) (listed : ∀ side, key ∈ (config side).keys)
    (calm : federation.stirred key side.other action = [])
    (lasting : (federation.stirred key side action).getLast? = some (.del key) →
      (federation.device side).store.Watches (.inl federation.session) key ∨
        (federation.device side.other).store.kv key = none) :
    (federation.step config action).Led key side := by
  have unasked := seeded_of_unseeded config led.unseeded calm
  have echoes := reported_eq_obeyed (listed side.other) (regular.accounted side.other) calm unasked
  have flows := led.clear.step listed regular.accounted regular.greets action echoes
  have far : ((federation.step config action).device side.other).store.kv key =
      (federation.obeyed key side.other action).foldl Change.apply
        ((federation.device side.other).store.kv key) := by
    rw [step_kv, performed_eq, calm, List.append_nil]
  have meets : ((federation.step config action).onWay key side).foldl Change.apply
      (((federation.step config action).device side.other).store.kv key) =
        (federation.owes key side action).foldl Change.apply
          ((federation.onWay key side).foldl Change.apply
            ((federation.device side.other).store.kv key)) := by
    rw [far, ← List.foldl_append, ← flows.flow, reported_eq_owes, List.foldl_append]
  have watching := step_watches key config federation action side
  by_cases before : (federation.device side).store.Watches (.inl federation.session) key
  · refine ⟨flows.clear, unseeded_step config regular.orderly led.unseeded calm, ?_, ?_⟩
    · intro _
      have learned := learned_step key config federation action side
      rw [Federation.learned, step_session, if_pos (watching.mpr (.inl before)),
        Federation.learned, if_pos before, led.ahead before] at learned
      rw [learned, meets]
    · rw [step_session]
      intro unwatched
      exact absurd (watching.mpr (.inl before)) unwatched
  · have empty : federation.onWay key side = [] := onWay_of_moving (regular.untold side before)
    have uncommanded : federation.obeyed key side action = [] := by
      by_contra commanded
      exact before (watches_of_obeyed (listed side) (regular.accounted side) commanded)
    have fallen : ((federation.step config action).device side).store.kv key = none →
        (federation.device side.other).store.kv key = none := by
      rw [step_kv, performed_eq, uncommanded, List.nil_append]
      intro absent
      have about : ∀ change ∈ federation.stirred key side action, change.key = key := by
        intro change member
        have performed : change ∈ federation.performed key side action := by
          rw [performed_eq]
          exact List.mem_append_right _ member
        exact mem_performed performed
      rcases foldl_eq_none about absent with ⟨-, lacking⟩ | deleted
      · exact led.behind before lacking
      · exact (lasting deleted).resolve_left before
    rw [empty, List.foldl_nil, Federation.owes, if_neg before, List.nil_append] at meets
    refine ⟨flows.clear, unseeded_step config regular.orderly led.unseeded calm, ?_, ?_⟩
    · rw [step_session]
      intro watches
      have answers := (watching.mp watches).resolve_left before
      rw [meets, seeded_of_answers config answers]
      exact (foldl_seed _ _ fallen).symm
    · rw [step_session]
      intro unwatched absent
      have idle : ¬ federation.Answers key side action :=
        fun answers => unwatched (watching.mpr (.inr answers))
      have still := flows.flow
      rw [empty, reported_eq_owes, Federation.owes, if_neg before, seeded_eq_nil idle] at still
      rw [far, (List.append_eq_nil_iff.mp still.symm).1]
      exact fallen absent

/-- The lead changes when nothing is left on its way. -/
theorem Federation.Led.turn (led : federation.Led key side)
    (regular : federation.Regular config key) (listed : key ∈ (config side).keys)
    (clear : federation.Clear key side.other)
    (unseeded : 0 < (federation.device side).gets key federation.session →
      (federation.device side).store.kv key = none) : federation.Led key side.other := by
  have agree : (federation.device side).store.kv key =
      (federation.device side.other).store.kv key := by
    by_cases watches : (federation.device side).store.Watches (.inl federation.session) key
    · rw [led.ahead watches, onWay_of_clear clear]
      rfl
    · have absent := unseeded (gets_pos_of_unwatched regular.accounted listed watches)
      rw [absent, led.behind watches absent]
  have back : federation.Clear key side.other.other := by
    rw [Side.other_other]
    exact led.clear
  refine ⟨clear, ?_, fun _ => ?_, fun _ absent => ?_⟩
  · rw [Side.other_other]
    exact unseeded
  · rw [onWay_of_clear back, Side.other_other]
    exact agree.symm
  · rw [Side.other_other]
    exact agree.trans absent

/-- A change of the key that a daemon performs for another reason than a command of its link starts
while nothing about the key is on its way to the device, and while the other daemon has no get of
its link for a key that it has left. A deletion starts after the link watches the key, or the other
device lacks the key. -/
def Federation.Undisturbed (key : Bytes) (federation : Federation Client)
    (action : FederationAction Client) : Prop :=
  ∀ side, federation.stirred key side action ≠ [] →
    federation.Clear key side ∧
      (0 < (federation.device side.other).gets key federation.session →
        (federation.device side.other).store.kv key = none) ∧
      ((federation.stirred key side action).getLast? = some (.del key) →
        (federation.device side).store.Watches (.inl federation.session) key ∨
          (federation.device side.other).store.kv key = none)

theorem undisturbed_of_unstirred (unstirred : ∀ side, federation.stirred key side action = []) :
    federation.Undisturbed key action :=
  fun side stirred => absurd (unstirred side) stirred

/-- A step changes the key on one device. -/
theorem stirred_other (stirred : federation.stirred key side action ≠ []) :
    federation.stirred key side.other action = [] := by
  have performed : federation.performed key side action ≠ [] := by
    rw [performed_eq]
    exact fun none => stirred (List.append_eq_nil_iff.mp none).2
  have none : federation.performed key side.other action = [] := by
    cases action with
    | client here _ _ _ _ | sweep here _ _ | serve here _ _ _ =>
        by_cases same : here = side
        · exact if_neg (same ▸ here.other_ne.symm)
        · exact absurd (if_neg same) performed
    | _ => rfl
  rw [performed_eq] at none
  exact (List.append_eq_nil_iff.mp none).2

theorem Federation.Converging.step (converging : federation.Converging config key)
    (listed : ∀ side, key ∈ (config side).keys) (undisturbed : federation.Undisturbed key action) :
    (federation.step config action).Converging config key := by
  have regular := converging.regular
  refine ⟨regular.step action, ?_⟩
  by_cases unstirred : ∀ side, federation.stirred key side action = []
  · rcases converging.phase with calm | ⟨side, led⟩
    · exact .inl (calm.step unstirred)
    · refine .inr ⟨side, led.step regular listed (unstirred side.other) ?_⟩
      rw [unstirred side]
      intro deleted
      cases deleted
  · obtain ⟨side, stirred⟩ := not_forall.mp unstirred
    obtain ⟨clear, unseeded, lasting⟩ := undisturbed side stirred
    have led : federation.Led key side := by
      rcases converging.phase with calm | ⟨leader, led⟩
      · exact calm.lead clear unseeded
      · rcases leader.eq_or_other side with rfl | rfl
        · exact led
        · rw [Side.other_other] at unseeded
          exact led.turn regular (listed leader) clear unseeded
    exact .inr ⟨side, led.step regular listed (stirred_other stirred) lasting⟩

/-- In every run of one session in which both links carry the key, the two devices start with the
same value of the key and every change of it starts undisturbed, the two devices have the same value
whenever nothing is on its way. -/
theorem federated_key_converges (config : Side → LinkConfig) (key : Bytes)
    (listed : ∀ side, key ∈ (config side).keys) (store : Side → Store (Nat ⊕ Client))
    (agree : (store .a).kv key = (store .b).kv key) (actions : List (FederationAction Client))
    (undisturbed : Meets (Federation.step config) (Federation.Undisturbed key)
      (.joined config store) actions) :
    let federation := run (Federation.step config) (.joined config store) actions
    (∀ side, (federation.device side).Quiet federation.session) →
      (federation.device .a).store.kv key = (federation.device .b).store.kv key := by
  intro federation quiet
  have last : federation.Converging config key :=
    run_invariant_of_meets (fun _ _ converging met => converging.step listed met) actions _
      (.joined agree) undisturbed
  have same : ∃ side, (federation.device side).store.kv key =
      (federation.device side.other).store.kv key := by
    rcases last.phase with calm | ⟨side, led⟩
    · exact ⟨.a, (calm.agree .a).symm⟩
    · refine ⟨side, ?_⟩
      have watches := (quiet side).watches last.regular.accounted (listed side)
      rw [led.ahead watches, Device.Quiet.onWay quiet]
      rfl
  obtain ⟨side, equal⟩ := same
  cases side with
  | a => exact equal
  | b => exact equal.symm

theorem federated_key_converges_small :
    (let federation := run (Federation.step smallLink) (.joined smallLink fun _ => .empty)
        localWrite
     Meets (Federation.step smallLink) (Federation.Undisturbed [7])
        (.joined smallLink fun _ => .empty) localWrite ∧
      (federation.device .a).store.kv [7] = some [1] ∧
      (federation.device .a).store.kv [7] = (federation.device .b).store.kv [7]) := by
  have calm {federation : Federation Unit} {action : FederationAction Unit}
      (unstirred : federation.stirred [7] .a action = [] ∧ federation.stirred [7] .b action = []) :
      federation.Undisturbed [7] action := by
    apply undisturbed_of_unstirred
    intro side
    cases side with
    | a => exact unstirred.1
    | b => exact unstirred.2
  have undisturbed : Meets (Federation.step smallLink) (Federation.Undisturbed [7])
      (.joined smallLink fun _ => .empty) localWrite := by
    refine ⟨calm (by decide), calm (by decide), calm (by decide), calm (by decide),
      calm (by decide), calm (by decide), ?_, calm (by decide), calm (by decide),
      calm (by decide), calm (by decide), calm (by decide), calm (by decide), True.intro⟩
    intro side stirred
    cases side with
    | a =>
        refine ⟨⟨by decide, by decide, by decide, ?_⟩, by decide, by decide⟩
        intro change _
        rfl
    | b => exact absurd (by decide) stirred
  refine ⟨undisturbed, by decide, federated_key_converges smallLink [7]
    (fun _ => List.mem_singleton_self _) (fun _ => .empty) rfl localWrite undisturbed ?_⟩
  intro side
  cases side <;> exact ⟨by decide, by decide, by decide, by decide, by decide⟩

/-- A client of the first device writes the key before the daemon of the second one answers the get
of its link. The old value of the second device and the new one of the first device cross. -/
def seedCrosses : List (FederationAction Unit) :=
  [.serve .a 0 0 0, .client .a () (Msg.kvSet.frame [7] [2]) 0 0, .serve .b 0 0 0, .localRead .b,
    .localSend .b, .localRead .a, .localSend .a, .localRead .a, .localSend .a, .peerRead .a,
    .peerRead .b, .peerRead .a, .peerSend .a, .serve .a 0 0 0, .localRead .a, .peerRead .b,
    .peerSend .b, .serve .b 0 0 0, .localRead .b, .peerRead .b, .peerSend .b, .serve .b 0 0 0,
    .localRead .b]

/-- Both devices start with the same value, only one of them writes the key, and they end with
different values although nothing is on its way. -/
theorem federated_key_diverges :
    (let store : Side → Store (Nat ⊕ Unit) := fun _ => (Store.empty.store [7] [1] 0 0).1
     let federation := run (Federation.step smallLink) (.joined smallLink store) seedCrosses
     (∀ side, [7] ∈ (smallLink side).keys) ∧ (store .a).kv [7] = (store .b).kv [7] ∧
      (∀ side, (federation.device side).Quiet federation.session) ∧
      (federation.device .a).store.kv [7] = some [1] ∧
      (federation.device .b).store.kv [7] = some [2]) := by
  refine ⟨fun _ => List.mem_singleton_self _, rfl, ?_, by decide +kernel, by decide +kernel⟩
  intro side
  cases side <;> exact ⟨by decide +kernel, by decide +kernel, by decide +kernel,
    by decide +kernel, by decide +kernel⟩

end Chappe
