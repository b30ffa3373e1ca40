/-
This file proves that in every run of a daemon its threads keep to their places, and that each
system call on a client reaches the connection of that client and no other.
-/

import Chappe.Proof.Server.LockOrder
import Chappe.Proof.Server.Teardown

namespace Chappe.Server
open Foundation

variable {Client : Type} [LinearOrder Client] {config : Config} {state after : State Client}
  {code : Worker Client → Code Client} {choice : Choice}

/-- The accept thread stays at its place in the steps of the others. -/
theorem AcceptAt.passive {here : Code Client} (place : AcceptAt state here)
    (accept : .accept ∈ after.finished ↔ .accept ∈ state.finished)
    (seats : ∀ client, client ∉ state.admitted → after.seat client = state.seat client) :
    AcceptAt after here := by
  have lives (before : .accept ∉ state.finished) : .accept ∉ after.finished :=
    fun ended => before (accept.mp ended)
  cases place with
  | looping before => exact .looping (lives before)
  | accepting before => exact .accepting (lives before)
  | admitting before client number place seat early =>
      refine .admitting (lives before) client number place ?_ early
      rw [seats client (by simpa [State.seat] using congrArg Seat.admitted seat)]
      exact seat
  | admitted before => exact .admitted (lives before)
  | finishing before => exact .finishing (lives before)
  | gone ended => exact .gone (accept.mpr ended)

omit [LinearOrder Client] in
theorem SweepAt.passive {here : Code Client} (place : SweepAt state here)
    (sweep : .sweep ∈ after.finished ↔ .sweep ∈ state.finished) : SweepAt after here := by
  cases place with
  | working before plain ends => exact .working (fun ended => before (sweep.mp ended)) plain ends
  | gone ended => exact .gone (sweep.mpr ended)

theorem Entering.seats {here : Code Client} (entering : Entering state here)
    (seats : ∀ client, after.seat client = state.seat client) : Entering after here := by
  refine entering.same fun client outside => ?_
  have seat := seats client
  simp only [State.seat, Seat.mk.injEq, List.contains_eq_mem, decide_eq_decide] at seat
  exact ⟨fun inside => outside (seat.1.mpr inside), seat.2.1⟩

theorem Sound.unseated (sound : Sound config state code) : Unseated state := by
  intro client outside
  obtain ⟨fd, seat, -⟩ := (sound.readers client).waits (by simpa [State.seat] using outside)
  exact ⟨fd, seat⟩

/-- Every step of a thread leaves all threads at their places. -/
theorem Sound.go (sound : Sound config state code) {worker : Worker Client} {next : Code Client}
    (outcome : (decode config choice state (code worker)).outcome state = some (after, next)) :
    Sound config after (Function.update code worker next) := by
  obtain ⟨ops, place, owner⟩ := sound.owner
  cases worker with
  | reader client =>
      obtain ⟨admitted, apart, ledger, there⟩ :=
        reader_step sound.ledger (sound.readers client) outcome
      refine ⟨ledger, ?_, ?_, ?_, ⟨ops, place, ?_⟩, ?_⟩
      · intro other
        by_cases same : other = client
        · subst other
          rwa [Function.update_self]
        · rw [Function.update_of_ne (by simpa using same), apart.seats other same]
          exact sound.readers other
      · rw [Function.update_of_ne (by simp)]
        refine sound.accept.passive (apart.others .accept (by simp)) ?_
        intro other outside
        exact apart.seats other fun same => outside (same ▸ admitted)
      · rw [Function.update_of_ne (by simp)]
        exact sound.sweep.passive (apart.others .sweep (by simp))
      · rw [Function.update_of_ne (by simp)]
        exact owner.passive apart.passive
      · rw [Function.update_of_ne (by simp)]
        refine sound.entering.same fun other outside => ?_
        rw [apart.admitted] at outside
        exact ⟨outside, congrArg Seat.fd (apart.seats other fun same => outside (same ▸ admitted))⟩
  | accept =>
      have listening (lives : .accept ∉ state.finished) : state.listener ≠ .closed := by
        have early := owner.early lives
        intro closed
        have late := owner.closed.mp closed
        omega
      have step := accept_step sound.ledger sound.unseated listening sound.accept outcome
      refine ⟨step.ledger, ?_, ?_, ?_, ⟨ops, place, ?_⟩, ?_⟩
      · intro client
        rw [Function.update_of_ne (by simp)]
        exact step.readers client _ (sound.readers client)
      · rw [Function.update_self]
        exact step.place
      · rw [Function.update_of_ne (by simp)]
        exact sound.sweep.passive step.sweep
      · rw [Function.update_of_ne (by simp)]
        exact step.owner _ _ _ owner
      · rw [Function.update_self]
        exact accept_entering sound.entering sound.accept outcome
  | sweep =>
      have step := sweep_step sound.ledger sound.sweep outcome
      refine ⟨step.ledger, ?_, ?_, ?_, ⟨ops, place, ?_⟩, ?_⟩
      · intro client
        rw [Function.update_of_ne (by simp), step.seats]
        exact sound.readers client
      · rw [Function.update_of_ne (by simp)]
        exact sound.accept.passive step.accept fun client _ => step.seats client
      · rw [Function.update_self]
        exact step.place
      · rw [Function.update_of_ne (by simp)]
        exact owner.passive step.passive
      · rw [Function.update_of_ne (by simp)]
        exact sound.entering.seats step.seats
  | owner =>
      have step := owner_step sound.ledger owner outcome
      refine ⟨step.ledger, ?_, ?_, ?_, ?_, ?_⟩
      · intro client
        rw [Function.update_of_ne (by simp), step.seats]
        exact sound.readers client
      · rw [Function.update_of_ne (by simp)]
        exact sound.accept.passive (step.others .accept (by simp)) fun client _ =>
          step.seats client
      · rw [Function.update_of_ne (by simp)]
        exact sound.sweep.passive (step.others .sweep (by simp))
      · rw [Function.update_self]
        exact step.place
      · rw [Function.update_of_ne (by simp)]
        exact sound.entering.seats step.seats

omit [LinearOrder Client] in
/-- A new connection is known to nobody yet. -/
theorem Ledger.dial (ledger : Ledger config state) {client : Client} {uid : Option Nat}
    (new : client ∉ state.dialed.map Prod.fst) :
    Ledger config { state with
      backlog := state.backlog ++ [(client, uid)]
      dialed := (client, uid) :: state.dialed } := by
  have unknown : ¬ state.Allowed config client := by
    rintro ⟨known, dialed, -⟩
    exact new (List.mem_map.mpr ⟨_, dialed, rfl⟩)
  have more {other : Client} (allowed : state.Allowed config other) :
      State.Allowed config { state with
        backlog := state.backlog ++ [(client, uid)]
        dialed := (client, uid) :: state.dialed } other :=
    allowed.imp fun _ both => ⟨List.mem_cons_of_mem _ both.1, both.2⟩
  refine ⟨ledger.fds, ?_, ?_, fun other known => more (ledger.allowed other known), ledger.listed,
    ledger.once, ledger.faultless, ?_⟩
  · rw [List.map_append, List.nodup_append]
    refine ⟨ledger.distinct, List.nodup_singleton _, ?_⟩
    intro first listed second single same
    obtain ⟨entry, member, rfl⟩ := List.mem_map.mp listed
    have here : second = client := List.mem_singleton.mp single
    exact new (List.mem_map.mpr ⟨entry, (ledger.fresh entry member).2.2, same.trans here⟩)
  · intro entry member
    rcases List.mem_append.mp member with before | here
    · obtain ⟨none, outside, dialed⟩ := ledger.fresh entry before
      exact ⟨none, outside, List.mem_cons_of_mem _ dialed⟩
    · rw [List.mem_singleton.mp here]
      refine ⟨?_, fun inside => unknown (ledger.allowed client (.inr inside)), List.mem_cons_self⟩
      by_contra some
      exact unknown (ledger.allowed client (.inl some))
  · intro peer write member
    obtain ⟨same, allowed⟩ := ledger.addressed peer write member
    exact ⟨same, more allowed⟩

/-- The peers and the caller of the destructor leave all threads at their places. -/
theorem Sound.outside (sound : Sound config state code) (event : Event Client) :
    Sound config (outside event state) code := by
  obtain ⟨ops, place, owner⟩ := sound.owner
  have carried {after : State Client} (ledger : Ledger config after)
      (seats : ∀ client, after.seat client = state.seat client) (passive : Passive state after)
      (finished : after.finished = state.finished) : Sound config after code := by
    refine ⟨ledger, ?_, ?_, ?_, ⟨ops, place, owner.passive passive⟩, sound.entering.seats seats⟩
    · intro client
      rw [seats]
      exact sound.readers client
    · exact sound.accept.passive (by rw [finished]) fun client _ => seats client
    · exact sound.sweep.passive (by rw [finished])
  have quietly {after : State Client} (quiet : Quiet state after)
      (ledger : Ledger config after) : Sound config after code :=
    carried ledger quiet.seat quiet.passive quiet.finished
  cases event with
  | dial client uid =>
      simp only [Server.outside]
      split
      · exact sound
      · rename_i new
        refine carried (sound.ledger.dial new) (fun _ => rfl) ?_ rfl
        exact ⟨rfl, rfl, rfl, rfl, rfl, fun _ shut => shut, fun _ member => member,
          fun _ none => none, fun _ member => member, Iff.rfl⟩
  | arrive client frame =>
      simp only [Server.outside]
      split
      · exact sound
      · have quiet : Quiet state { state with
            inbox := Function.update state.inbox client (state.inbox client ++ [frame]) } :=
          ⟨rfl, rfl, rfl, rfl, rfl, rfl, rfl, rfl, rfl, rfl, rfl, rfl, rfl, fun _ shut => shut⟩
        exact quietly quiet
          (sound.ledger.quiet quiet sound.ledger.faultless sound.ledger.addressed)
  | hangUp client =>
      refine carried (sound.ledger.flags ..) (fun _ => rfl) ?_ rfl
      refine ⟨rfl, rfl, rfl, rfl, rfl, ?_, fun _ member => member, fun _ none => none,
        fun _ member => member, Iff.rfl⟩
      intro other shut
      by_cases same : other = client
      · subst other
        exact Function.update_self ..
      · exact (Function.update_of_ne same ..).trans shut
  | destroy =>
      refine carried ?_ (fun _ => rfl) ?_ rfl
      · exact ⟨sound.ledger.fds, sound.ledger.distinct, sound.ledger.fresh, sound.ledger.allowed,
          sound.ledger.listed, sound.ledger.once, sound.ledger.faultless, sound.ledger.addressed⟩
      · exact ⟨rfl, rfl, rfl, rfl, rfl, fun _ shut => shut, fun _ member => member,
          fun _ none => none, fun _ member => member, Iff.rfl⟩

theorem Sound.step {system : System Client} (sound : Sound config system.data system.code)
    (action : Action Client) :
    Sound config (system.step config action).data (system.step config action).code := by
  cases action with
  | outside event => exact sound.outside event
  | go worker choice =>
      by_cases enabled : (machine config).Enabled system worker choice
      · obtain ⟨after, next, outcome, data, code⟩ := step_enabled enabled
        rw [show (system.step config (.go worker choice)).data = after from data,
          show (system.step config (.go worker choice)).code = _ from code]
        exact sound.go outcome
      · rw [show system.step config (.go worker choice) = system from step_idle enabled]
        exact sound

/-- When the constructor returns, every thread is at its first place. -/
theorem Sound.initial :
    Sound config (System.initial : System Client).data (System.initial : System Client).code where
  ledger :=
    { fds := fun _ _ => by simp [System.initial, State.initial]
      distinct := List.nodup_nil
      fresh := fun _ member => absurd member List.not_mem_nil
      allowed := by simp [System.initial, State.initial]
      listed := List.nodup_nil
      once := List.nodup_nil
      faultless := rfl
      addressed := fun _ _ member => absurd member List.not_mem_nil }
  readers := fun client => by
    have seat : (System.initial : System Client).data.seat client =
        ⟨false, none, 0, false, false⟩ := by
      simp [State.seat, System.initial, State.initial]
    rw [seat]
    exact .waiting
  accept := .looping List.not_mem_nil
  sweep := by
    have place : SweepAt (State.initial : State Client)
        ([.lock .sweep .exclusive] ++ [.sweepLoop]) :=
      .working List.not_mem_nil (by simp [Op.plain]) (.inl rfl)
    exact place
  owner := by
    refine ⟨[], 0, rfl, .inl rfl, by decide, ?_, (absurd · (by decide)), ?_, ?_,
      (absurd · (by decide)), (absurd · (by decide)), ?_, (absurd · (by decide)), ?_, ?_, ?_⟩
    all_goals simp [System.initial, State.initial]
  entering := fun _ _ opened => absurd rfl opened

/-- In every run the threads of a daemon are at their places. -/
theorem server_sound (config : Config) (actions : List (Action Client)) :
    let system := run (System.step config) System.initial actions
    Sound config system.data system.code := by
  have keep (system : System Client) (action : Action Client)
      (sound : Sound config system.data system.code) := sound.step action
  exact run_invariant keep actions _ Sound.initial

omit [LinearOrder Client] in
/-- A descriptor is closed once at most. -/
theorem ReaderAt.closed_once {client : Client} {seat : Seat} {here : Code Client}
    (place : ReaderAt client seat here) : seat.closes ≤ 1 := by
  cases place with
  | waiting | starting | serving | reading | leaving => exact Nat.zero_le _
  | left => exact Nat.le_refl _

omit [LinearOrder Client] in
/-- A reader that takes a frame is at no other place. -/
theorem ReaderAt.takes {client owner : Client} {seat : Seat} {number : Nat} {rest : Code Client}
    (place : ReaderAt client seat (.next owner number :: rest)) :
    rest = [] ∧ seat.fd = some number := by
  generalize here : (.next owner number :: rest : Code Client) = code at place
  cases place with
  | waiting | starting => cases here
  | serving plain =>
      rename_i ops
      cases ops with
      | nil => cases here
      | cons op ops =>
          obtain ⟨rfl, -⟩ := List.cons.inj here
          have first := plain _ List.mem_cons_self
          cases first
  | reading =>
      cases here
      exact ⟨rfl, rfl⟩
  | leaving place early =>
      interval_cases place <;> simp [removeClient] at here
  | left place late within =>
      interval_cases place <;> simp [removeClient] at here

/-- A reader takes frames only from its own connection. -/
theorem next_socket {system : System Client} (sound : Sound config system.data system.code)
    (orderly : Orderly Mutex.rank Follows system) {thread : Worker Client} {client : Client}
    {number : Nat} {rest : Code Client} (code : system.code thread = .next client number :: rest) :
    thread = .reader client ∧ rest = [] ∧ system.data.sockets number = some client := by
  obtain ⟨held, stacked⟩ := orderly.stacked thread
  have follows := stacked.follows
  rw [code] at follows
  obtain rfl := follows.2.1 _ rfl
  have place := sound.readers client
  rw [code] at place
  obtain ⟨last, opened⟩ := place.takes
  exact ⟨rfl, last, (sound.ledger.fds client number).mp opened⟩

/-- In every run, each descriptor of a client is the open one of its own connection, even when the
kernel gives the number of a closed descriptor to a new connection. No system call misses, a read is
made only by the reader of a client and on the connection of that client, a frame is written only to
the connection of the client that it is for, a descriptor is closed once at most, and the daemon
knows only connections for which the kernel has reported an allowed user. -/
theorem server_descriptors (config : Config) (actions : List (Action Client)) :
    let system := run (System.step config) System.initial actions
    let state := system.data
    state.faults = 0 ∧
    (∀ worker client number rest, system.code worker = .next client number :: rest →
      worker = .reader client ∧ state.sockets number = some client) ∧
    (∀ client number, state.fd client = some number ↔ state.sockets number = some client) ∧
    (∀ client, state.closes client ≤ 1) ∧
    (∀ peer, ∀ write ∈ state.sent peer, write.1 = peer) ∧
    ∀ client, state.fd client ≠ none ∨ client ∈ state.admitted ∨ state.sent client ≠ [] →
      state.Allowed config client := by
  intro system state
  have sound := server_sound config actions
  have ledger := sound.ledger
  have reads (worker : Worker Client) (client : Client) (number : Nat) (rest : Code Client)
      (code : system.code worker = .next client number :: rest) :
      worker = .reader client ∧ state.sockets number = some client := by
    obtain ⟨own, -, socket⟩ := next_socket sound (server_orderly config actions) code
    exact ⟨own, socket⟩
  refine ⟨ledger.faultless, reads, ledger.fds, fun client => (sound.readers client).closed_once,
    fun peer write member => (ledger.addressed peer write member).1, ?_⟩
  rintro client (opened | admitted | written)
  · exact ledger.allowed client (.inl opened)
  · exact ledger.allowed client (.inr admitted)
  · obtain ⟨write, member⟩ := List.exists_mem_of_ne_nil _ written
    exact (ledger.addressed client write member).2

end Chappe.Server
