/-
This file proves that the destructor of a daemon returns, and that every thread has then ended and
every descriptor is closed.
-/

import Chappe.Proof.Server.LockOrder
import Chappe.Proof.Server.Soundness
import Mathlib.Algebra.BigOperators.Group.Finset.Basic
import Mathlib.Data.Prod.Lex

namespace Chappe.Server
open Foundation

/-- How often an operation can still make its thread go on to more code once the daemon stops. -/
def Op.weight {Client : Type} : Op Client → Nat
  | .replay _ _ | .snapshot _ _ | .request _ _ | .sweepKeys _ | .shutClients | .clearReaders
  | .loop _ _ | .acceptLoop | .sweepLoop | .recheck | .inquire _ _ .reply => 1
  | .start _ | .inquire _ _ .keys => 2
  | .enlist _ | .inquire _ _ .retained => 3
  | .inquire _ _ .topics => 4
  | .accept | .inquire _ _ .clients => 5
  | .next _ _ => 7
  | _ => 0

def weight {Client : Type} (code : Code Client) : Nat := (code.map Op.weight).sum

variable {Client : Type}

@[simp] theorem weight_nil : weight ([] : Code Client) = 0 := rfl

@[simp] theorem weight_cons (op : Op Client) (code : Code Client) :
    weight (op :: code) = op.weight + weight code := by
  simp [weight]

@[simp] theorem weight_append (first second : Code Client) :
    weight (first ++ second) = weight first + weight second := by
  simp [weight]

@[simp] theorem weight_sends (writes : List (Client × Frame)) : weight (sends writes) = 0 := by
  induction writes with
  | nil => rfl
  | cons write writes ih =>
      simpa [sends, Op.weight] using ih

@[simp] theorem weight_shutdowns (clients : List Client) : weight (shutdowns clients) = 0 := by
  induction clients with
  | nil => rfl
  | cons client clients ih =>
      simpa [shutdowns, Op.weight] using ih

@[simp] theorem weight_joins (clients : List Client) : weight (joins clients) = 0 := by
  induction clients with
  | nil => rfl
  | cons client clients ih =>
      simpa [joins, Op.weight] using ih

theorem weight_handleFrame (client : Client) (frame : Frame) :
    weight (handleFrame client frame) ≤ 5 := by
  unfold handleFrame
  split
  · split <;> simp [Op.weight]
  · simp [Op.weight]
  · simp [Op.weight]
  · simp [Op.weight]
  · simp
  · split <;> simp [Op.weight]
  · split <;> simp [Op.weight]

/-- A step makes the code of its thread lighter or shorter. -/
def Lighter (next code : Code Client) : Prop :=
  weight next < weight code ∨ (weight next = weight code ∧ next.length < code.length)

variable [LinearOrder Client] {config : Config} {state after : State Client} {choice : Choice}

omit [LinearOrder Client] in
theorem weight_afterInquiry (client : Client) (order : List Bytes) (report : Report)
    (inquiry : Inquiry) :
    weight (afterInquiry client (state.inquire order report inquiry)) <
      (Op.inquire client report inquiry).weight := by
  cases inquiry with
  | clients | topics | retained | keys | reply =>
      simp [State.inquire, afterInquiry, Op.weight]

omit [LinearOrder Client] in
theorem Lighter.less {next code : Code Client} (less : weight next < weight code) :
    Lighter next code := .inl less

theorem lighter_next (client : Client) (number : Nat) {rest next : Code Client}
    (outcome : (state.next client number choice.failed rest).outcome state =
      some (after, next)) :
    Lighter next (.next client number :: rest) := by
  rcases next_outcome outcome with ⟨rfl, -⟩ | ⟨peer, frame, frames, -, -, -, -, rfl⟩
  · exact .less (by simp [removeClient, Op.weight])
  · have bound := weight_handleFrame client frame
    apply Lighter.less
    simp only [weight_append, weight_cons, Op.weight]
    omega

theorem lighter_accept {rest next : Code Client}
    (outcome : (state.accept config choice rest).outcome state = some (after, next)) :
    Lighter next (.accept :: rest) := by
  have again {other : State Client} (same : (other, Op.acceptLoop :: rest) = (after, next)) :
      Lighter next (.accept :: rest) := by
    obtain ⟨-, rfl⟩ := Prod.mk.inj same
    exact .less (by simp [Op.weight])
  unfold State.accept at outcome
  split at outcome
  · exact again (Option.some.inj outcome)
  · exact again (Option.some.inj outcome)
  · split at outcome
    · cases outcome
    · split at outcome
      · exact again (Option.some.inj outcome)
      · split at outcome
        · obtain ⟨-, rfl⟩ := Prod.mk.inj (Option.some.inj outcome)
          apply Lighter.less
          simp only [admission, weight_append, weight_cons, weight_nil, Op.weight]
          omega
        · exact again (Option.some.inj outcome)

/-- While the daemon stops, every step makes the code of its thread lighter or shorter. -/
theorem lighter_outcome (stopped : state.running = false) {code next : Code Client}
    (outcome : (decode config choice state code).outcome state = some (after, next)) :
    Lighter next code := by
  have shorter {op : Op Client} {rest : Code Client} {other : State Client}
      (same : (other, rest) = (after, next)) : Lighter next (op :: rest) := by
    obtain ⟨-, rfl⟩ := Prod.mk.inj same
    unfold Lighter
    rw [weight_cons, List.length_cons]
    omega
  have expands {op : Op Client} (ops : Code Client) {rest : Code Client} {other : State Client}
      (less : weight ops < op.weight) (same : (other, ops ++ rest) = (after, next)) :
      Lighter next (op :: rest) := by
    obtain ⟨-, rfl⟩ := Prod.mk.inj same
    apply Lighter.less
    rw [weight_append, weight_cons]
    omega
  cases code with
  | nil => cases outcome
  | cons op rest =>
      cases op with
      | lock _ _ | unlock _ | finish _ | subscribe _ _ | unsubscribe _ _ | retain _ | write _ _
      | leaveTopics _ | leaveKeys _ | closeFd _ | eraseClient _ | reap | enlist _ | doze | stop
      | notify | shutListen | closeListen | shutFd _ | unlink =>
          exact shorter (Option.some.inj outcome)
      | start client =>
          simp only [decode] at outcome
          split at outcome
          · exact expands [_] (by simp [Op.weight]) (Option.some.inj outcome)
          · cases outcome
      | loop client number =>
          simp only [decode, stopped] at outcome
          exact expands _ (by simp [removeClient, Op.weight]) (Option.some.inj outcome)
      | next client number => exact lighter_next client number outcome
      | accept => exact lighter_accept outcome
      | replay client topic =>
          exact expands (_ :: sends _) (by simp [Op.weight]) (Option.some.inj outcome)
      | snapshot client frame =>
          exact expands (_ :: sends _) (by simp [Op.weight]) (Option.some.inj outcome)
      | request client frame => exact expands _ (by simp [Op.weight]) (Option.some.inj outcome)
      | sweepKeys read => exact expands _ (by simp [Op.weight]) (Option.some.inj outcome)
      | shutClients => exact expands _ (by simp [Op.weight]) (Option.some.inj outcome)
      | clearReaders => exact expands _ (by simp [Op.weight]) (Option.some.inj outcome)
      | inquire client report inquiry =>
          refine expands (_ :: afterInquiry client _) ?_ (Option.some.inj outcome)
          simpa [Op.weight] using weight_afterInquiry client choice.order report inquiry
      | acceptLoop =>
          simp only [decode, stopped] at outcome
          exact expands [.finish .accept] (by simp [Op.weight]) (Option.some.inj outcome)
      | sweepLoop =>
          simp only [decode, stopped] at outcome
          exact expands _ (by simp [Op.weight]) (Option.some.inj outcome)
      | recheck =>
          simp only [decode, stopped] at outcome
          exact expands _ (by simp [Op.weight]) (Option.some.inj outcome)
      | destroyed =>
          simp only [decode] at outcome
          split at outcome
          · exact shorter (Option.some.inj outcome)
          · cases outcome
      | join worker =>
          simp only [decode] at outcome
          split at outcome
          · exact shorter (Option.some.inj outcome)
          · cases outcome

/-- The daemon does not start again, and it starts no reader. -/
def Winds (before after : State Client) : Prop :=
  (after.running = true → before.running = true) ∧ after.admitted = before.admitted

/-- Only an admission starts a reader. -/
theorem winds_outcome {code next : Code Client}
    (outcome : (decode config choice state code).outcome state = some (after, next)) :
    Winds state after ∨ ∃ client, code = .enlist client :: next ∧
      after.running = state.running ∧ after.admitted = client :: state.admitted := by
  have same {other : State Client} {result : Code Client}
      (result : (other, result) = (after, next)) (kept : Winds state other) :
      Winds state after := by
    obtain ⟨rfl, -⟩ := Prod.mk.inj result
    exact kept
  cases code with
  | nil => cases outcome
  | cons op rest =>
      cases op with
      | enlist client =>
          obtain ⟨rfl, rfl⟩ := Prod.mk.inj (Option.some.inj outcome)
          exact .inr ⟨client, rfl, rfl, rfl⟩
      | write client frame =>
          refine .inl (same (Option.some.inj outcome) ?_)
          unfold State.write
          split
          · exact ⟨id, rfl⟩
          · split
            · exact ⟨id, rfl⟩
            · split <;> exact ⟨id, rfl⟩
      | closeFd client =>
          refine .inl (same (Option.some.inj outcome) ?_)
          unfold State.closeFd
          split
          · exact ⟨id, rfl⟩
          · split <;> exact ⟨id, rfl⟩
      | shutFd client =>
          refine .inl (same (Option.some.inj outcome) ?_)
          unfold State.shutFd
          split
          · exact ⟨id, rfl⟩
          · split <;> exact ⟨id, rfl⟩
      | next client number =>
          rcases next_outcome outcome with
            ⟨-, -, rfl | ⟨-, rfl⟩⟩ | ⟨peer, frame, frames, -, -, -, rfl, -⟩
          · exact .inl (same rfl ⟨id, rfl⟩)
          · exact .inl (same rfl ⟨id, rfl⟩)
          · exact .inl (same rfl ⟨id, rfl⟩)
      | accept =>
          simp only [decode, State.accept] at outcome
          split at outcome
          · exact .inl (same (Option.some.inj outcome) ⟨id, rfl⟩)
          · exact .inl (same (Option.some.inj outcome) ⟨id, rfl⟩)
          · split at outcome
            · cases outcome
            · split at outcome
              · exact .inl (same (Option.some.inj outcome) ⟨id, rfl⟩)
              · split at outcome
                · exact .inl (same (Option.some.inj outcome) ⟨id, rfl⟩)
                · exact .inl (same (Option.some.inj outcome) ⟨id, rfl⟩)
      | stop =>
          exact .inl (same (Option.some.inj outcome) ⟨fun again => Bool.noConfusion again, rfl⟩)
      | start _ | destroyed | join _ =>
          simp only [decode] at outcome
          split at outcome
          · exact .inl (same (Option.some.inj outcome) ⟨id, rfl⟩)
          · cases outcome
      | loop client number =>
          simp only [decode] at outcome
          split at outcome
          · exact .inl (same (Option.some.inj outcome) ⟨id, rfl⟩)
          · exact .inl (same (Option.some.inj outcome) ⟨id, rfl⟩)
      | lock _ _ | unlock _ | finish _ | subscribe _ _ | unsubscribe _ _ | retain _
      | leaveTopics _ | leaveKeys _ | eraseClient _ | reap | doze | notify | shutListen
      | closeListen | unlink | replay _ _ | snapshot _ _ | request _ _ | sweepKeys _
      | shutClients | clearReaders | inquire _ _ _ | acceptLoop | sweepLoop
      | recheck => exact .inl (same (Option.some.inj outcome) ⟨id, rfl⟩)

/-- The threads that have begun. -/
def active (state : State Client) : Finset (Worker Client) :=
  {.owner, .accept, .sweep} ∪ state.admitted.toFinset.image .reader

/-- What the threads have left to do while the daemon stops. -/
def remaining (system : System Client) : Nat ×ₗ Nat :=
  toLex (∑ worker ∈ active system.data, weight (system.code worker),
    ∑ worker ∈ active system.data, (system.code worker).length)

theorem mem_active {worker : Worker Client} :
    worker ∈ active state ↔ ∀ client, worker = .reader client → client ∈ state.admitted := by
  cases worker with
  | owner | accept | sweep => simp [active]
  | reader client => simp [active]

/-- A thread that can move has begun. -/
theorem Sound.begun {code : Worker Client → Code Client} (sound : Sound config state code)
    {worker : Worker Client} {next : Code Client}
    (outcome : (decode config choice state (code worker)).outcome state = some (after, next)) :
    worker ∈ active state := by
  rw [mem_active]
  rintro client rfl
  exact (reader_step sound.ledger (sound.readers client) outcome).1

/-- One term of a sum is replaced. -/
theorem sum_replace {Index : Type} [DecidableEq Index] {set : Finset Index} {index : Index}
    (member : index ∈ set) (before after : Index → Nat)
    (same : ∀ other, other ≠ index → after other = before other) :
    ∑ other ∈ set, after other + before index = ∑ other ∈ set, before other + after index := by
  rw [← Finset.add_sum_erase set before member, ← Finset.add_sum_erase set after member]
  have rest : ∑ other ∈ set.erase index, after other = ∑ other ∈ set.erase index, before other :=
    Finset.sum_congr rfl fun other there => same other (Finset.ne_of_mem_erase there)
  rw [rest]
  omega

/-- While the daemon stops, every step of a thread leaves less to do. -/
theorem remaining_falls {system : System Client} (sound : Sound config system.data system.code)
    (stopped : system.data.running = false) {worker : Worker Client}
    (enabled : (machine config).Enabled system worker choice) :
    remaining (system.step config (.go worker choice)) < remaining system := by
  obtain ⟨after, next, outcome, data, code⟩ := step_enabled enabled
  have stepped : (system.step config (.go worker choice)).data = after := data
  have moved : (system.step config (.go worker choice)).code =
    Function.update system.code worker next := code
  generalize system.step config (.go worker choice) = later at stepped moved
  have begun := sound.begun outcome
  have other (reader : Worker Client) (different : reader ≠ worker) :
      later.code reader = system.code reader := by
    rw [moved]
    exact Function.update_of_ne different ..
  have here : later.code worker = next := by
    rw [moved]
    exact Function.update_self ..
  have weights := sum_replace begun (fun worker => weight (system.code worker))
    (fun worker => weight (later.code worker))
    fun reader different => congrArg weight (other reader different)
  have lengths := sum_replace begun (fun worker => (system.code worker).length)
    (fun worker => (later.code worker).length)
    fun reader different => congrArg List.length (other reader different)
  simp only [here] at weights lengths
  rw [remaining, remaining, Prod.Lex.toLex_lt_toLex, stepped]
  rcases winds_outcome outcome with winds | ⟨client, entering, -, admitted⟩
  · have set : active after = active system.data := by
      rw [active, winds.2]
      rfl
    rw [set]
    rcases lighter_outcome stopped outcome with less | ⟨same, shorter⟩
    · exact .inl (by omega)
    · exact .inr ⟨by omega, by omega⟩
  · -- the reader that is started waits at its first operation, which weighs less than an admission
    have new : client ∉ system.data.admitted := by
      have once := (sound.go outcome).ledger.once
      rw [admitted] at once
      exact (List.nodup_cons.mp once).1
    have outside : .reader client ∉ active system.data :=
      fun member => new (mem_active.mp member client rfl)
    have set : active after = insert (.reader client) (active system.data) := by
      ext reader
      rw [Finset.mem_insert, mem_active, mem_active, admitted]
      cases reader with
      | owner | accept | sweep => simp
      | reader name => simp
    have different : .reader client ≠ worker := fun same => outside (same ▸ begun)
    have waits : system.code (.reader client) = [.start client] := by
      obtain ⟨-, -, waits⟩ := (sound.readers client).waits (by simpa [State.seat] using new)
      exact waits
    left
    rw [set, Finset.sum_insert outside]
    simp only [other _ different, waits, entering, weight_cons, weight_nil, Op.weight] at weights ⊢
    omega

/-- The peers leave the daemon stopped and its threads where they are. -/
theorem remaining_outside (config : Config) (system : System Client) (event : Event Client) :
    remaining (system.step config (.outside event)) = remaining system ∧
      (system.step config (.outside event)).data.running = system.data.running := by
  have kept : Winds system.data (outside event system.data) ∧
      (outside event system.data).running = system.data.running := by
    cases event with
    | dial client uid =>
        simp only [outside]
        split <;> exact ⟨⟨id, rfl⟩, rfl⟩
    | arrive client frame =>
        simp only [outside]
        split <;> exact ⟨⟨id, rfl⟩, rfl⟩
    | hangUp client => exact ⟨⟨id, rfl⟩, rfl⟩
    | destroy => exact ⟨⟨id, rfl⟩, rfl⟩
  have set : active (outside event system.data) = active system.data := by
    rw [active, kept.1.2]
    rfl
  refine ⟨?_, kept.2⟩
  change toLex (∑ worker ∈ active (outside event system.data), weight (system.code worker),
    ∑ worker ∈ active (outside event system.data), (system.code worker).length) = _
  rw [set]
  rfl

/-- Every thread has ended, no mutex is held, and every descriptor is closed. -/
structure Gone (system : System Client) : Prop where
  ended : ∀ worker ∈ active system.data, worker ∈ system.data.finished ∧ system.code worker = []
  free : ∀ mutex, system.holders mutex = []
  sockets : ∀ number, system.data.sockets number = none
  closed : ∀ client ∈ system.data.admitted, system.data.closes client = 1
  listener : system.data.listener = .closed
  unlinked : system.data.bound = false

/-- The operations that may wait for someone else. -/
def Op.waits : Op Client → Bool
  | .start _ | .next _ _ | .accept | .destroyed | .join _ => true
  | _ => false

/-- The thread has ended or waits for someone else. -/
def Idle (config : Config) (choice : Choice) (state : State Client) (code : Code Client) : Prop :=
  decode config choice state code = .halt ∨ decode config choice state code = .await

/-- An idle thread waits at its next operation. -/
theorem idle_waits {op : Op Client} {rest : Code Client}
    (idle : Idle config choice state (op :: rest)) : op.waits = true := by
  unfold Idle at idle
  cases op with
  | start _ | next _ _ | accept | destroyed | join _ => rfl
  | loop client number =>
      simp only [decode] at idle
      split at idle <;> simp at idle
  | _ => simp [decode] at idle

theorem plain_moves {op : Op Client} {rest : Code Client} (plain : op.plain = true) :
    ¬ Idle config choice state (op :: rest) := by
  intro idle
  have waits := idle_waits idle
  cases op with
  | start _ | next _ _ | accept | destroyed | join _ => cases plain
  | _ => cases waits

theorem sweep_idle {code : Code Client} (place : SweepAt state code)
    (idle : Idle config choice state code) : .sweep ∈ state.finished ∧ code = [] := by
  cases place with
  | gone ended => exact ⟨ended, rfl⟩
  | working lives plain ends =>
      rename_i ops last
      cases ops with
      | cons op more => exact absurd idle (plain_moves (plain_cons.mp plain).1)
      | nil =>
          have waits := idle_waits idle
          rcases ends with rfl | rfl | rfl <;> cases waits

theorem accept_idle {code : Code Client} (place : AcceptAt state code)
    (shut : state.listener ≠ .open) (idle : Idle config choice state code) :
    .accept ∈ state.finished ∧ code = [] := by
  cases place with
  | gone ended => exact ⟨ended, rfl⟩
  | looping | admitted | finishing => cases idle_waits idle
  | admitting lives client number place seat early =>
      interval_cases place <;> cases idle_waits idle
  | accepting lives =>
      unfold Idle at idle
      simp only [decode, State.accept] at idle
      split at idle
      · simp at idle
      · simp at idle
      · exact absurd ‹_› shut

/-- A reader that cannot move has closed its descriptor and ended. -/
theorem reader_idle (ledger : Ledger config state) {client : Client} {code : Code Client}
    (place : ReaderAt client (state.seat client) code) (admitted : client ∈ state.admitted)
    (shut : client ∈ state.clients → state.shut client = true ∨ state.fd client = none)
    (idle : Idle config choice state code) :
    state.seat client = ⟨true, none, 1, false, true⟩ ∧ code = [] := by
  generalize seat : state.seat client = known at place
  cases place with
  | waiting =>
      have outside : client ∉ state.admitted := by
        simpa [State.seat] using congrArg Seat.admitted seat
      exact absurd admitted outside
  | starting => simp [Idle, decode, admitted] at idle
  | serving plain =>
      rename_i number ops
      cases ops with
      | cons op more => exact absurd idle (plain_moves (plain_cons.mp plain).1)
      | nil => cases idle_waits idle
  | reading =>
      rename_i number
      have opened : state.fd client = some number := congrArg Seat.fd seat
      have listed : client ∈ state.clients := by
        simpa [State.seat] using congrArg Seat.listed seat
      have down : state.shut client = true :=
        (shut listed).resolve_right (by simp [opened])
      unfold Idle at idle
      simp only [decode, State.next, (ledger.fds client number).mp opened, down] at idle
      split at idle
      · simp at idle
      · split at idle <;> simp at idle
  | leaving place early => interval_cases place <;> cases idle_waits idle
  | left place late within =>
      interval_cases place
      · cases idle_waits idle
      · cases idle_waits idle
      · cases idle_waits idle
      · cases idle_waits idle
      · cases idle_waits idle
      · exact ⟨rfl, rfl⟩

/-- The owner cannot move only at the end of the destructor. -/
theorem owner_idle {code ops : Code Client} {place : Nat} (owner : OwnerAt state ops place code)
    (stopped : state.running = false) (swept : .sweep ∈ state.finished)
    (accepted : state.listener ≠ .open → .accept ∈ state.finished)
    (read : (∀ client ∈ state.clients, state.shut client = true ∨ state.fd client = none) →
      ∀ client ∈ state.admitted, .reader client ∈ state.finished)
    (idle : Idle config choice state code) : ops = [] ∧ place = 15 := by
  obtain rfl := owner.code
  cases ops with
  | cons op more =>
      have waits := idle_waits idle
      rcases owner.shape with nothing | ⟨-, all⟩ | ⟨rfl, all⟩
      · cases nothing
      · have shutting := all op List.mem_cons_self
        cases op with
        | lock _ _ | unlock _ | shutFd _ => cases waits
        | _ => cases shutting
      · have joining := all op List.mem_cons_self
        cases op with
        | join worker =>
            cases worker with
            | reader client =>
                have down : ∀ other ∈ state.clients,
                    state.shut other = true ∨ state.fd other = none := by
                  intro other member
                  refine (owner.shut (by decide) other member).imp_right fun late => ?_
                  exact late.resolve_right fun ahead => by cases all _ ahead
                have ended := read down client (owner.known client (.inr List.mem_cons_self))
                simp [Idle, decode, ended] at idle
            | owner | accept | sweep => cases joining
        | _ => cases joining
  | nil =>
      have within := owner.within
      have late : 1 < place := by
        by_contra early
        have running := owner.running.mpr (by omega)
        rw [stopped] at running
        cases running
      rw [List.nil_append] at idle
      interval_cases place
      · cases idle_waits idle
      · cases idle_waits idle
      · cases idle_waits idle
      · simp [Idle, destructor, decode, swept] at idle
      · cases idle_waits idle
      · have ended := accepted fun opened => absurd (owner.opened.mp opened) (by decide)
        simp [Idle, destructor, decode, ended] at idle
      · cases idle_waits idle
      · cases idle_waits idle
      · cases idle_waits idle
      · cases idle_waits idle
      · cases idle_waits idle
      · cases idle_waits idle
      · cases idle_waits idle
      · exact ⟨rfl, rfl⟩

/-- When no thread of a daemon that stops can move, the daemon is gone. -/
theorem Sound.stuck_gone {system : System Client} (sound : Sound config system.data system.code)
    (orderly : Orderly Mutex.rank Follows system) (stopped : system.data.running = false)
    (stuck : ∀ worker, ¬ (machine config).Enabled system worker choice) : Gone system := by
  have still := orderly.stuck server_discipline rank_le stuck
  have idle (worker : Worker Client) : Idle config choice system.data (system.code worker) :=
    (still worker).2
  obtain ⟨swept, sweepDone⟩ := sweep_idle sound.sweep (idle .sweep)
  have accepted (shut : system.data.listener ≠ .open) :=
    accept_idle sound.accept shut (idle .accept)
  have read (shut : ∀ client ∈ system.data.clients,
      system.data.shut client = true ∨ system.data.fd client = none) (client : Client)
      (admitted : client ∈ system.data.admitted) :=
    reader_idle sound.ledger (sound.readers client) admitted (shut client) (idle (.reader client))
  have finished (client : Client)
      (seat : system.data.seat client = ⟨true, none, 1, false, true⟩) :
      .reader client ∈ system.data.finished := by
    simpa [State.seat] using congrArg Seat.ended seat
  obtain ⟨ops, place, owner⟩ := sound.owner
  obtain ⟨rfl, rfl⟩ := owner_idle owner stopped swept (fun shut => (accepted shut).1)
    (fun shut client admitted => finished client (read shut client admitted).1) (idle .owner)
  have shut : ∀ client ∈ system.data.clients,
      system.data.shut client = true ∨ system.data.fd client = none := by
    intro client member
    exact (owner.shut (by decide) client member).imp_right fun late =>
      late.resolve_right List.not_mem_nil
  have closed : system.data.listener = .closed := owner.closed.mpr (by decide)
  obtain ⟨acceptEnded, acceptDone⟩ := accepted (by simp [closed])
  refine ⟨?_, ?_, ?_, ?_, closed, ?_⟩
  · intro worker begun
    cases worker with
    | owner => exact ⟨owner.ended.mpr rfl, owner.code⟩
    | accept => exact ⟨acceptEnded, acceptDone⟩
    | sweep => exact ⟨swept, sweepDone⟩
    | reader client =>
        obtain ⟨seat, done⟩ := read shut client (mem_active.mp begun client rfl)
        exact ⟨finished client seat, done⟩
  · intro mutex
    refine List.eq_nil_iff_forall_not_mem.mpr fun holder held => ?_
    exact (still holder.1).1 mutex holder.2 held
  · intro number
    by_contra opened
    obtain ⟨client, socket⟩ := Option.ne_none_iff_exists'.mp opened
    have fd := (sound.ledger.fds client number).mpr socket
    by_cases admitted : client ∈ system.data.admitted
    · have none := congrArg Seat.fd (read shut client admitted).1
      rw [show (system.data.seat client).fd = some number from fd] at none
      cases none
    · obtain ⟨place, early, here⟩ := sound.entering client admitted (by simp [fd])
      rw [acceptDone] at here
      interval_cases place <;> cases here
  · intro client admitted
    exact congrArg Seat.closes (read shut client admitted).1
  · by_contra bound
    have early := owner.bound.mp (by simpa using bound)
    omega

/-- A daemon that stops has never more to do than before. -/
theorem Sound.winds_down {system : System Client} (sound : Sound config system.data system.code)
    (stopped : system.data.running = false) (action : Action Client) :
    (system.step config action).data.running = false ∧
      remaining (system.step config action) ≤ remaining system := by
  cases action with
  | outside event =>
      obtain ⟨same, running⟩ := remaining_outside config system event
      exact ⟨running.trans stopped, same.le⟩
  | go worker choice =>
      by_cases enabled : (machine config).Enabled system worker choice
      · refine ⟨?_, (remaining_falls sound stopped enabled).le⟩
        obtain ⟨after, next, outcome, data, -⟩ := step_enabled enabled
        rw [show (system.step config (.go worker choice)).data = after from data]
        rcases winds_outcome outcome with winds | ⟨_, -, running, -⟩
        · by_contra again
          have going := winds.1 (by simpa using again)
          rw [stopped] at going
          cases going
        · exact running.trans stopped
      · rw [show system.step config (.go worker choice) = system from step_idle enabled]
        exact ⟨stopped, le_refl _⟩

/-- The thread of the action can take its step. -/
def Moves (config : Config) (system : System Client) (action : Action Client) : Prop :=
  ∃ worker choice, action = .go worker choice ∧ (machine config).Enabled system worker choice

/-- Every endless run, with any steps of the peers in between, comes to a state in which the daemon
is gone, provided that whenever a thread can move some thread moves then or later. -/
def ShutsDown (config : Config) (system : System Client) : Prop :=
  ∀ schedule : Nat → Action Client,
    let states := course (System.step config) system schedule
    (∀ count, (∃ action, Moves config (states count) action) →
      ∃ later, count ≤ later ∧ Moves config (states later) (schedule later)) →
    ∃ count, Gone (states count)

/-- What holds of a daemon that stops. -/
def Stopping (config : Config) (system : System Client) : Prop :=
  Sound config system.data system.code ∧ Orderly Mutex.rank Follows system ∧
    system.data.running = false

theorem Stopping.step {system : System Client} (stopping : Stopping config system)
    (action : Action Client) : Stopping config (system.step config action) :=
  ⟨stopping.1.step action, stopping.2.1.step server_discipline action,
    (stopping.1.winds_down stopping.2.2 action).1⟩

/-- From every state that a daemon can reach, once its destructor has cleared `running_`, the
destructor returns: every thread ends, every mutex is free, every descriptor of a client has been
closed once, and the socket file is removed. -/
theorem server_shuts_down (config : Config) (actions : List (Action Client))
    (stopped : (run (System.step config) System.initial actions).data.running = false) :
    ShutsDown config (run (System.step config) System.initial actions) := by
  intro schedule states fair
  have start : Stopping config (run (System.step config) System.initial actions) :=
    ⟨server_sound config actions, server_orderly config actions, stopped⟩
  have keep (system : System Client) (action : Action Client)
      (stopping : Stopping config system) := stopping.step action
  have stays (system : System Client) (action : Action Client)
      (stopping : Stopping config system) :
      remaining (system.step config action) ≤ remaining system :=
    (stopping.1.winds_down stopping.2.2 action).2
  have falls (system : System Client) (action : Action Client)
      (stopping : Stopping config system) :
      Moves config system action → remaining (system.step config action) < remaining system := by
    rintro ⟨worker, choice, rfl, enabled⟩
    exact remaining_falls stopping.1 stopping.2.2 enabled
  obtain ⟨count, settled⟩ := course_settles remaining keep stays falls start fair
  obtain ⟨sound, orderly, still⟩ := course_invariant keep start schedule count
  have stuck (worker : Worker Client) :
      ¬ (machine config).Enabled (states count) worker ⟨0, 0, 0, [], false⟩ :=
    fun enabled => settled _ ⟨worker, _, rfl, enabled⟩
  exact ⟨count, sound.stuck_gone orderly still stuck⟩

/-- A client is served and a write of it holds `kv_mu_` when the destructor begins. -/
def stopDuringWrite : List (Action Nat) :=
  let go (worker : Worker Nat) : Action Nat := .go worker ⟨3, 0, 0, [], false⟩
  [.outside (.dial 7 (some 0)), go .accept, go .accept, go .accept, go .accept, go .accept,
    go .accept, go (.reader 7), go (.reader 7), .outside (.arrive 7 (Msg.kvSet.frame [1] [5])),
    go (.reader 7), go (.reader 7), .outside .destroy, go .owner, go .owner]

theorem server_shuts_down_small :
    ShutsDown ⟨∅, 0⟩ (run (System.step ⟨∅, 0⟩) System.initial stopDuringWrite) :=
  server_shuts_down ⟨∅, 0⟩ stopDuringWrite (by decide)

end Chappe.Server
