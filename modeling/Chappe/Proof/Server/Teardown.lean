/-
This file proves that the sweep thread and the destructor of a daemon keep to their places.
-/

import Chappe.Proof.Server.Admission

namespace Chappe.Server
open Foundation

variable {Client : Type} [LinearOrder Client] {config : Config} {state after : State Client}
  {choice : Choice}

/-- What a step of another thread leaves for the owner once the accept thread has ended. -/
structure Passive (before after : State Client) : Prop where
  running : after.running = before.running
  listener : after.listener = before.listener
  bound : after.bound = before.bound
  readers : after.readers = before.readers
  admitted : after.admitted = before.admitted
  shut : ∀ client, before.shut client = true → after.shut client = true
  clients : ∀ client ∈ after.clients, client ∈ before.clients
  fd : ∀ client, before.fd client = none → after.fd client = none
  finished : ∀ worker ∈ before.finished, worker ∈ after.finished
  owner : .owner ∈ after.finished ↔ .owner ∈ before.finished

omit [LinearOrder Client] in
theorem Quiet.passive (quiet : Quiet state after) : Passive state after where
  running := quiet.running
  listener := quiet.listener
  bound := quiet.bound
  readers := quiet.readers
  admitted := quiet.admitted
  shut := quiet.shut
  clients := fun client member => quiet.clients ▸ member
  fd := fun client none => (congrFun quiet.fd client).trans none
  finished := fun worker member => quiet.finished.symm ▸ member
  owner := by rw [quiet.finished]

theorem Apart.passive {client : Client} (apart : Apart client state after) :
    Passive state after where
  running := apart.running
  listener := apart.listener
  bound := apart.bound
  readers := apart.readers
  admitted := apart.admitted
  shut := apart.shut
  clients := apart.clients
  fd := apart.fd
  finished := apart.finished
  owner := apart.others .owner (by simp)

omit [LinearOrder Client] in
/-- The owner stays at its place in the steps of the others. -/
theorem OwnerAt.passive {ops code : Code Client} {place : Nat}
    (owner : OwnerAt state ops place code) (passive : Passive state after) :
    OwnerAt after ops place code where
  code := owner.code
  shape := owner.shape
  within := owner.within
  running := by
    rw [passive.running]
    exact owner.running
  sweep := fun late => passive.finished _ (owner.sweep late)
  opened := by
    rw [passive.listener]
    exact owner.opened
  closed := by
    rw [passive.listener]
    exact owner.closed
  accept := fun late => passive.finished _ (owner.accept late)
  shut := by
    intro late client member
    rcases owner.shut late client (passive.clients client member) with shut | none | ahead
    · exact .inl (passive.shut client shut)
    · exact .inr (.inl (passive.fd client none))
    · exact .inr (.inr ahead)
  kept := by
    rw [passive.admitted, passive.readers]
    exact fun early client member => (owner.kept early client member).imp_left (passive.finished _)
  joined := by
    rw [passive.admitted]
    exact fun late client member => (owner.joined late client member).imp_left (passive.finished _)
  bound := by
    rw [passive.bound]
    exact owner.bound
  ended := passive.owner.trans owner.ended
  known := by
    rw [passive.readers, passive.admitted]
    exact owner.known

/-- What a step of the sweep thread keeps for the other threads. -/
structure SweepStep (config : Config) (state after : State Client) (next : Code Client) :
    Prop where
  ledger : Ledger config after
  place : SweepAt after next
  seats : ∀ client, after.seat client = state.seat client
  passive : Passive state after
  accept : .accept ∈ after.finished ↔ .accept ∈ state.finished

/-- The sweep thread ends. -/
theorem finish_sweep_outcome (ledger : Ledger config state) :
    SweepStep config state { state with finished := .sweep :: state.finished } [] := by
  refine ⟨?_, .gone List.mem_cons_self, fun client => by simp [State.seat], ?_, by simp⟩
  · exact ⟨ledger.fds, ledger.distinct, ledger.fresh, ledger.allowed, ledger.listed, ledger.once,
      ledger.faultless, ledger.addressed⟩
  · exact ⟨rfl, rfl, rfl, rfl, rfl, fun _ shut => shut, fun _ member => member, fun _ none => none,
      fun _ => List.mem_cons_of_mem _, by simp⟩

/-- The sweep thread is at one of its places after each of its steps. -/
theorem sweep_step (ledger : Ledger config state) {code next : Code Client}
    (place : SweepAt state code)
    (outcome : (decode config choice state code).outcome state = some (after, next)) :
    SweepStep config state after next := by
  have quietly (ops : Code Client) (lives : .sweep ∉ state.finished) {other : State Client}
      {last : Op Client} (quiet : Quiet state other) (kept : Ledger config other)
      (plain : Plain ops) (ends : last = .sweepLoop ∨ last = .recheck ∨ last = .finish .sweep)
      (same : (other, ops ++ [last]) = (after, next)) : SweepStep config state after next := by
    obtain ⟨rfl, rfl⟩ := Prod.mk.inj same
    refine ⟨kept, .working ?_ plain ends, quiet.seat, quiet.passive, by rw [quiet.finished]⟩
    rwa [quiet.finished]
  cases place with
  | gone ended => cases outcome
  | working lives plain ends =>
      rename_i ops last
      cases ops with
      | cons op more =>
          obtain ⟨head, tail⟩ := plain_cons.mp plain
          obtain ⟨quiet, kept, ops, plainOps, rfl⟩ := plain_outcome ledger head outcome
          have code : ops ++ more.append [last] = (ops ++ more) ++ [last] :=
            (List.append_assoc ..).symm
          refine quietly _ lives quiet kept (plain_append.mpr ⟨plainOps, tail⟩) ends ?_
          rw [← code]
      | nil =>
          rcases ends with rfl | rfl | rfl
          · simp only [List.nil_append, decode, List.append_nil] at outcome
            split at outcome
            · exact quietly [.unlock .sweep, .doze, .lock .sweep .exclusive] lives (.refl state)
                ledger (by simp [Op.plain]) (.inr (.inl rfl)) (Option.some.inj outcome)
            · exact quietly [.unlock .sweep] lives (.refl state) ledger
                (by simp [Op.plain]) (.inr (.inr rfl)) (Option.some.inj outcome)
          · simp only [List.nil_append, decode, List.append_nil] at outcome
            split at outcome
            · exact quietly [.lock .kv .exclusive, .sweepKeys choice.now, .unlock .kv] lives
                (.refl state) ledger (by simp [Op.plain]) (.inl rfl) (Option.some.inj outcome)
            · exact quietly [.unlock .sweep] lives (.refl state) ledger
                (by simp [Op.plain]) (.inr (.inr rfl)) (Option.some.inj outcome)
          · obtain ⟨rfl, rfl⟩ := Prod.mk.inj (Option.some.inj outcome)
            exact finish_sweep_outcome ledger

/-- What a step of the owner keeps for the other threads. -/
structure OwnerStep (config : Config) (state after : State Client) (next : Code Client) :
    Prop where
  ledger : Ledger config after
  place : ∃ ops place, OwnerAt after ops place next
  seats : ∀ client, after.seat client = state.seat client
  others : ∀ worker, worker ≠ .owner → (worker ∈ after.finished ↔ worker ∈ state.finished)

/-- An operation of the destructor that changes nothing leads to the next one. -/
theorem OwnerAt.advance (ledger : Ledger config state) {code next : Code Client} {place : Nat}
    (owner : OwnerAt state [] place code)
    (idle : place ≠ 1 ∧ place ≠ 6 ∧ place ≠ 8 ∧ place ≠ 10 ∧ place ≠ 12 ∧ place < 13)
    (swept : place = 5 → .sweep ∈ state.finished) (accepted : place = 7 → .accept ∈ state.finished)
    (same : (state, destructor.drop (place + 1)) = (after, next)) :
    OwnerStep config state after next := by
  obtain ⟨rfl, rfl⟩ := Prod.mk.inj same
  refine ⟨ledger, ⟨[], place + 1, ?_⟩, fun _ => rfl, fun _ _ => Iff.rfl⟩
  refine ⟨rfl, .inl rfl, by omega, ?_, ?_, ?_, ?_, ?_, ?_, ?_, by omega, ?_, ?_,
    owner.known⟩
  · rw [owner.running]
    omega
  · intro late
    by_cases here : place = 5
    · exact swept here
    · exact owner.sweep (by omega)
  · rw [owner.opened]
    omega
  · rw [owner.closed]
    omega
  · intro late
    by_cases here : place = 7
    · exact accepted here
    · exact owner.accept (by omega)
  · exact fun late => owner.shut (by omega)
  · exact fun early => owner.kept (by omega)
  · rw [owner.bound]
    omega
  · rw [owner.ended]
    omega

omit [LinearOrder Client] in
/-- The flags of the daemon do not concern its descriptors. -/
theorem Ledger.flags (ledger : Ledger config state) (running bound : Bool) (listener : Listener)
    (readers : List Client) (finished : List (Worker Client)) (shut : Client → Bool) :
    Ledger config { state with
      running := running, bound := bound, listener := listener, readers := readers
      finished := finished, shut := shut } :=
  ⟨ledger.fds, ledger.distinct, ledger.fresh, ledger.allowed, ledger.listed, ledger.once,
    ledger.faultless, ledger.addressed⟩

/-- The loops of the daemon are told to end. -/
theorem OwnerAt.stop (ledger : Ledger config state) {code : Code Client}
    (owner : OwnerAt state [] 1 code) :
    OwnerStep config state { state with running := false } (destructor.drop 2) := by
  refine ⟨ledger.flags .., ⟨[], 2, ?_⟩, fun _ => rfl, fun _ _ => Iff.rfl⟩
  exact ⟨rfl, .inl rfl, by decide, by simp, (absurd · (by decide)), by simpa using owner.opened,
    by simpa using owner.closed, (absurd · (by decide)), (absurd · (by decide)),
    fun _ => owner.kept (by decide), (absurd · (by decide)), by simpa using owner.bound,
    by simpa using owner.ended, owner.known⟩

/-- The listening socket is shut down before the accept thread is joined. -/
theorem OwnerAt.shutListen (ledger : Ledger config state) {code : Code Client}
    (owner : OwnerAt state [] 6 code) :
    OwnerStep config state { state with listener := .shut } (destructor.drop 7) := by
  refine ⟨ledger.flags .., ⟨[], 7, ?_⟩, fun _ => rfl, fun _ _ => Iff.rfl⟩
  exact ⟨rfl, .inl rfl, by decide, by simpa using owner.running, fun _ => owner.sweep (by decide),
    by simp, by simp, (absurd · (by decide)), (absurd · (by decide)),
    fun _ => owner.kept (by decide), (absurd · (by decide)), by simpa using owner.bound,
    by simpa using owner.ended, owner.known⟩

/-- The listening socket is closed when no thread accepts on it. -/
theorem OwnerAt.closeListen (ledger : Ledger config state) {code : Code Client}
    (owner : OwnerAt state [] 8 code) :
    OwnerStep config state { state with listener := .closed } (destructor.drop 9) := by
  refine ⟨ledger.flags .., ⟨[], 9, ?_⟩, fun _ => rfl, fun _ _ => Iff.rfl⟩
  exact ⟨rfl, .inl rfl, by decide, by simpa using owner.running, fun _ => owner.sweep (by decide),
    by simp, by simp, fun _ => owner.accept (by decide), (absurd · (by decide)),
    fun _ => owner.kept (by decide), (absurd · (by decide)), by simpa using owner.bound,
    by simpa using owner.ended, owner.known⟩

omit [LinearOrder Client] in
theorem shutdowns_shutting {clients : List Client} {op : Op Client}
    (member : op ∈ shutdowns clients) : op.shutting = true := by
  obtain ⟨client, -, here⟩ := List.mem_flatMap.mp member
  simp only [List.mem_cons, List.not_mem_nil, or_false] at here
  rcases here with rfl | rfl | rfl <;> rfl

/-- Every listed client is to be shut down. -/
theorem OwnerAt.shutClients (ledger : Ledger config state) {code : Code Client}
    (owner : OwnerAt state [] 10 code) :
    OwnerStep config state state (shutdowns state.clients ++ destructor.drop 11) := by
  refine ⟨ledger, ⟨shutdowns state.clients, 11, ?_⟩, fun _ => rfl, fun _ _ => Iff.rfl⟩
  refine ⟨rfl, .inr (.inl ⟨rfl, ?_⟩), by decide, by simpa using owner.running,
    fun _ => owner.sweep (by decide), by simpa using owner.opened, by simpa using owner.closed,
    fun _ => owner.accept (by decide), ?_, fun _ => owner.kept (by decide), (absurd · (by decide)),
    by simpa using owner.bound, by simpa using owner.ended, ?_⟩
  · exact fun op member => shutdowns_shutting member
  · intro _ client member
    exact .inr (.inr (List.mem_flatMap.mpr ⟨client, member, by simp⟩))
  · rintro client (kept | ahead)
    · exact owner.known client (.inl kept)
    · cases shutdowns_shutting ahead

/-- Every reader is to be joined. -/
theorem OwnerAt.clearReaders (ledger : Ledger config state) {code : Code Client}
    (owner : OwnerAt state [] 12 code) :
    OwnerStep config state { state with readers := [] }
      (joins state.readers ++ destructor.drop 13) := by
  refine ⟨ledger.flags .., ⟨joins state.readers, 13, ?_⟩, fun _ => rfl, fun _ _ => Iff.rfl⟩
  refine ⟨rfl, .inr (.inr ⟨rfl, ?_⟩), by decide, by simpa using owner.running,
    fun _ => owner.sweep (by decide), by simpa using owner.opened, by simpa using owner.closed,
    fun _ => owner.accept (by decide), ?_, (absurd · (by decide)), ?_, by simpa using owner.bound,
    by simpa using owner.ended, ?_⟩
  · intro op member
    obtain ⟨client, -, rfl⟩ := List.mem_map.mp member
    rfl
  · intro _ client member
    exact (owner.shut (by decide) client member).imp_right (.imp_right fun ahead => by cases ahead)
  · intro _ client member
    exact (owner.kept (by decide) client member).imp_right fun kept =>
      List.mem_map.mpr ⟨client, kept, rfl⟩
  · rintro client (kept | ahead)
    · cases kept
    · obtain ⟨other, kept, same⟩ := List.mem_map.mp ahead
      cases same
      exact owner.known client (.inl kept)

/-- The socket file is removed. -/
theorem OwnerAt.unlink (ledger : Ledger config state) {code : Code Client}
    (owner : OwnerAt state [] 13 code) :
    OwnerStep config state { state with bound := false } (destructor.drop 14) := by
  refine ⟨ledger.flags .., ⟨[], 14, ?_⟩, fun _ => rfl, fun _ _ => Iff.rfl⟩
  exact ⟨rfl, .inl rfl, by decide, by simpa using owner.running, fun _ => owner.sweep (by decide),
    by simpa using owner.opened, by simpa using owner.closed, fun _ => owner.accept (by decide),
    fun _ => owner.shut (by decide), (absurd · (by decide)), fun _ => owner.joined (by decide),
    by simp, by simpa using owner.ended, owner.known⟩

/-- The destructor returns. -/
theorem OwnerAt.finish (ledger : Ledger config state) {code : Code Client}
    (owner : OwnerAt state [] 14 code) :
    OwnerStep config state { state with finished := .owner :: state.finished } [] := by
  have others (worker : Worker Client) (different : worker ≠ .owner) :
      worker ∈ Worker.owner :: state.finished ↔ worker ∈ state.finished := by
    simp [different]
  refine ⟨ledger.flags .., ⟨[], 15, ?_⟩, fun client => by simp [State.seat], others⟩
  exact ⟨rfl, .inl rfl, by decide, by simpa using owner.running,
    fun _ => (others _ (by simp)).mpr (owner.sweep (by decide)), by simpa using owner.opened,
    by simpa using owner.closed, fun _ => (others _ (by simp)).mpr (owner.accept (by decide)),
    fun _ => owner.shut (by decide), (absurd · (by decide)),
    fun _ client member => (owner.joined (by decide) client member).imp_left
      (others _ (by simp)).mpr, by simpa using owner.bound, by simp, owner.known⟩

/-- The kernel shuts the connection of a listed client down, unless its descriptor is closed. -/
theorem shutFd_outcome (ledger : Ledger config state) (client : Client) :
    ∃ shut : Client → Bool, state.shutFd client = { state with shut := shut } ∧
      (∀ other, state.shut other = true → shut other = true) ∧
      (shut client = true ∨ state.fd client = none) := by
  unfold State.shutFd
  cases opened : state.fd client with
  | none => exact ⟨state.shut, rfl, fun _ shut => shut, .inr rfl⟩
  | some number =>
      simp only [(ledger.fds client number).mp opened]
      refine ⟨_, rfl, ?_, .inl (Function.update_self ..)⟩
      intro other shut
      by_cases same : other = client
      · subst other
        exact Function.update_self ..
      · exact (Function.update_of_ne same ..).trans shut

/-- The loop over the clients shuts each of them down. -/
theorem OwnerAt.shutting (ledger : Ledger config state) {op : Op Client}
    {more code next : Code Client} (owner : OwnerAt state (op :: more) 11 code)
    (shutting : op.shutting = true) (rest : ∀ op ∈ more, op.shutting = true)
    (outcome : (decode config choice state (op :: (more ++ destructor.drop 11))).outcome state =
      some (after, next)) : OwnerStep config state after next := by
  have onward (shut : Client → Bool) (keeps : ∀ other, state.shut other = true → shut other = true)
      (now : ∀ client, op = .shutFd client → shut client = true ∨ state.fd client = none)
      (result : ({ state with shut := shut }, more ++ destructor.drop 11) = (after, next)) :
      OwnerStep config state after next := by
    obtain ⟨rfl, rfl⟩ := Prod.mk.inj result
    refine ⟨ledger.flags .., ⟨more, 11, ?_⟩, fun _ => rfl, fun _ _ => Iff.rfl⟩
    refine ⟨rfl, .inr (.inl ⟨rfl, rest⟩), owner.within, owner.running, owner.sweep, owner.opened,
      owner.closed, owner.accept, ?_, owner.kept, (absurd · (by decide)), owner.bound,
      owner.ended, fun client kept => owner.known client (kept.imp_right (.tail _))⟩
    intro late client member
    rcases owner.shut late client member with before | none | ahead
    · exact .inl (keeps client before)
    · exact .inr (.inl none)
    · rcases List.mem_cons.mp ahead with here | ahead
      · exact (now client here.symm).imp_right .inl
      · exact .inr (.inr ahead)
  cases op with
  | lock mutex mode =>
      exact onward state.shut (fun _ shut => shut) (by simp) (Option.some.inj outcome)
  | unlock mutex =>
      exact onward state.shut (fun _ shut => shut) (by simp) (Option.some.inj outcome)
  | shutFd client =>
      obtain ⟨shut, result, keeps, now⟩ := shutFd_outcome ledger client
      have outcome := Option.some.inj outcome
      rw [result] at outcome
      refine onward shut keeps ?_ outcome
      rintro _ ⟨⟩
      exact now
  | _ => cases shutting

/-- The loop over the readers waits for each of them. -/
theorem OwnerAt.joining (ledger : Ledger config state) {op : Op Client}
    {more code next : Code Client} (owner : OwnerAt state (op :: more) 13 code)
    (joining : op.joining = true) (rest : ∀ op ∈ more, op.joining = true)
    (outcome : (decode config choice state (op :: (more ++ destructor.drop 13))).outcome state =
      some (after, next)) : OwnerStep config state after next := by
  cases op with
  | join worker =>
      cases worker with
      | reader client =>
          simp only [decode] at outcome
          split at outcome
          · rename_i ended
            obtain ⟨rfl, rfl⟩ := Prod.mk.inj (Option.some.inj outcome)
            refine ⟨ledger, ⟨more, 13, ?_⟩, fun _ => rfl, fun _ _ => Iff.rfl⟩
            refine ⟨rfl, .inr (.inr ⟨rfl, rest⟩), owner.within, owner.running, owner.sweep,
              owner.opened, owner.closed, owner.accept, ?_, owner.kept, ?_, owner.bound,
              owner.ended, fun other kept => owner.known other (kept.imp_right (.tail _))⟩
            · intro late other member
              refine (owner.shut late other member).imp_right (.imp_right fun ahead => ?_)
              rcases List.mem_cons.mp ahead with here | ahead
              · cases here
              · exact ahead
            · intro late other member
              rcases owner.joined late other member with before | ahead
              · exact .inl before
              · rcases List.mem_cons.mp ahead with here | ahead
                · cases here
                  exact .inl ended
                · exact .inr ahead
          · cases outcome
      | owner | accept | sweep => cases joining
  | _ => cases joining

/-- The owner is at one of its places after each of its steps. -/
theorem owner_step (ledger : Ledger config state) {ops code next : Code Client} {place : Nat}
    (owner : OwnerAt state ops place code)
    (outcome : (decode config choice state code).outcome state = some (after, next)) :
    OwnerStep config state after next := by
  have code := owner.code
  cases ops with
  | cons op more =>
      subst code
      rcases owner.shape with nothing | ⟨rfl, all⟩ | ⟨rfl, all⟩
      · cases nothing
      · obtain ⟨head, rest⟩ := List.forall_mem_cons.mp all
        exact owner.shutting ledger head rest outcome
      · obtain ⟨head, rest⟩ := List.forall_mem_cons.mp all
        exact owner.joining ledger head rest outcome
  | nil =>
      rw [List.nil_append] at code
      subst code
      have within := owner.within
      have skip {place : Nat} {code : Code Client} (owner : OwnerAt state [] place code)
          (idle : place = 2 ∨ place = 3 ∨ place = 4 ∨ place = 9 ∨ place = 11)
          (same : some (state, destructor.drop (place + 1)) = some (after, next)) :
          OwnerStep config state after next :=
        owner.advance ledger (by omega) (by omega) (by omega) (Option.some.inj same)
      interval_cases place
      · simp only [destructor, List.drop_zero, decode] at outcome
        split at outcome
        · exact owner.advance ledger (by decide) (absurd · (by decide)) (absurd · (by decide))
            (Option.some.inj outcome)
        · cases outcome
      · obtain ⟨rfl, rfl⟩ := Prod.mk.inj (Option.some.inj outcome)
        exact owner.stop ledger
      · exact skip owner (by decide) outcome
      · exact skip owner (by decide) outcome
      · exact skip owner (by decide) outcome
      · simp only [destructor, List.drop_succ_cons, List.drop_zero, decode] at outcome
        split at outcome
        · rename_i ended
          exact owner.advance ledger (by decide) (fun _ => ended) (absurd · (by decide))
            (Option.some.inj outcome)
        · cases outcome
      · obtain ⟨rfl, rfl⟩ := Prod.mk.inj (Option.some.inj outcome)
        exact owner.shutListen ledger
      · simp only [destructor, List.drop_succ_cons, List.drop_zero, decode] at outcome
        split at outcome
        · rename_i ended
          exact owner.advance ledger (by decide) (absurd · (by decide)) (fun _ => ended)
            (Option.some.inj outcome)
        · cases outcome
      · obtain ⟨rfl, rfl⟩ := Prod.mk.inj (Option.some.inj outcome)
        exact owner.closeListen ledger
      · exact skip owner (by decide) outcome
      · obtain ⟨rfl, rfl⟩ := Prod.mk.inj (Option.some.inj outcome)
        exact owner.shutClients ledger
      · exact skip owner (by decide) outcome
      · obtain ⟨rfl, rfl⟩ := Prod.mk.inj (Option.some.inj outcome)
        exact owner.clearReaders ledger
      · obtain ⟨rfl, rfl⟩ := Prod.mk.inj (Option.some.inj outcome)
        exact owner.unlink ledger
      · obtain ⟨rfl, rfl⟩ := Prod.mk.inj (Option.some.inj outcome)
        exact owner.finish ledger
      · cases outcome

end Chappe.Server
