/-
This file proves that the readers of a daemon keep to their places and to their descriptors.
-/

import Chappe.Proof.Server.Places
import Chappe.Proof.Server.Reading

namespace Chappe.Server
open Foundation

variable {Client : Type} [LinearOrder Client] {config : Config} {state after : State Client}
  {client : Client} {choice : Choice}

theorem Quiet.seat (quiet : Quiet state after) (client : Client) :
    after.seat client = state.seat client := by
  simp only [State.seat, quiet.admitted, quiet.fd, quiet.closes, quiet.clients, quiet.finished]

omit [LinearOrder Client] in
theorem Quiet.refl (state : State Client) : Quiet state state :=
  ⟨rfl, rfl, rfl, rfl, rfl, rfl, rfl, rfl, rfl, rfl, rfl, rfl, rfl, fun _ shut => shut⟩

omit [LinearOrder Client] in
/-- The descriptors stay in order when no system call misses and no frame goes astray. -/
theorem Ledger.quiet (ledger : Ledger config state) (quiet : Quiet state after)
    (faultless : after.faults = 0)
    (addressed : ∀ peer, ∀ write ∈ after.sent peer, write.1 = peer ∧ state.Allowed config peer) :
    Ledger config after where
  fds := by
    rw [quiet.fd, quiet.sockets]
    exact ledger.fds
  distinct := by
    rw [quiet.backlog]
    exact ledger.distinct
  fresh := by
    rw [quiet.backlog, quiet.fd, quiet.admitted, quiet.dialed]
    exact ledger.fresh
  allowed := by
    simp only [State.Allowed, quiet.fd, quiet.admitted, quiet.dialed]
    exact ledger.allowed
  listed := by
    rw [quiet.clients]
    exact ledger.listed
  once := by
    rw [quiet.admitted]
    exact ledger.once
  faultless := faultless
  addressed := by
    simp only [State.Allowed, quiet.dialed]
    exact addressed

/-- A frame is written to the connection that it is for, or to none. -/
theorem write_quiet (ledger : Ledger config state) (client : Client) (frame : Frame)
    (failed : Bool) : Quiet state (state.write client frame failed) ∧
      Ledger config (state.write client frame failed) := by
  unfold State.write
  cases opened : state.fd client with
  | none => exact ⟨.refl state, ledger⟩
  | some number =>
      have socket := (ledger.fds client number).mp opened
      simp only [socket]
      have allowed := ledger.allowed client (.inl (by simp [opened]))
      split
      · have quiet : Quiet state
            { state with shut := Function.update state.shut client true } := by
          refine ⟨rfl, rfl, rfl, rfl, rfl, rfl, rfl, rfl, rfl, rfl, rfl, rfl, rfl, ?_⟩
          intro other shut
          by_cases same : other = client
          · subst other
            exact Function.update_self ..
          · exact (Function.update_of_ne same ..).trans shut
        exact ⟨quiet, ledger.quiet quiet ledger.faultless ledger.addressed⟩
      · have quiet : Quiet state { state with
            sent := Function.update state.sent client
              (state.sent client ++ [(client, frame)]) } :=
          ⟨rfl, rfl, rfl, rfl, rfl, rfl, rfl, rfl, rfl, rfl, rfl, rfl, rfl, fun _ shut => shut⟩
        refine ⟨quiet, ledger.quiet quiet ledger.faultless ?_⟩
        intro peer write member
        by_cases same : peer = client
        · subst peer
          change write ∈ Function.update state.sent client _ client at member
          rw [Function.update_self] at member
          rcases List.mem_append.mp member with before | new
          · exact ledger.addressed client write before
          · rw [List.mem_singleton.mp new]
            exact ⟨rfl, allowed⟩
        · change write ∈ Function.update state.sent client _ peer at member
          rw [Function.update_of_ne same] at member
          exact ledger.addressed peer write member

omit [LinearOrder Client] in
/-- A step on the data of the clients leaves the life of every connection. -/
theorem quiet_data (state : State Client) (tables : Tables Client) (retained : Table Bytes Bytes)
    (store : Store Client) : Quiet state { state with
      tables := tables, retained := retained, store := store } :=
  ⟨rfl, rfl, rfl, rfl, rfl, rfl, rfl, rfl, rfl, rfl, rfl, rfl, rfl, fun _ shut => shut⟩

/-- A plain operation goes on with plain operations and leaves the life of every connection. -/
theorem plain_outcome (ledger : Ledger config state) {op : Op Client} {rest next : Code Client}
    (plain : op.plain = true)
    (outcome : (decode config choice state (op :: rest)).outcome state = some (after, next)) :
    Quiet state after ∧ Ledger config after ∧ ∃ ops, Plain ops ∧ next = ops ++ rest := by
  have unchanged {ops : Code Client} (plainOps : Plain ops)
      (same : (state, ops ++ rest) = (after, next)) :
      Quiet state after ∧ Ledger config after ∧ ∃ ops, Plain ops ∧ next = ops ++ rest := by
    obtain ⟨rfl, rfl⟩ := Prod.mk.inj same
    exact ⟨.refl state, ledger, ops, plainOps, rfl⟩
  have changed {tables : Tables Client} {retained : Table Bytes Bytes} {store : Store Client}
      {ops : Code Client} (plainOps : Plain ops)
      (same : ({ state with tables := tables, retained := retained, store := store }, ops ++ rest) =
        (after, next)) :
      Quiet state after ∧ Ledger config after ∧ ∃ ops, Plain ops ∧ next = ops ++ rest := by
    have quiet := quiet_data state tables retained store
    have kept := ledger.quiet quiet ledger.faultless ledger.addressed
    obtain ⟨rfl, rfl⟩ := Prod.mk.inj same
    exact ⟨quiet, kept, ops, plainOps, rfl⟩
  cases op with
  | lock mutex mode => exact unchanged plain_nil (Option.some.inj outcome)
  | unlock mutex => exact unchanged plain_nil (Option.some.inj outcome)
  | doze => exact unchanged plain_nil (Option.some.inj outcome)
  | replay client topic =>
      exact unchanged (plain_cons.mpr ⟨rfl, plain_sends _⟩) (Option.some.inj outcome)
  | snapshot client frame =>
      exact unchanged (plain_cons.mpr ⟨rfl, plain_sends _⟩) (Option.some.inj outcome)
  | inquire client report inquiry =>
      exact unchanged (plain_cons.mpr ⟨rfl, plain_afterInquiry client _⟩) (Option.some.inj outcome)
  | subscribe client name => exact changed plain_nil (Option.some.inj outcome)
  | unsubscribe client name => exact changed plain_nil (Option.some.inj outcome)
  | retain frame => exact changed plain_nil (Option.some.inj outcome)
  | request client frame => exact changed (plain_sends _) (Option.some.inj outcome)
  | sweepKeys read => exact changed (plain_sends _) (Option.some.inj outcome)
  | write client frame =>
      obtain ⟨rfl, rfl⟩ := Prod.mk.inj (Option.some.inj outcome)
      obtain ⟨quiet, ledger⟩ := write_quiet ledger client frame choice.failed
      exact ⟨quiet, ledger, [], plain_nil, rfl⟩
  | _ => cases plain

/-- What a step of the reader of a client leaves as it is. -/
structure Apart (client : Client) (before after : State Client) : Prop where
  running : after.running = before.running
  listener : after.listener = before.listener
  bound : after.bound = before.bound
  backlog : after.backlog = before.backlog
  dialed : after.dialed = before.dialed
  readers : after.readers = before.readers
  admitted : after.admitted = before.admitted
  seats : ∀ other, other ≠ client → after.seat other = before.seat other
  shut : ∀ other, before.shut other = true → after.shut other = true
  clients : ∀ other ∈ after.clients, other ∈ before.clients
  fd : ∀ other, before.fd other = none → after.fd other = none
  finished : ∀ worker ∈ before.finished, worker ∈ after.finished
  others : ∀ worker, worker ≠ .reader client →
    (worker ∈ after.finished ↔ worker ∈ before.finished)

theorem Quiet.apart (quiet : Quiet state after) (client : Client) : Apart client state after where
  running := quiet.running
  listener := quiet.listener
  bound := quiet.bound
  backlog := quiet.backlog
  dialed := quiet.dialed
  readers := quiet.readers
  admitted := quiet.admitted
  seats := fun other _ => quiet.seat other
  shut := quiet.shut
  clients := fun other member => quiet.clients ▸ member
  fd := fun other none => (congrFun quiet.fd other).trans none
  finished := fun worker member => quiet.finished.symm ▸ member
  others := fun worker _ => by rw [quiet.finished]

/-- The reader closes the descriptor of its own connection, and no other. -/
theorem closeFd_outcome (ledger : Ledger config state) {number : Nat}
    (seat : state.seat client = ⟨true, some number, 0, true, false⟩) :
    (state.closeFd client).seat client = ⟨true, none, 1, true, false⟩ ∧
      Apart client state (state.closeFd client) ∧ Ledger config (state.closeFd client) := by
  have opened : state.fd client = some number := congrArg Seat.fd seat
  have socket := (ledger.fds client number).mp opened
  have count : state.closes client = 0 := congrArg Seat.closes seat
  have closed : state.closeFd client = { state with
      sockets := Function.update state.sockets number none
      closes := Function.update state.closes client (state.closes client + 1)
      fd := Function.update state.fd client none } := by
    simp only [State.closeFd, opened, socket]
  have fd (other : Client) : state.fd other = none →
      Function.update state.fd client none other = none := by
    intro none
    by_cases same : other = client
    · subst other
      exact Function.update_self ..
    · exact (Function.update_of_ne same ..).trans none
  rw [closed]
  refine ⟨?_, ?_, ?_⟩
  · simp only [State.seat, Seat.mk.injEq, Function.update_self, count] at seat ⊢
    exact ⟨seat.1, trivial, trivial, seat.2.2.2⟩
  · refine ⟨rfl, rfl, rfl, rfl, rfl, rfl, rfl, ?_, fun _ shut => shut, fun _ member => member, fd,
      fun _ member => member, fun _ _ => Iff.rfl⟩
    intro other different
    simp only [State.seat, Function.update_of_ne different]
  · refine ⟨?_, ledger.distinct, ?_, ?_, ledger.listed, ledger.once, ledger.faultless,
      ledger.addressed⟩
    · intro other index
      change Function.update state.fd client none other = some index ↔
        Function.update state.sockets number none index = some other
      have unique := ledger.fds other index
      by_cases same : other = client
      · subst other
        rw [Function.update_self]
        by_cases here : index = number
        · subst index
          simp
        · rw [Function.update_of_ne here, ← unique, opened]
          simp [Ne.symm here]
      · rw [Function.update_of_ne same]
        by_cases here : index = number
        · subst index
          rw [Function.update_self, unique, socket]
          simp [Ne.symm same]
        · rw [Function.update_of_ne here]
          exact unique
    · intro entry member
      obtain ⟨none, rest⟩ := ledger.fresh entry member
      exact ⟨fd _ none, rest⟩
    · intro other known
      refine ledger.allowed other (known.imp_left fun some none => some (fd other none))

/-- A client that has left is no longer listed. -/
theorem eraseClient_outcome (ledger : Ledger config state)
    (seat : state.seat client = ⟨true, none, 1, true, false⟩) :
    let after : State Client := { state with clients := state.clients.erase client }
    Apart client state after ∧ Ledger config after ∧
      after.seat client = ⟨true, none, 1, false, false⟩ := by
  intro after
  refine ⟨?_, ?_, ?_⟩
  · refine ⟨rfl, rfl, rfl, rfl, rfl, rfl, rfl, ?_, fun _ shut => shut,
      fun _ member => List.mem_of_mem_erase member, fun _ none => none, fun _ member => member,
      fun _ _ => Iff.rfl⟩
    intro other different
    simp only [State.seat, after, List.contains_eq_mem, List.mem_erase_of_ne different]
  · exact ⟨ledger.fds, ledger.distinct, ledger.fresh, ledger.allowed, ledger.listed.erase _,
      ledger.once, ledger.faultless, ledger.addressed⟩
  · simp only [State.seat, Seat.mk.injEq] at seat ⊢
    exact ⟨seat.1, seat.2.1, seat.2.2.1, by simp [after, ledger.listed.mem_erase_iff],
      seat.2.2.2.2⟩

theorem finish_outcome (ledger : Ledger config state)
    (seat : state.seat client = ⟨true, none, 1, false, false⟩) :
    let after : State Client := { state with finished := .reader client :: state.finished }
    Apart client state after ∧ Ledger config after ∧
      after.seat client = ⟨true, none, 1, false, true⟩ := by
  intro after
  have others (worker : Worker Client) (different : worker ≠ .reader client) :
      worker ∈ after.finished ↔ worker ∈ state.finished := by
    simp [after, different]
  refine ⟨?_, ?_, ?_⟩
  · refine ⟨rfl, rfl, rfl, rfl, rfl, rfl, rfl, ?_, fun _ shut => shut, fun _ member => member,
      fun _ none => none, fun _ => List.mem_cons_of_mem _, others⟩
    intro other different
    have same := others (.reader other) (by simpa using different)
    simp only [State.seat, List.contains_eq_mem, same]
    rfl
  · exact ⟨ledger.fds, ledger.distinct, ledger.fresh, ledger.allowed, ledger.listed,
      ledger.once, ledger.faultless, ledger.addressed⟩
  · simp only [State.seat, Seat.mk.injEq] at seat ⊢
    exact ⟨seat.1, seat.2.1, seat.2.2.1, seat.2.2.2.1, by simp [after]⟩

/-- The reader is at one of its places after each of its steps. -/
theorem reader_step (ledger : Ledger config state) {code next : Code Client}
    (place : ReaderAt client (state.seat client) code)
    (outcome : (decode config choice state code).outcome state = some (after, next)) :
    client ∈ state.admitted ∧ Apart client state after ∧ Ledger config after ∧
      ReaderAt client (after.seat client) next := by
  have quietly {other : State Client} (quiet : Quiet state other) (kept : Ledger config other)
      (admitted : (state.seat client).admitted = true)
      (there : ReaderAt client (state.seat client) next) (same : other = after) :
      client ∈ state.admitted ∧ Apart client state after ∧ Ledger config after ∧
        ReaderAt client (after.seat client) next := by
    subst same
    refine ⟨by simpa [State.seat] using admitted, quiet.apart client, kept, ?_⟩
    rwa [quiet.seat]
  generalize seat : state.seat client = known at place
  cases place with
  | waiting =>
      have outside : client ∉ state.admitted := by
        simpa [State.seat] using congrArg Seat.admitted seat
      simp [decode, outside, Instr.outcome] at outcome
  | starting =>
      rename_i number
      have inside : client ∈ state.admitted := by
        simpa [State.seat] using congrArg Seat.admitted seat
      have opened : state.fd client = some number := congrArg Seat.fd seat
      simp only [decode, if_pos inside, opened, Option.getD_some, Instr.outcome, Option.some.injEq,
        Prod.mk.injEq] at outcome
      obtain ⟨same, rfl⟩ := outcome
      refine quietly (.refl state) ledger (by rw [seat]) ?_ same
      rw [seat]
      exact .serving plain_nil
  | serving plain =>
      rename_i number ops
      cases ops with
      | nil =>
          simp only [List.nil_append, decode] at outcome
          split at outcome
          · obtain ⟨same, rfl⟩ := Prod.mk.inj (Option.some.inj outcome)
            refine quietly (.refl state) ledger (by rw [seat]) ?_ same
            rw [seat]
            exact .reading
          · obtain ⟨same, rfl⟩ := Prod.mk.inj (Option.some.inj outcome)
            refine quietly (.refl state) ledger (by rw [seat]) ?_ same
            rw [seat, List.append_nil]
            exact .leaving 0 (Nat.zero_le _)
      | cons op more =>
          obtain ⟨head, tail⟩ := plain_cons.mp plain
          obtain ⟨quiet, kept, ops, plainOps, rfl⟩ := plain_outcome ledger head outcome
          refine quietly quiet kept (by rw [seat]) ?_ rfl
          have code : ops ++ more.append [.loop client number] =
              (ops ++ more) ++ [.loop client number] := (List.append_assoc ..).symm
          rw [seat, code]
          exact .serving (plain_append.mpr ⟨plainOps, tail⟩)
  | reading =>
      rename_i number
      have socket := (ledger.fds client number).mp (congrArg Seat.fd seat)
      rcases next_outcome outcome with
        ⟨rfl, -, stays⟩ | ⟨peer, frame, frames, here, -, -, same, rfl⟩
      · have same : state = after := by
          rcases stays with same | ⟨closed, -⟩
          · exact same.symm
          · rw [socket] at closed
            cases closed
        refine quietly (.refl state) ledger (by rw [seat]) ?_ same
        rw [seat, List.append_nil]
        exact .leaving 0 (Nat.zero_le _)
      · have quiet : Quiet state { state with
            inbox := Function.update state.inbox peer frames
            named := insert frame.name state.named } :=
          ⟨rfl, rfl, rfl, rfl, rfl, rfl, rfl, rfl, rfl, rfl, rfl, rfl, rfl, fun _ shut => shut⟩
        refine quietly quiet (ledger.quiet quiet ledger.faultless ledger.addressed)
          (by rw [seat]) ?_ same.symm
        rw [seat]
        exact .serving (plain_handleFrame client frame)
  | leaving place early =>
      rename_i number
      have onward {tables : Tables Client} {store : Store Client} (place : Nat) (early : place ≤ 7)
          (result : ({ state with tables := tables, store := store },
            (removeClient client).drop place) = (after, next)) :
          client ∈ state.admitted ∧ Apart client state after ∧ Ledger config after ∧
            ReaderAt client (after.seat client) next := by
        obtain ⟨same, rfl⟩ := Prod.mk.inj result
        have quiet := quiet_data state tables state.retained store
        refine quietly quiet (ledger.quiet quiet ledger.faultless ledger.addressed)
          (by rw [seat]) ?_ same
        rw [seat]
        exact .leaving place early
      interval_cases place
      · exact onward 1 (by decide) (Option.some.inj outcome)
      · exact onward 2 (by decide) (Option.some.inj outcome)
      · exact onward 3 (by decide) (Option.some.inj outcome)
      · exact onward 4 (by decide) (Option.some.inj outcome)
      · exact onward 5 (by decide) (Option.some.inj outcome)
      · exact onward 6 (by decide) (Option.some.inj outcome)
      · exact onward 7 (by decide) (Option.some.inj outcome)
      · obtain ⟨rfl, rfl⟩ := Prod.mk.inj (Option.some.inj outcome)
        obtain ⟨there, apart, kept⟩ := closeFd_outcome ledger seat
        refine ⟨by simpa [State.seat] using congrArg Seat.admitted seat, apart, kept, ?_⟩
        rw [there]
        exact .left 8 (by decide) (by decide)
  | left place late within =>
      interval_cases place
      · obtain ⟨same, rfl⟩ := Prod.mk.inj (Option.some.inj outcome)
        refine quietly (.refl state) ledger (by rw [seat]) ?_ same
        rw [seat]
        exact .left 9 (by decide) (by decide)
      · obtain ⟨same, rfl⟩ := Prod.mk.inj (Option.some.inj outcome)
        refine quietly (.refl state) ledger (by rw [seat]) ?_ same
        rw [seat]
        exact .left 10 (by decide) (by decide)
      · obtain ⟨rfl, rfl⟩ := Prod.mk.inj (Option.some.inj outcome)
        obtain ⟨apart, kept, there⟩ := eraseClient_outcome ledger seat
        refine ⟨by simpa [State.seat] using congrArg Seat.admitted seat, apart, kept, ?_⟩
        rw [there]
        exact .left 11 (by decide) (by decide)
      · obtain ⟨same, rfl⟩ := Prod.mk.inj (Option.some.inj outcome)
        refine quietly (.refl state) ledger (by rw [seat]) ?_ same
        rw [seat]
        exact .left 12 (by decide) (by decide)
      · obtain ⟨rfl, rfl⟩ := Prod.mk.inj (Option.some.inj outcome)
        obtain ⟨apart, kept, there⟩ := finish_outcome ledger seat
        refine ⟨by simpa [State.seat] using congrArg Seat.admitted seat, apart, kept, ?_⟩
        rw [there]
        exact .left 13 (by decide) (by decide)
      · cases outcome

end Chappe.Server
