/-
This file proves that the accept thread of a daemon lets a connection in once, when the kernel has
reported an allowed user for it.
-/

import Chappe.Proof.Server.Readers

namespace Chappe.Server
open Foundation

variable {Client : Type} [LinearOrder Client] {config : Config} {state after : State Client}
  {choice : Choice}

/-- What a step of the accept thread keeps for the other threads. -/
structure AcceptStep (config : Config) (state after : State Client) (next : Code Client) :
    Prop where
  ledger : Ledger config after
  place : AcceptAt after next
  readers : ∀ client code, ReaderAt client (state.seat client) code →
    ReaderAt client (after.seat client) code
  owner : ∀ ops place code, OwnerAt state ops place code → OwnerAt after ops place code
  sweep : .sweep ∈ after.finished ↔ .sweep ∈ state.finished

theorem AcceptStep.same (ledger : Ledger config state) {next : Code Client}
    (place : AcceptAt state next) : AcceptStep config state state next :=
  ⟨ledger, place, fun _ _ there => there, fun _ _ _ there => there, Iff.rfl⟩

/-- The connections that are not admitted. -/
def Unseated (state : State Client) : Prop :=
  ∀ client, client ∉ state.admitted →
    ∃ fd, state.seat client = ⟨false, fd, 0, false, false⟩

omit [LinearOrder Client] in
/-- A client that is not admitted has a reader that waits. -/
theorem ReaderAt.waits {client : Client} {seat : Seat} {code : Code Client}
    (place : ReaderAt client seat code) (outside : seat.admitted = false) :
    ∃ fd, seat = ⟨false, fd, 0, false, false⟩ ∧ code = [.start client] := by
  cases place with
  | waiting => exact ⟨_, rfl, rfl⟩
  | starting | serving | reading | leaving | left => cases outside

omit [LinearOrder Client] in
/-- A reader that waits still waits when its connection gets a descriptor. -/
theorem ReaderAt.opened {client : Client} {seat : Seat} {code : Code Client}
    (place : ReaderAt client seat code) {fd later : Option Nat}
    (before : seat = ⟨false, fd, 0, false, false⟩) :
    ReaderAt client ⟨false, later, 0, false, false⟩ code := by
  obtain ⟨_, -, rfl⟩ := place.waits (by rw [before])
  exact .waiting

omit [LinearOrder Client] in
/-- The owner waits for the accept thread before it goes on. -/
theorem OwnerAt.early {ops code : Code Client} {place : Nat} (owner : OwnerAt state ops place code)
    (lives : .accept ∉ state.finished) : place ≤ 7 := by
  by_contra late
  exact lives (owner.accept (by omega))

/-- A new connection is let in with a descriptor of its own. -/
theorem accept_outcome (ledger : Ledger config state) (lives : .accept ∉ state.finished)
    (unseated : Unseated state)
    {client : Client} {uid : Option Nat} {waiting : List (Client × Option Nat)}
    (backlog : state.backlog = (client, uid) :: waiting) {number : Nat}
    (unused : state.sockets number = none) (allowed : config.peerAllowed uid = true) :
    AcceptStep config state { state with
      backlog := waiting
      fd := Function.update state.fd client (some number)
      sockets := Function.update state.sockets number (some client) } (admission client) := by
  have member : (client, uid) ∈ state.backlog := by
    rw [backlog]
    exact List.mem_cons_self
  obtain ⟨none, outside, dialed⟩ := ledger.fresh _ member
  obtain ⟨fd, seat⟩ := unseated client outside
  have distinct := ledger.distinct
  rw [backlog, List.map_cons, List.nodup_cons] at distinct
  have known : state.Allowed config client := ⟨uid, dialed, allowed⟩
  have new : State.seat { state with
      backlog := waiting
      fd := Function.update state.fd client (some number)
      sockets := Function.update state.sockets number (some client) } client =
      ⟨false, some number, 0, false, false⟩ := by
    simp only [State.seat, Seat.mk.injEq, Function.update_self] at seat ⊢
    exact ⟨seat.1, trivial, seat.2.2⟩
  refine ⟨?_, ?_, ?_, ?_, Iff.rfl⟩
  · refine ⟨?_, distinct.2, ?_, ?_, ledger.listed, ledger.once, ledger.faultless,
      ledger.addressed⟩
    · intro other index
      change Function.update state.fd client (some number) other = some index ↔
        Function.update state.sockets number (some client) index = some other
      have unique := ledger.fds other index
      by_cases same : other = client
      · subst other
        rw [Function.update_self]
        by_cases here : index = number
        · subst index
          simp
        · rw [Function.update_of_ne here, ← unique, none]
          simp [Ne.symm here]
      · rw [Function.update_of_ne same]
        by_cases here : index = number
        · subst index
          rw [Function.update_self, unique, unused]
          simp [Ne.symm same]
        · rw [Function.update_of_ne here]
          exact unique
    · intro entry member
      have waits : entry ∈ waiting := member
      obtain ⟨closed, rest⟩ := ledger.fresh entry (by
        rw [backlog]
        exact List.mem_cons_of_mem _ waits)
      have different : entry.1 ≠ client := by
        intro same
        rw [← same] at distinct
        exact distinct.1 (List.mem_map.mpr ⟨entry, waits, rfl⟩)
      exact ⟨(Function.update_of_ne different ..).trans closed, rest⟩
    · intro other opened
      by_cases same : other = client
      · subst other
        exact known
      · refine ledger.allowed other (opened.imp_left fun some none => some ?_)
        exact (Function.update_of_ne same ..).trans none
  · refine .admitting ?_ client number 0 new (by decide)
    exact lives
  · intro other code place
    by_cases same : other = client
    · subst other
      rw [new]
      exact place.opened seat
    · have unchanged : State.seat { state with
          backlog := waiting
          fd := Function.update state.fd client (some number)
          sockets := Function.update state.sockets number (some client) } other =
          state.seat other := by
        simp only [State.seat, Function.update_of_ne same]
      rw [unchanged]
      exact place
  · intro ops place code owner
    have early := owner.early lives
    exact ⟨owner.code, owner.shape, owner.within, owner.running, owner.sweep, owner.opened,
      owner.closed, owner.accept, fun late => by omega, owner.kept, owner.joined, owner.bound,
      owner.ended, owner.known⟩

/-- A connection that is not let in is closed at once. -/
theorem refuse_outcome (ledger : Ledger config state) (lives : .accept ∉ state.finished)
    {entry : Client × Option Nat} {waiting : List (Client × Option Nat)}
    (backlog : state.backlog = entry :: waiting) :
    AcceptStep config state { state with backlog := waiting } [.acceptLoop] := by
  refine ⟨?_, .looping lives, fun _ _ there => there, ?_, Iff.rfl⟩
  · have distinct := ledger.distinct
    have fresh := ledger.fresh
    rw [backlog] at distinct fresh
    exact ⟨ledger.fds, (List.nodup_cons.mp distinct).2,
      fun later member => fresh later (List.mem_cons_of_mem _ member), ledger.allowed,
      ledger.listed, ledger.once, ledger.faultless, ledger.addressed⟩
  · intro ops place code owner
    exact ⟨owner.code, owner.shape, owner.within, owner.running, owner.sweep, owner.opened,
      owner.closed, owner.accept, owner.shut, owner.kept, owner.joined, owner.bound, owner.ended,
      owner.known⟩

/-- The daemon lists a connection with its descriptor and starts its reader. -/
theorem admit_outcome (ledger : Ledger config state) (lives : .accept ∉ state.finished)
    {client : Client} {number : Nat}
    (seat : state.seat client = ⟨false, some number, 0, false, false⟩) :
    AcceptStep config state { state with
      clients := state.clients ++ [client]
      readers := state.readers ++ [client]
      admitted := client :: state.admitted } [.unlock .clients, .acceptLoop] := by
  have opened : state.fd client = some number := congrArg Seat.fd seat
  have outside : client ∉ state.admitted := by
    simpa [State.seat] using congrArg Seat.admitted seat
  have unlisted : client ∉ state.clients := by
    simpa [State.seat] using congrArg Seat.listed seat
  refine ⟨?_, .admitted lives, ?_, ?_, Iff.rfl⟩
  · refine ⟨ledger.fds, ledger.distinct, ?_, ?_, ?_, List.nodup_cons.mpr ⟨outside, ledger.once⟩,
      ledger.faultless, ledger.addressed⟩
    · intro entry member
      obtain ⟨none, out, dialed⟩ := ledger.fresh entry member
      have different : entry.1 ≠ client := by
        rintro rfl
        rw [opened] at none
        cases none
      exact ⟨none, by simp [different, out], dialed⟩
    · intro other known
      rcases known with some | member
      · exact ledger.allowed other (.inl some)
      · rcases List.mem_cons.mp member with rfl | before
        · exact ledger.allowed other (.inl (by simp [opened]))
        · exact ledger.allowed other (.inr before)
    · rw [List.nodup_append]
      refine ⟨ledger.listed, List.nodup_singleton _, ?_⟩
      rintro first listed second single rfl
      exact unlisted (List.mem_singleton.mp single ▸ listed)
  · intro other code place
    by_cases same : other = client
    · subst other
      obtain ⟨_, -, rfl⟩ := place.waits (by rw [seat])
      have admitted : State.seat { state with
          clients := state.clients ++ [client]
          readers := state.readers ++ [client]
          admitted := client :: state.admitted } client = ⟨true, some number, 0, true, false⟩ := by
        simp only [State.seat, Seat.mk.injEq] at seat ⊢
        exact ⟨by simp, seat.2.1, seat.2.2.1, by simp, seat.2.2.2.2⟩
      rw [admitted]
      exact .starting
    · have unchanged : State.seat { state with
          clients := state.clients ++ [client]
          readers := state.readers ++ [client]
          admitted := client :: state.admitted } other = state.seat other := by
        simp [State.seat, same]
      rw [unchanged]
      exact place
  · intro ops place code owner
    have early := owner.early lives
    refine ⟨owner.code, owner.shape, owner.within, owner.running, owner.sweep, owner.opened,
      owner.closed, owner.accept, fun late => by omega, ?_, fun late => by omega, owner.bound,
      owner.ended, ?_⟩
    · intro within other member
      rcases List.mem_cons.mp member with rfl | before
      · exact .inr (List.mem_append_right _ List.mem_cons_self)
      · exact (owner.kept within other before).imp_right (List.mem_append_left _)
    · rintro other (kept | ahead)
      · rcases List.mem_append.mp kept with before | here
        · exact List.mem_cons_of_mem _ (owner.known other (.inl before))
        · exact List.mem_cons.mpr (.inl (List.mem_singleton.mp here))
      · exact List.mem_cons_of_mem _ (owner.known other (.inr ahead))

/-- The accept thread forgets readers that have ended, and no others. -/
theorem reap_outcome (ledger : Ledger config state) (lives : .accept ∉ state.finished)
    {client : Client} {number : Nat}
    (seat : state.seat client = ⟨false, some number, 0, false, false⟩) :
    AcceptStep config state { state with
      readers := state.readers.filter fun client => .reader client ∉ state.finished }
      ((admission client).drop 1) := by
  refine ⟨?_, ?_, fun _ _ there => there, ?_, Iff.rfl⟩
  · exact ⟨ledger.fds, ledger.distinct, ledger.fresh, ledger.allowed, ledger.listed, ledger.once,
      ledger.faultless, ledger.addressed⟩
  · refine .admitting ?_ client number 1 ?_ (by decide)
    · exact lives
    · exact seat
  · intro ops place code owner
    have early := owner.early lives
    refine ⟨owner.code, owner.shape, owner.within, owner.running, owner.sweep, owner.opened,
      owner.closed, owner.accept, owner.shut, ?_, owner.joined, owner.bound, owner.ended, ?_⟩
    · intro within other member
      by_cases ended : .reader other ∈ state.finished
      · exact .inl ended
      · have kept := (owner.kept within other member).resolve_left ended
        exact .inr (List.mem_filter.mpr ⟨kept, by simpa using ended⟩)
    · intro other kept
      exact owner.known other (kept.imp_left List.mem_of_mem_filter)

/-- The accept thread ends. -/
theorem finish_accept_outcome (ledger : Ledger config state) :
    AcceptStep config state { state with finished := .accept :: state.finished } [] := by
  refine ⟨?_, .gone List.mem_cons_self, ?_, ?_, by simp⟩
  · exact ⟨ledger.fds, ledger.distinct, ledger.fresh, ledger.allowed, ledger.listed, ledger.once,
      ledger.faultless, ledger.addressed⟩
  · intro client code place
    have unchanged : State.seat { state with finished := .accept :: state.finished } client =
        state.seat client := by
      simp [State.seat]
    rw [unchanged]
    exact place
  · intro ops place code owner
    have more {worker : Worker Client} (member : worker ∈ state.finished) :
        worker ∈ Worker.accept :: state.finished := List.mem_cons_of_mem _ member
    exact ⟨owner.code, owner.shape, owner.within, owner.running,
      fun late => more (owner.sweep late), owner.opened, owner.closed,
      fun late => more (owner.accept late), owner.shut,
      fun early other member => (owner.kept early other member).imp_left more,
      fun late other member => (owner.joined late other member).imp_left more, owner.bound,
      by simpa using owner.ended, owner.known⟩

/-- The accept thread is at one of its places after each of its steps. -/
theorem accept_step (ledger : Ledger config state) (unseated : Unseated state)
    (listening : .accept ∉ state.finished → state.listener ≠ .closed)
    {code next : Code Client} (place : AcceptAt state code)
    (outcome : (decode config choice state code).outcome state = some (after, next)) :
    AcceptStep config state after next := by
  have quietly {code : Code Client} (there : AcceptAt state code)
      (same : (state, code) = (after, next)) : AcceptStep config state after next := by
    obtain ⟨rfl, rfl⟩ := Prod.mk.inj same
    exact .same ledger there
  cases place with
  | looping lives =>
      simp only [decode] at outcome
      split at outcome
      · exact quietly (.accepting lives) (Option.some.inj outcome)
      · exact quietly (.finishing lives) (Option.some.inj outcome)
  | accepting lives =>
      simp only [decode, State.accept] at outcome
      split at outcome
      · rename_i closed
        exact absurd closed (listening lives)
      · exact quietly (.looping lives) (Option.some.inj outcome)
      · split at outcome
        · cases outcome
        · rename_i client uid waiting backlog
          split at outcome
          · exact quietly (.looping lives) (Option.some.inj outcome)
          · rename_i succeeds
            have unused : state.sockets choice.number = none := by
              by_contra used
              exact succeeds (.inr used)
            split at outcome
            · rename_i allowed
              obtain ⟨rfl, rfl⟩ := Prod.mk.inj (Option.some.inj outcome)
              rw [List.append_nil]
              exact accept_outcome ledger lives unseated backlog unused allowed
            · obtain ⟨rfl, rfl⟩ := Prod.mk.inj (Option.some.inj outcome)
              exact refuse_outcome ledger lives backlog
  | admitting lives client number place seat early =>
      interval_cases place
      · obtain ⟨rfl, rfl⟩ := Prod.mk.inj (Option.some.inj outcome)
        exact reap_outcome ledger lives seat
      · exact quietly (.admitting lives client number 2 seat (by decide)) (Option.some.inj outcome)
      · obtain ⟨rfl, rfl⟩ := Prod.mk.inj (Option.some.inj outcome)
        exact admit_outcome ledger lives seat
  | admitted lives => exact quietly (.looping lives) (Option.some.inj outcome)
  | finishing lives =>
      obtain ⟨rfl, rfl⟩ := Prod.mk.inj (Option.some.inj outcome)
      exact finish_accept_outcome ledger
  | gone ended => cases outcome

omit [LinearOrder Client] in
/-- A step that opens no descriptor leaves the connection that is let in. -/
theorem Entering.same {code : Code Client} (entering : Entering state code)
    (seats : ∀ client, client ∉ after.admitted →
      client ∉ state.admitted ∧ after.fd client = state.fd client) : Entering after code := by
  intro client outside opened
  obtain ⟨before, same⟩ := seats client outside
  rw [same] at opened
  exact entering client before opened

omit [LinearOrder Client] in
/-- The code of an admission tells its place and its client. -/
theorem admission_drop {client other : Client} {place later : Nat} (early : place ≤ 2)
    (soon : later ≤ 2) (same : (admission client).drop place = (admission other).drop later) :
    place = later ∧ client = other := by
  interval_cases place <;> interval_cases later <;> simp_all [admission]

/-- The accept thread lets one connection in at a time. -/
theorem accept_entering {code next : Code Client} (entering : Entering state code)
    (place : AcceptAt state code)
    (outcome : (decode config choice state code).outcome state = some (after, next)) :
    Entering after next := by
  have settled (other : ∀ client, ∀ place ≤ 2, code ≠ (admission client).drop place)
      (client : Client) (outside : client ∉ state.admitted) : state.fd client = none := by
    by_contra opened
    obtain ⟨place, early, here⟩ := entering client outside opened
    exact other client place early here
  have idle (settled : ∀ client, client ∉ state.admitted → state.fd client = none)
      (fd : after.fd = state.fd) (admitted : after.admitted = state.admitted) :
      Entering after next := by
    intro client outside opened
    rw [admitted] at outside
    rw [fd] at opened
    exact absurd (settled client outside) opened
  cases place with
  | looping lives =>
      have settled := settled fun client place early => by
        interval_cases place <;> simp [admission]
      simp only [decode] at outcome
      obtain ⟨rfl, -⟩ := Prod.mk.inj (Option.some.inj outcome)
      exact idle settled rfl rfl
  | accepting lives =>
      have settled := settled fun client place early => by
        interval_cases place <;> simp [admission]
      simp only [decode, State.accept] at outcome
      split at outcome
      · obtain ⟨rfl, -⟩ := Prod.mk.inj (Option.some.inj outcome)
        exact idle settled rfl rfl
      · obtain ⟨rfl, -⟩ := Prod.mk.inj (Option.some.inj outcome)
        exact idle settled rfl rfl
      · split at outcome
        · cases outcome
        · rename_i client uid waiting backlog
          split at outcome
          · obtain ⟨rfl, -⟩ := Prod.mk.inj (Option.some.inj outcome)
            exact idle settled rfl rfl
          · split at outcome
            · obtain ⟨rfl, rfl⟩ := Prod.mk.inj (Option.some.inj outcome)
              intro other outside opened
              by_cases same : other = client
              · subst other
                exact ⟨0, by decide, List.append_nil _⟩
              · refine absurd ?_ opened
                exact (Function.update_of_ne same ..).trans (settled other outside)
            · obtain ⟨rfl, -⟩ := Prod.mk.inj (Option.some.inj outcome)
              exact idle settled rfl rfl
  | admitting lives client number place seat early =>
      have only (other : Client) (outside : other ∉ state.admitted)
          (opened : state.fd other ≠ none) : client = other := by
        obtain ⟨later, soon, same⟩ := entering other outside opened
        exact (admission_drop early soon same).2
      interval_cases place
      · obtain ⟨rfl, rfl⟩ := Prod.mk.inj (Option.some.inj outcome)
        intro other outside opened
        exact ⟨1, by decide, by rw [only other outside opened]; rfl⟩
      · obtain ⟨rfl, rfl⟩ := Prod.mk.inj (Option.some.inj outcome)
        intro other outside opened
        exact ⟨2, by decide, by rw [only other outside opened]; rfl⟩
      · obtain ⟨rfl, -⟩ := Prod.mk.inj (Option.some.inj outcome)
        intro other outside opened
        have before : other ∉ state.admitted :=
          fun member => outside (List.mem_cons_of_mem _ member)
        exact absurd (List.mem_cons.mpr (.inl (only other before opened).symm)) outside
  | admitted lives =>
      have settled := settled fun client place early => by
        interval_cases place <;> simp [admission]
      obtain ⟨rfl, -⟩ := Prod.mk.inj (Option.some.inj outcome)
      exact idle settled rfl rfl
  | finishing lives =>
      have settled := settled fun client place early => by
        interval_cases place <;> simp [admission]
      obtain ⟨rfl, -⟩ := Prod.mk.inj (Option.some.inj outcome)
      exact idle settled rfl rfl
  | gone ended => cases outcome

end Chappe.Server
