/-
This file says where the threads of a daemon can be and what the daemon then knows about each
connection.
-/

import Chappe.Construction.Server

namespace Chappe.Server
open Foundation

variable {Client : Type}

/-- The operations that leave the life of every connection as it is. -/
def Op.plain : Op Client → Bool
  | .lock _ _ | .unlock _ | .subscribe _ _ | .unsubscribe _ _ | .replay _ _ | .snapshot _ _
  | .retain _ | .request _ _ | .inquire _ _ _ | .write _ _ | .doze | .sweepKeys _ => true
  | _ => false

def Plain (code : Code Client) : Prop := ∀ op ∈ code, op.plain = true

@[simp] theorem plain_nil : Plain ([] : Code Client) := fun _ member => absurd member (by simp)

@[simp] theorem plain_cons {op : Op Client} {code : Code Client} :
    Plain (op :: code) ↔ op.plain = true ∧ Plain code := List.forall_mem_cons

@[simp] theorem plain_append {first second : Code Client} :
    Plain (first ++ second) ↔ Plain first ∧ Plain second := List.forall_mem_append

@[simp] theorem plain_sends (writes : List (Client × Frame)) : Plain (sends writes) := by
  induction writes with
  | nil => exact plain_nil
  | cons write writes ih =>
      rw [sends, List.flatMap_cons]
      simp only [List.cons_append, List.nil_append, plain_cons, Op.plain, true_and]
      exact ih

theorem plain_handleFrame (client : Client) (frame : Frame) : Plain (handleFrame client frame) := by
  unfold handleFrame
  split
  · split <;> simp [Op.plain]
  · simp [Op.plain]
  · simp [Op.plain]
  · simp [Op.plain]
  · exact plain_sends _
  · split <;> simp [Op.plain]
  · split <;> simp [Op.plain]

theorem plain_afterInquiry (client : Client) (result : Report × Inquiry) :
    Plain (afterInquiry client result) := by
  obtain ⟨report, inquiry⟩ := result
  unfold afterInquiry
  cases inquiry with
  | reply => exact plain_sends _
  | clients => simp [Op.plain]
  | topics => simp [Op.plain]
  | retained => simp [Op.plain]
  | keys => simp [Op.plain]

/-- What the daemon knows about a connection: whether its reader was started, its descriptor, how
often that was closed, whether it is listed and whether its reader has ended. -/
structure Seat where
  admitted : Bool
  fd : Option Nat
  closes : Nat
  listed : Bool
  ended : Bool

/-- The reader of a client at each place of its code. -/
inductive ReaderAt (client : Client) : Seat → Code Client → Prop where
  | waiting {fd : Option Nat} : ReaderAt client ⟨false, fd, 0, false, false⟩ [.start client]
  | starting {number : Nat} : ReaderAt client ⟨true, some number, 0, true, false⟩ [.start client]
  | serving {number : Nat} {ops : Code Client} (plain : Plain ops) :
      ReaderAt client ⟨true, some number, 0, true, false⟩ (ops ++ [.loop client number])
  | reading {number : Nat} :
      ReaderAt client ⟨true, some number, 0, true, false⟩ [.next client number]
  | leaving {number : Nat} (place : Nat) (early : place ≤ 7) :
      ReaderAt client ⟨true, some number, 0, true, false⟩ ((removeClient client).drop place)
  | left (place : Nat) (late : 7 < place) (within : place ≤ 13) :
      ReaderAt client ⟨true, none, 1, place ≤ 10, place = 13⟩ ((removeClient client).drop place)

variable [LinearOrder Client]

def State.seat (state : State Client) (client : Client) : Seat where
  admitted := state.admitted.contains client
  fd := state.fd client
  closes := state.closes client
  listed := state.clients.contains client
  ended := state.finished.contains (.reader client)

/-- The accept thread at each place of its code. -/
inductive AcceptAt (state : State Client) : Code Client → Prop where
  | looping (lives : .accept ∉ state.finished) : AcceptAt state [.acceptLoop]
  | accepting (lives : .accept ∉ state.finished) : AcceptAt state [.accept]
  | admitting (lives : .accept ∉ state.finished) (client : Client) (number place : Nat)
      (seat : state.seat client = ⟨false, some number, 0, false, false⟩) (early : place ≤ 2) :
      AcceptAt state ((admission client).drop place)
  | admitted (lives : .accept ∉ state.finished) : AcceptAt state [.unlock .clients, .acceptLoop]
  | finishing (lives : .accept ∉ state.finished) : AcceptAt state [.finish .accept]
  | gone (ended : .accept ∈ state.finished) : AcceptAt state []

/-- The sweep thread at each place of its code. -/
inductive SweepAt (state : State Client) : Code Client → Prop where
  | working (lives : .sweep ∉ state.finished) {ops : Code Client} (plain : Plain ops)
      {last : Op Client} (ends : last = .sweepLoop ∨ last = .recheck ∨ last = .finish .sweep) :
      SweepAt state (ops ++ [last])
  | gone (ended : .sweep ∈ state.finished) : SweepAt state []

/-- The operations of the loop of the destructor over the clients. -/
def Op.shutting : Op Client → Bool
  | .lock _ _ | .unlock _ | .shutFd _ => true
  | _ => false

def Op.joining : Op Client → Bool
  | .join (.reader _) => true
  | _ => false

/-- The owner is in front of the rest of the destructor and of what a loop has left to do. -/
structure OwnerAt (state : State Client) (ops : Code Client) (place : Nat) (code : Code Client) :
    Prop where
  code : code = ops ++ destructor.drop place
  shape : ops = [] ∨ (place = 11 ∧ ∀ op ∈ ops, op.shutting = true) ∨
    (place = 13 ∧ ∀ op ∈ ops, op.joining = true)
  within : place ≤ 15
  running : state.running = true ↔ place ≤ 1
  sweep : 5 < place → .sweep ∈ state.finished
  opened : state.listener = .open ↔ place ≤ 6
  closed : state.listener = .closed ↔ 8 < place
  accept : 7 < place → .accept ∈ state.finished
  shut : 10 < place → ∀ client ∈ state.clients,
    state.shut client = true ∨ state.fd client = none ∨ .shutFd client ∈ ops
  kept : place ≤ 12 → ∀ client ∈ state.admitted,
    .reader client ∈ state.finished ∨ client ∈ state.readers
  joined : 12 < place → ∀ client ∈ state.admitted,
    .reader client ∈ state.finished ∨ .join (.reader client) ∈ ops
  bound : state.bound = true ↔ place ≤ 13
  ended : .owner ∈ state.finished ↔ place = 15
  known : ∀ client, client ∈ state.readers ∨ .join (.reader client) ∈ ops →
    client ∈ state.admitted

/-- The kernel has reported a user for the connection that the daemon lets in. -/
def State.Allowed (config : Config) (state : State Client) (client : Client) : Prop :=
  ∃ uid, (client, uid) ∈ state.dialed ∧ config.peerAllowed uid = true

/-- The descriptors of the clients are open and each its own, and no system call has missed. -/
structure Ledger (config : Config) (state : State Client) : Prop where
  fds : ∀ client number, state.fd client = some number ↔ state.sockets number = some client
  distinct : (state.backlog.map Prod.fst).Nodup
  fresh : ∀ entry ∈ state.backlog,
    state.fd entry.1 = none ∧ entry.1 ∉ state.admitted ∧ entry ∈ state.dialed
  allowed : ∀ client, (state.fd client ≠ none ∨ client ∈ state.admitted) →
    state.Allowed config client
  listed : state.clients.Nodup
  once : state.admitted.Nodup
  faultless : state.faults = 0
  addressed : ∀ peer, ∀ write ∈ state.sent peer, write.1 = peer ∧ state.Allowed config peer

/-- A connection with a descriptor and no reader is the one that the accept thread lets in. -/
def Entering (state : State Client) (code : Code Client) : Prop :=
  ∀ client, client ∉ state.admitted → state.fd client ≠ none →
    ∃ place ≤ 2, code = (admission client).drop place

/-- Every thread is at one of its places, and the descriptors are in order. -/
structure Sound (config : Config) (state : State Client) (code : Worker Client → Code Client) :
    Prop where
  ledger : Ledger config state
  readers : ∀ client, ReaderAt client (state.seat client) (code (.reader client))
  accept : AcceptAt state (code .accept)
  sweep : SweepAt state (code .sweep)
  owner : ∃ ops place, OwnerAt state ops place (code .owner)
  entering : Entering state (code .accept)

/-- A step that leaves the life of every connection as it is. -/
structure Quiet (before after : State Client) : Prop where
  running : after.running = before.running
  destroyed : after.destroyed = before.destroyed
  listener : after.listener = before.listener
  bound : after.bound = before.bound
  backlog : after.backlog = before.backlog
  dialed : after.dialed = before.dialed
  clients : after.clients = before.clients
  readers : after.readers = before.readers
  admitted : after.admitted = before.admitted
  finished : after.finished = before.finished
  fd : after.fd = before.fd
  sockets : after.sockets = before.sockets
  closes : after.closes = before.closes
  shut : ∀ client, before.shut client = true → after.shut client = true

end Chappe.Server
