/-
This file proves with which operations the code of a thread of a daemon goes on after each step.
-/

import Chappe.Proof.Server.LockOrder
import Chappe.Proof.Server.Reading

namespace Chappe.Server
open Foundation

variable {Client : Type}

/-- The operations of `handle_frame` and the writes. -/
def Op.speaks : Op Client → Bool
  | .write _ _ | .request _ _ | .inquire _ _ _ | .subscribe _ _ | .replay _ _ => true
  | _ => false

/-- Code that does not go on with a frame. -/
def Bare (code : Code Client) : Prop := ∀ op ∈ code, op.speaks = false

@[simp] theorem bare_nil : Bare ([] : Code Client) := fun _ member => absurd member (by simp)

@[simp] theorem bare_cons {op : Op Client} {code : Code Client} :
    Bare (op :: code) ↔ op.speaks = false ∧ Bare code := List.forall_mem_cons

theorem bare_removeClient (client : Client) : Bare (removeClient client) := by
  simp [removeClient, Op.speaks]

theorem bare_joins (clients : List Client) : Bare (joins clients) := by
  intro op member
  obtain ⟨client, -, rfl⟩ := List.mem_map.mp member
  rfl

theorem bare_shutdowns (clients : List Client) : Bare (shutdowns clients) := by
  intro op member
  obtain ⟨client, -, here⟩ := List.mem_flatMap.mp member
  rcases (by simpa using here) with rfl | rfl | rfl <;> rfl

variable [LinearOrder Client] {config : Config} {choice : Choice} {state after : State Client}

/-- A step that neither runs the store nor writes a frame. -/
structure Calm (before after : State Client) : Prop where
  store : after.store = before.store
  sent : after.sent = before.sent
  shut : ∀ client, after.shut client = false → before.shut client = false
  fd : ∀ client, after.fd client ≠ none →
    before.fd client ≠ none ∨ client ∈ before.backlog.map Prod.fst
  admitted : ∀ client ∈ before.admitted, client ∈ after.admitted

/-- With what a thread goes on after an operation that does not run the store, and what it takes. -/
inductive Goes (state : State Client) : Op Client → Code Client → List (Deed Client) → Prop where
  | bare {op : Op Client} {ops : Code Client} (silent : Bare ops) : Goes state op ops []
  | takes {client peer : Client} {number : Nat} {frame : Frame} {frames : List Frame}
      (socket : state.sockets number = some peer) (inbox : state.inbox peer = frame :: frames) :
      Goes state (.next client number) (handleFrame client frame ++ [.loop client number])
        [.take peer frame]
  | replays (client : Client) (topic : Bytes) : Goes state (.replay client topic)
      (.unlock .retained :: sends ((state.retained topic).toList.map fun value =>
        (client, Msg.publish.frame topic value))) []
  | routes (client : Client) (frame : Frame) : Goes state (.snapshot client frame)
      (.unlock .subs :: sends ((((state.tables.targets frame.name).erase client).sort
        (· ≤ ·)).map (·, Msg.publish.frame frame.name frame.payload))) []
  | inquires (client : Client) (order : List Bytes) (report : Report) (inquiry : Inquiry) :
      Goes state (.inquire client report inquiry) (.unlock (inquiryLock inquiry).1 ::
        afterInquiry client (state.inquire order report inquiry)) []

/-- The operations that neither run the store nor write a frame. -/
def Op.calm : Op Client → Bool
  | .request _ _ | .sweepKeys _ | .leaveKeys _ | .write _ _ => false
  | _ => true

omit [LinearOrder Client] in
theorem Calm.same (store : after.store = state.store) (sent : after.sent = state.sent)
    (shut : after.shut = state.shut) (fd : after.fd = state.fd)
    (admitted : after.admitted = state.admitted) : Calm state after where
  store := store
  sent := sent
  shut := fun _ up => shut ▸ up
  fd := fun _ opened => .inl (fd ▸ opened)
  admitted := fun _ member => admitted.symm ▸ member

omit [LinearOrder Client] in
theorem Calm.refl (state : State Client) : Calm state state :=
  .same rfl rfl rfl rfl rfl

theorem closeFd_calm (client : Client) : Calm state (state.closeFd client) := by
  have closed (other : Client) (opened : Function.update state.fd client none other ≠ none) :
      state.fd other ≠ none ∨ other ∈ state.backlog.map Prod.fst := by
    by_cases same : other = client
    · subst other
      exact absurd (Function.update_self ..) opened
    · rw [Function.update_of_ne same] at opened
      exact .inl opened
  unfold State.closeFd
  split
  · exact .refl state
  · split
    · exact ⟨rfl, rfl, fun _ up => up, closed, fun _ member => member⟩
    · exact ⟨rfl, rfl, fun _ up => up, closed, fun _ member => member⟩

theorem shutFd_calm (client : Client) : Calm state (state.shutFd client) := by
  unfold State.shutFd
  split
  · exact .refl state
  · split
    · exact .same rfl rfl rfl rfl rfl
    · rename_i peer _
      refine ⟨rfl, rfl, fun other up => ?_, fun _ opened => .inl opened, fun _ member => member⟩
      change Function.update state.shut peer true other = false at up
      by_cases same : other = peer
      · subst other
        rw [Function.update_self] at up
        cases up
      · rwa [Function.update_of_ne same] at up

theorem next_goes {client : Client} {number : Nat} {rest next : Code Client}
    (outcome : (state.next client number choice.failed rest).outcome state =
      some (after, next)) : Calm state after ∧ ∃ ops, next = ops ++ rest ∧
        Goes state (.next client number) ops (state.deed choice (.next client number :: rest)) := by
  rcases next_outcome outcome with
    ⟨rfl, none, rfl | ⟨-, rfl⟩⟩ | ⟨peer, frame, frames, socket, inbox, one, rfl, rfl⟩
  · rw [none]
    exact ⟨.refl _, _, rfl, .bare (bare_removeClient client)⟩
  · rw [none]
    exact ⟨.same rfl rfl rfl rfl rfl, _, rfl, .bare (bare_removeClient client)⟩
  · rw [one]
    exact ⟨.same rfl rfl rfl rfl rfl, _, by simp, .takes socket inbox⟩

theorem accept_goes {rest next : Code Client}
    (outcome : (state.accept config choice rest).outcome state = some (after, next)) :
    Calm state after ∧ ∃ ops, next = ops ++ rest ∧ Bare ops := by
  have again : Bare [(.acceptLoop : Op Client)] := by simp [Op.speaks]
  unfold State.accept at outcome
  split at outcome
  · obtain ⟨rfl, rfl⟩ := Prod.mk.inj (Option.some.inj outcome)
    exact ⟨.same rfl rfl rfl rfl rfl, _, rfl, again⟩
  · obtain ⟨rfl, rfl⟩ := Prod.mk.inj (Option.some.inj outcome)
    exact ⟨.refl state, _, rfl, again⟩
  · split at outcome
    · cases outcome
    · rename_i client uid waiting backlog
      split at outcome
      · obtain ⟨rfl, rfl⟩ := Prod.mk.inj (Option.some.inj outcome)
        exact ⟨.refl state, _, rfl, again⟩
      · split at outcome
        · obtain ⟨rfl, rfl⟩ := Prod.mk.inj (Option.some.inj outcome)
          refine ⟨⟨rfl, rfl, fun _ up => up, ?_, fun _ member => member⟩, admission client,
            rfl, by simp [admission, Op.speaks]⟩
          intro other opened
          by_cases same : other = client
          · exact .inr (by simp [backlog, same])
          · change Function.update state.fd client (some choice.number) other ≠ none at opened
            rw [Function.update_of_ne same] at opened
            exact .inl opened
        · obtain ⟨rfl, rfl⟩ := Prod.mk.inj (Option.some.inj outcome)
          exact ⟨.same rfl rfl rfl rfl rfl, _, rfl, again⟩

/-- What a calm operation changes, takes and goes on with. -/
theorem calm_outcome {op : Op Client} {rest next : Code Client} (calm : op.calm = true)
    (outcome : (decode config choice state (op :: rest)).outcome state = some (after, next)) :
    Calm state after ∧ ∃ ops, next = ops ++ rest ∧
      Goes state op ops (state.deed choice (op :: rest)) := by
  have plainly {name : Op Client} (ops : Code Client) (silent : Bare ops)
      (same : (state, ops ++ rest) = (after, next)) :
      Calm state after ∧ ∃ ops, next = ops ++ rest ∧ Goes state name ops [] := by
    obtain ⟨rfl, rfl⟩ := Prod.mk.inj same
    exact ⟨.refl state, ops, rfl, .bare silent⟩
  cases op with
  | request _ _ | sweepKeys _ | leaveKeys _ | write _ _ => cases calm
  | lock mutex mode => exact plainly [] bare_nil (Option.some.inj outcome)
  | unlock mutex => exact plainly [] bare_nil (Option.some.inj outcome)
  | doze | notify => exact plainly [] bare_nil (Option.some.inj outcome)
  | start client =>
      simp only [decode] at outcome
      split at outcome
      · exact plainly [_] (by simp [Op.speaks]) (Option.some.inj outcome)
      · cases outcome
  | loop client number =>
      simp only [decode] at outcome
      split at outcome
      · exact plainly [_] (by simp [Op.speaks]) (Option.some.inj outcome)
      · exact plainly _ (bare_removeClient client) (Option.some.inj outcome)
  | next client number => exact next_goes outcome
  | accept =>
      obtain ⟨kept, ops, same, silent⟩ := accept_goes outcome
      exact ⟨kept, ops, same, .bare silent⟩
  | replay client topic =>
      obtain ⟨rfl, rfl⟩ := Prod.mk.inj (Option.some.inj outcome)
      exact ⟨.refl state, _, rfl, .replays client topic⟩
  | snapshot client frame =>
      obtain ⟨rfl, rfl⟩ := Prod.mk.inj (Option.some.inj outcome)
      exact ⟨.refl state, _, rfl, .routes client frame⟩
  | inquire client report inquiry =>
      obtain ⟨rfl, rfl⟩ := Prod.mk.inj (Option.some.inj outcome)
      exact ⟨.refl state, _, rfl, .inquires client choice.order report inquiry⟩
  | acceptLoop =>
      refine plainly [_] ?_ (Option.some.inj outcome)
      split <;> simp [Op.speaks]
  | sweepLoop =>
      refine plainly _ ?_ (Option.some.inj outcome)
      split <;> simp [Op.speaks]
  | recheck =>
      refine plainly _ ?_ (Option.some.inj outcome)
      split <;> simp [Op.speaks]
  | closeFd client =>
      obtain ⟨rfl, rfl⟩ := Prod.mk.inj (Option.some.inj outcome)
      exact ⟨closeFd_calm client, [], rfl, .bare bare_nil⟩
  | shutFd client =>
      obtain ⟨rfl, rfl⟩ := Prod.mk.inj (Option.some.inj outcome)
      exact ⟨shutFd_calm client, [], rfl, .bare bare_nil⟩
  | shutClients => exact plainly _ (bare_shutdowns _) (Option.some.inj outcome)
  | clearReaders =>
      obtain ⟨rfl, rfl⟩ := Prod.mk.inj (Option.some.inj outcome)
      exact ⟨.same rfl rfl rfl rfl rfl, _, rfl, .bare (bare_joins _)⟩
  | destroyed | join _ =>
      simp only [decode] at outcome
      split at outcome
      · exact plainly [] bare_nil (Option.some.inj outcome)
      · cases outcome
  | subscribe _ _ | unsubscribe _ _ | retain _ | leaveTopics _ | eraseClient _ | reap | stop
  | shutListen | closeListen | unlink | finish _ =>
      obtain ⟨rfl, rfl⟩ := Prod.mk.inj (Option.some.inj outcome)
      exact ⟨.same rfl rfl rfl rfl rfl, [], rfl, .bare bare_nil⟩
  | enlist client =>
      obtain ⟨rfl, rfl⟩ := Prod.mk.inj (Option.some.inj outcome)
      exact ⟨⟨rfl, rfl, fun _ up => up, fun _ opened => .inl opened,
        fun _ member => List.mem_cons_of_mem _ member⟩, [], rfl, .bare bare_nil⟩

end Chappe.Server
