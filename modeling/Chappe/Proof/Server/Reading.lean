/-
This file says what a read of a connection does, and which steps leave the frames that wait and the
tables of the subscriptions as they are.
-/

import Chappe.Construction.ServerHistory

namespace Chappe.Server
open Foundation

variable {Client : Type} [LinearOrder Client] {config : Config} {choice : Choice}
  {state after : State Client} {client : Client} {number : Nat} {rest next : Code Client}

/-- A reader either ends or takes the first frame that waits on its connection. -/
theorem next_outcome
    (outcome : (state.next client number choice.failed rest).outcome state =
      some (after, next)) :
    (next = removeClient client ++ rest ∧
      state.deed choice (.next client number :: rest) = [] ∧
      (after = state ∨
        state.sockets number = none ∧ after = { state with faults := state.faults + 1 })) ∨
    ∃ peer frame frames, state.sockets number = some peer ∧ state.inbox peer = frame :: frames ∧
      state.deed choice (.next client number :: rest) = [.take peer frame] ∧
      after = { state with
        inbox := Function.update state.inbox peer frames
        named := insert frame.name state.named } ∧
      next = handleFrame client frame ++ .loop client number :: rest := by
  unfold State.next at outcome
  simp only [State.deed]
  cases socket : state.sockets number with
  | none =>
      simp only [socket] at outcome ⊢
      obtain ⟨rfl, rfl⟩ := Prod.mk.inj (Option.some.inj outcome)
      exact .inl ⟨rfl, trivial, .inr ⟨trivial, rfl⟩⟩
  | some peer =>
      cases inbox : state.inbox peer with
      | nil =>
          simp only [socket, inbox] at outcome ⊢
          split at outcome
          · obtain ⟨rfl, rfl⟩ := Prod.mk.inj (Option.some.inj outcome)
            exact .inl ⟨rfl, trivial, .inl rfl⟩
          · cases outcome
      | cons frame frames =>
          simp only [socket, inbox] at outcome ⊢
          split at outcome
          · rename_i lost
            obtain ⟨rfl, rfl⟩ := Prod.mk.inj (Option.some.inj outcome)
            exact .inl ⟨rfl, if_pos lost, .inl rfl⟩
          · rename_i sound
            obtain ⟨rfl, rfl⟩ := Prod.mk.inj (Option.some.inj outcome)
            exact .inr ⟨peer, frame, frames, rfl, inbox, if_neg sound, rfl, rfl⟩

/-- A step that leaves the frames that wait and the subscriptions as they are. -/
structure Kept (before after : State Client) : Prop where
  inbox : after.inbox = before.inbox
  tables : after.tables = before.tables

omit [LinearOrder Client] in
theorem Kept.refl (state : State Client) : Kept state state := ⟨rfl, rfl⟩

omit [LinearOrder Client] in
theorem Kept.act {other : State Client} {code : Code Client}
    (same : (other, code) = (after, next)) (kept : Kept state other) : Kept state after := by
  obtain ⟨rfl, -⟩ := Prod.mk.inj same
  exact kept

theorem write_kept (client : Client) (frame : Frame) (failed : Bool) :
    Kept state (state.write client frame failed) := by
  unfold State.write
  split
  · exact .refl state
  · split
    · exact ⟨rfl, rfl⟩
    · split <;> exact ⟨rfl, rfl⟩

theorem closeFd_kept (client : Client) : Kept state (state.closeFd client) := by
  unfold State.closeFd
  split
  · exact .refl state
  · split <;> exact ⟨rfl, rfl⟩

theorem shutFd_kept (client : Client) : Kept state (state.shutFd client) := by
  unfold State.shutFd
  split
  · exact .refl state
  · split <;> exact ⟨rfl, rfl⟩

theorem accept_kept
    (outcome : (state.accept config choice rest).outcome state = some (after, next)) :
    Kept state after := by
  unfold State.accept at outcome
  split at outcome
  · exact .act (Option.some.inj outcome) ⟨rfl, rfl⟩
  · exact .act (Option.some.inj outcome) (.refl state)
  · split at outcome
    · cases outcome
    · split at outcome
      · exact .act (Option.some.inj outcome) (.refl state)
      · split at outcome
        · exact .act (Option.some.inj outcome) ⟨rfl, rfl⟩
        · exact .act (Option.some.inj outcome) ⟨rfl, rfl⟩

/-- The operations that take a frame or change a subscription. -/
def Op.changes : Op Client → Bool
  | .next _ _ | .subscribe _ _ | .unsubscribe _ _ | .leaveTopics _ => true
  | _ => false

/-- Every other operation leaves the frames that wait and the subscriptions as they are. -/
theorem kept_outcome {op : Op Client} (still : op.changes = false)
    (outcome : (decode config choice state (op :: rest)).outcome state = some (after, next)) :
    Kept state after := by
  cases op with
  | next _ _ | subscribe _ _ | unsubscribe _ _ | leaveTopics _ => cases still
  | accept => exact accept_kept outcome
  | write peer frame => exact .act (Option.some.inj outcome) (write_kept peer frame _)
  | closeFd peer => exact .act (Option.some.inj outcome) (closeFd_kept peer)
  | shutFd peer => exact .act (Option.some.inj outcome) (shutFd_kept peer)
  | start _ | destroyed | join _ =>
      simp only [decode] at outcome
      split at outcome
      · exact .act (Option.some.inj outcome) ⟨rfl, rfl⟩
      · cases outcome
  | loop _ _ =>
      simp only [decode] at outcome
      split at outcome
      · exact .act (Option.some.inj outcome) ⟨rfl, rfl⟩
      · exact .act (Option.some.inj outcome) ⟨rfl, rfl⟩
  | _ => exact .act (Option.some.inj outcome) ⟨rfl, rfl⟩

end Chappe.Server
