/-
This file proves that each call of a node has a number of its own and belongs to one thread.
-/

import Chappe.Proof.Requests.Moves

namespace Chappe
open Foundation

variable {Thread Client : Type}

/-- The call that a thread works on. -/
def Caller.call : Caller → Option Nat
  | .idle => none
  | .numbered _ call | .parked _ call | .releasing call _ | .setting _ call _ | .waiting call =>
      some call

/-- Each call has a number below the counter and belongs to one thread. -/
structure Exchange.Numbered (exchange : Exchange Thread Client) : Prop where
  unique : ∀ first second call, (exchange.caller first).call = some call →
    (exchange.caller second).call = some call → first = second
  issued : ∀ thread call, (exchange.caller thread).call = some call → call < exchange.nextReq

variable {exchange next : Exchange Thread Client}

theorem Exchange.Numbered.initial (store : Store (Nat ⊕ Client)) :
    (Exchange.initial store : Exchange Thread Client).Numbered := ⟨nofun, nofun⟩

variable [DecidableEq Thread]

/-- A thread goes on with its call or drops it. -/
theorem goto_call {thread : Thread} {place : Caller}
    (same : ∀ call, place.call = some call → (exchange.caller thread).call = some call)
    (other : Thread) (call : Nat)
    (works : ((exchange.goto thread place).caller other).call = some call) :
    (exchange.caller other).call = some call := by
  by_cases here : other = thread
  · simp only [Exchange.goto, here, Function.update_self] at works
    rw [here]
    exact same call works
  · simpa only [Exchange.goto, Function.update_of_ne here] using works

theorem fulfilled_call {thread : Thread} {own : Nat} {gaveUp : Bool}
    (mine : (exchange.caller thread).call = some own) (other : Thread) (call : Nat)
    (works : ((exchange.fulfilled thread own gaveUp).caller other).call = some call) :
    (exchange.caller other).call = some call := by
  unfold Exchange.fulfilled at works
  split at works
  · refine goto_call ?_ other call works
    intro _ idle
    cases idle
  · refine goto_call ?_ other call works
    intro _ waits
    rw [mine, ← waits]
    rfl

variable [DecidableEq Client]

/-- A step starts a call with the next number, or every thread goes on with its call or drops it. -/
theorem move_calls (move : exchange.Move next) :
    (∃ thread request, exchange.caller thread = .idle ∧
      next = { exchange with nextReq := exchange.nextReq + 1 }.goto thread
        (.numbered request exchange.nextReq)) ∨
    (next.nextReq = exchange.nextReq ∧ ∀ other call, (next.caller other).call = some call →
      (exchange.caller other).call = some call) := by
  have goes {thread : Thread} {before place : Caller} (here : exchange.caller thread = before)
      (same : ∀ call, place.call = some call → before.call = some call) :
      ∀ call, place.call = some call → (exchange.caller thread).call = some call := by
    rw [here]
    exact same
  cases move with
  | call thread request here => exact .inl ⟨thread, request, here, rfl⟩
  | register thread request call here => exact .inr ⟨rfl, goto_call (goes here fun _ => id)⟩
  | send thread request call connection here open_ =>
      exact .inr ⟨rfl, goto_call (goes here fun _ => id)⟩
  | refuse thread request call here => exact .inr ⟨rfl, goto_call (goes here fun _ => id)⟩
  | take thread call taken gaveUp here found =>
      exact .inr ⟨rfl, goto_call (goes here fun _ => id)⟩
  | missed thread call gaveUp here absent =>
      refine .inr ⟨?_, fulfilled_call (by rw [here]; rfl)⟩
      unfold Exchange.fulfilled
      split <;> rfl
  | set thread taken call gaveUp here =>
      have mine : ((exchange.setValue taken none).caller thread).call = some call := by
        rw [show (exchange.setValue taken none).caller = exchange.caller from rfl, here]
        rfl
      refine .inr ⟨?_, fulfilled_call mine⟩
      unfold Exchange.fulfilled
      split <;> rfl
  | ready thread call value here known => exact .inr ⟨rfl, goto_call nofun⟩
  | timeout thread call here => exact .inr ⟨rfl, goto_call (goes here fun _ => id)⟩
  | stay | post | read | skip | claim | ignore | settle | drop | close | clear | fail | dial | serve
  | push | remove => exact .inr ⟨rfl, fun _ _ => id⟩

theorem Exchange.Numbered.move (numbered : exchange.Numbered) (move : exchange.Move next) :
    next.Numbered := by
  rcases move_calls move with ⟨thread, request, idle, rfl⟩ | ⟨count, same⟩
  · have fresh (other : Thread) (call : Nat)
        (works : (exchange.caller other).call = some call) : call ≠ exchange.nextReq :=
      (numbered.issued other call works).ne
    refine ⟨?_, ?_⟩
    · intro first second call one two
      by_cases mine : first = thread <;> by_cases yours : second = thread
      · exact mine.trans yours.symm
      · simp only [Exchange.goto, mine, Function.update_self, Caller.call,
          Option.some.injEq] at one
        simp only [Exchange.goto, Function.update_of_ne yours] at two
        exact absurd one.symm (fresh second call two)
      · simp only [Exchange.goto, yours, Function.update_self, Caller.call,
          Option.some.injEq] at two
        simp only [Exchange.goto, Function.update_of_ne mine] at one
        exact absurd two.symm (fresh first call one)
      · simp only [Exchange.goto, Function.update_of_ne mine] at one
        simp only [Exchange.goto, Function.update_of_ne yours] at two
        exact numbered.unique first second call one two
    · intro other call works
      by_cases here : other = thread
      · simp only [Exchange.goto, here, Function.update_self, Caller.call,
          Option.some.injEq] at works
        exact Nat.lt_succ_of_le works.ge
      · simp only [Exchange.goto, Function.update_of_ne here] at works
        exact Nat.lt_succ_of_lt (numbered.issued other call works)
  · refine ⟨?_, ?_⟩
    · intro first second call one two
      exact numbered.unique first second call (same first call one) (same second call two)
    · intro other call works
      rw [count]
      exact numbered.issued other call (same other call works)

end Chappe
