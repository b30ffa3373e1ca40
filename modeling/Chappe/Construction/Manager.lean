/-
This file embeds the connection manager of `node.hpp`: the loop of `run` around
`read_until_closed`, with the waits of `backoff_sleep` and `reconnect_backoff`.
-/

import Chappe.Foundation.Run

namespace Chappe
open Foundation

/-- A call of `backoff_sleep`. The slice that it sleeps in ends no earlier than the time `wake`. -/
structure Backoff where
  delayMs : Nat
  slept : Nat
  wake : Nat

def Backoff.start (delayMs clock : Nat) : Backoff := ⟨delayMs, 0, clock⟩

/-- The loop of `backoff_sleep` enters one more slice, or the call returns. -/
def Backoff.next (backoff : Backoff) (clock : Nat) (running : Bool) : Option Backoff :=
  if backoff.slept < backoff.delayMs ∧ running then
    some { backoff with
      slept := backoff.slept + 20
      wake := clock + min 20 (backoff.delayMs - backoff.slept) }
  else none

/-- The delay after a delay, for `rejected_ms` and for `delay_ms`. -/
def nextDelay (delayMs : Nat) : Nat := min (delayMs * 2) 1000

/-- Where the thread of the manager is. It reads a link that was opened at a given time, waits after
a link that dropped at once, is at the head of the loop of `reconnect_backoff` with a delay in hand,
has found the node open there and is about to call `unix_connect`, waits after a call that failed,
or has returned from `run`. -/
inductive ManagerPlace where
  | reading (opened : Nat)
  | rejected (backoff : Backoff)
  | dialing (delayMs : Nat)
  | calling (delayMs : Nat)
  | waiting (backoff : Backoff)
  | returned

structure Manager where
  clock : Nat
  running : Bool
  rejectedMs : Nat
  place : ManagerPlace

/-- Time passes, the node is closed, or the thread takes its next step. The step out of
`read_until_closed` is taken when the link drops, and a step that calls `unix_connect` is told
whether the call succeeds. -/
inductive ManagerEvent where
  | elapse (time : Nat)
  | close
  | thread (connects : Bool)

/-- The node has just connected and the thread starts to read. -/
def Manager.initial : Manager where
  clock := 0
  running := true
  rejectedMs := 10
  place := .reading 0

/-- What `run` does after `read_until_closed`. -/
def Manager.dropped (manager : Manager) (opened : Nat) : Manager :=
  if manager.running = false then { manager with place := .returned }
  else if manager.clock - opened < 1000 then
    { manager with place := .rejected (.start manager.rejectedMs manager.clock) }
  else { manager with rejectedMs := 10, place := .dialing 10 }

/-- The call of `unix_connect` in `reconnect_backoff`. -/
def Manager.call (manager : Manager) (delayMs : Nat) (connects : Bool) : Manager :=
  if connects then { manager with place := .reading manager.clock }
  else { manager with place := .waiting (.start delayMs manager.clock) }

/-- The next step of the thread. A thread that sleeps stays where it is until its slice is done. -/
def Manager.thread (manager : Manager) (connects : Bool) : Manager :=
  match manager.place with
  | .reading opened => manager.dropped opened
  | .rejected backoff =>
      if manager.clock < backoff.wake then manager else
        match backoff.next manager.clock manager.running with
        | some later => { manager with place := .rejected later }
        | none =>
            { manager with rejectedMs := nextDelay manager.rejectedMs, place := .dialing 10 }
  | .dialing delayMs =>
      if manager.running = false then { manager with place := .returned }
      else { manager with place := .calling delayMs }
  | .calling delayMs => manager.call delayMs connects
  | .waiting backoff =>
      if manager.clock < backoff.wake then manager else
        match backoff.next manager.clock manager.running with
        | some later => { manager with place := .waiting later }
        | none => { manager with place := .dialing (nextDelay backoff.delayMs) }
  | .returned => manager

def Manager.step (manager : Manager) : ManagerEvent → Manager
  | .elapse time => { manager with clock := manager.clock + time }
  | .close => { manager with running := false }
  | .thread connects => manager.thread connects

/-- The calls of `unix_connect` that a step makes, by their times. -/
def Manager.dials (manager : Manager) : ManagerEvent → List Nat
  | .thread _ =>
      match manager.place with
      | .calling _ => [manager.clock]
      | _ => []
  | _ => []

def ManagerEvent.isThread : ManagerEvent → Bool
  | .thread _ => true
  | _ => false

end Chappe
