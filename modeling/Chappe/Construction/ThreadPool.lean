/-
This file embeds the thread pool of `threadpool.hpp`. Each critical section of `mutex_`, each
notification and each call of a task is one step, and a wait may wake for no reason.
-/

import Chappe.Foundation.Census
import Chappe.Foundation.Run

namespace Chappe.ThreadPool
open Foundation

/-- The control point of `workerLoop`. A task is the number of its push. -/
inductive Worker where
  | waiting
  | asleep
  | taken (task : Nat)
  | running (task : Nat)
  | ran (task : Nat)
  | notifying
  | exited
  deriving DecidableEq

/-- The control point of a thread that calls `enqueue` or `drain`. A drain remembers the tasks whose
calls of `enqueue` had returned when it began. -/
inductive Caller where
  | idle
  | pushing
  | notifying (task : Nat)
  | draining (before : List Nat)
  | asleep (before : List Nat)
  deriving DecidableEq

/-- The control point of the destructor. -/
inductive Destructor where
  | absent
  | stopping
  | notifying
  | joining
  | returned
  deriving DecidableEq

/-- The members of the pool and its threads, with the number of the tasks pushed so far, the tasks
in the order in which they were started and in which `active_` was lowered for them, and the tasks
whose calls of `enqueue` have returned. -/
structure State (Thread Client : Type) where
  tasks : List Nat
  active : Nat
  stop : Bool
  worker : Thread → Worker
  caller : Client → Caller
  destructor : Destructor
  enqueued : Nat
  started : List Nat
  finished : List Nat
  returned : List Nat

/-- The next thread of `notify_one` is chosen by the action. -/
inductive Action (Thread Client : Type) where
  | enqueue (client : Client)
  | drain (client : Client)
  | caller (client : Client) (woken : Thread)
  | wakeCaller (client : Client)
  | worker (thread : Thread)
  | wakeWorker (thread : Thread)
  | destroy
  | destructor

variable {Thread Client : Type}

def initial : State Thread Client where
  tasks := []
  active := 0
  stop := false
  worker := fun _ => .waiting
  caller := fun _ => .idle
  destructor := .absent
  enqueued := 0
  started := []
  finished := []
  returned := []

/-- A thread that sleeps on `cv_` wakes up. -/
def Worker.wake : Worker → Worker
  | .asleep => .waiting
  | worker => worker

/-- A thread that sleeps on `idle_cv_` wakes up. -/
def Caller.wake : Caller → Caller
  | .asleep before => .draining before
  | caller => caller

variable [Fintype Thread] [DecidableEq Thread] [DecidableEq Client]

def State.goto (state : State Thread Client) (thread : Thread) (place : Worker) :
    State Thread Client :=
  { state with worker := Function.update state.worker thread place }

def State.call (state : State Thread Client) (client : Client) (place : Caller) :
    State Thread Client :=
  { state with caller := Function.update state.caller client place }

/-- The next step of `workerLoop`. -/
def State.workerStep (state : State Thread Client) (thread : Thread) : State Thread Client :=
  match state.worker thread with
  | .waiting =>
      match state.tasks with
      | [] => state.goto thread (if state.stop then .exited else .asleep)
      | task :: rest =>
          { state.goto thread (.taken task) with tasks := rest, active := state.active + 1 }
  | .taken task =>
      { state.goto thread (.running task) with started := state.started ++ [task] }
  | .running task => state.goto thread (.ran task)
  | .ran task =>
      { state.goto thread .notifying with
        active := state.active - 1
        finished := state.finished ++ [task] }
  | .notifying =>
      { state.goto thread .waiting with caller := fun client => (state.caller client).wake }
  | .asleep | .exited => state

/-- The next step of `enqueue` or `drain`. A thread that sleeps on `cv_` is woken, if one does. -/
def State.callerStep (state : State Thread Client) (client : Client) (woken : Thread) :
    State Thread Client :=
  match state.caller client with
  | .pushing =>
      { state.call client (.notifying state.enqueued) with
        tasks := state.tasks ++ [state.enqueued]
        enqueued := state.enqueued + 1 }
  | .notifying task =>
      if state.worker woken = .asleep ∨ ∀ thread, state.worker thread ≠ .asleep then
        { (state.goto woken (state.worker woken).wake).call client .idle with
          returned := state.returned ++ [task] }
      else state
  | .draining before =>
      if state.tasks = [] ∧ state.active = 0 then state.call client .idle
      else state.call client (.asleep before)
  | .idle | .asleep _ => state

/-- The next step of the destructor. The joins are over when every worker has returned. -/
def State.destructorStep (state : State Thread Client) : State Thread Client :=
  match state.destructor with
  | .stopping => { state with stop := true, destructor := .notifying }
  | .notifying =>
      { state with worker := fun thread => (state.worker thread).wake, destructor := .joining }
  | .joining =>
      if ∀ thread, state.worker thread = .exited then { state with destructor := .returned }
      else state
  | .absent | .returned => state

def step (state : State Thread Client) : Action Thread Client → State Thread Client
  | .enqueue client =>
      if state.caller client = .idle then state.call client .pushing else state
  | .drain client =>
      if state.caller client = .idle then state.call client (.draining state.returned) else state
  | .caller client woken => state.callerStep client woken
  | .wakeCaller client => state.call client (state.caller client).wake
  | .worker thread => state.workerStep thread
  | .wakeWorker thread => state.goto thread (state.worker thread).wake
  | .destroy =>
      if state.destructor = .absent then { state with destructor := .stopping } else state
  | .destructor => state.destructorStep

/-- The pool is destroyed after the last of its calls. -/
def Lifetime (state : State Thread Client) : Action Thread Client → Prop
  | .enqueue _ | .drain _ => state.destructor = .absent
  | .destroy => ∀ client, state.caller client = .idle
  | _ => True

end Chappe.ThreadPool
