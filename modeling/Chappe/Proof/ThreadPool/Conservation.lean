/-
This file proves that the thread pool loses no task and starts none twice. So a drain and the
destructor return after the tasks that they wait for.
-/

import Chappe.Construction.ThreadPool
import Mathlib.Tactic

namespace Chappe.ThreadPool
open Foundation

/-- The worker has taken the task and not lowered `active_` for it. -/
def Worker.Carries (task : Nat) : Worker → Prop
  | .taken other | .running other | .ran other => other = task
  | _ => False

/-- The worker has started the task and not lowered `active_` for it. -/
def Worker.Begun (task : Nat) : Worker → Prop
  | .running other | .ran other => other = task
  | _ => False

/-- The worker has a task. -/
def Worker.Busy : Worker → Prop
  | .taken _ | .running _ | .ran _ => True
  | _ => False

instance (task : Nat) : DecidablePred (Worker.Carries task)
  | .taken other | .running other | .ran other => inferInstanceAs (Decidable (other = task))
  | .waiting | .asleep | .notifying | .exited => inferInstanceAs (Decidable False)

instance (task : Nat) : DecidablePred (Worker.Begun task)
  | .running other | .ran other => inferInstanceAs (Decidable (other = task))
  | .taken _ | .waiting | .asleep | .notifying | .exited => inferInstanceAs (Decidable False)

instance : DecidablePred Worker.Busy
  | .taken _ | .running _ | .ran _ => inferInstanceAs (Decidable True)
  | .waiting | .asleep | .notifying | .exited => inferInstanceAs (Decidable False)

theorem Worker.Carries.busy {task : Nat} {worker : Worker} (carries : worker.Carries task) :
    worker.Busy := by
  cases worker with
  | taken _ | running _ | ran _ => exact True.intro
  | waiting | asleep | notifying | exited => exact carries.elim

theorem Worker.Begun.carries {task : Nat} {worker : Worker} (begun : worker.Begun task) :
    worker.Carries task := by
  cases worker with
  | running _ | ran _ => exact begun
  | taken _ | waiting | asleep | notifying | exited => exact begun.elim

theorem Worker.Carries.taken {task : Nat} {worker : Worker} (carries : worker.Carries task)
    (unbegun : ¬ worker.Begun task) : worker = .taken task := by
  cases worker with
  | taken other => exact congrArg Worker.taken carries
  | running _ | ran _ => exact absurd carries unbegun
  | waiting | asleep | notifying | exited => exact carries.elim

variable {Thread Client : Type} [Fintype Thread]

/-- Every pushed task is in the queue, with one worker, or finished, and it was started once if its
worker got to it. -/
structure Conserved (state : State Thread Client) : Prop where
  placed : ∀ task, state.tasks.count task + census (Worker.Carries task) state.worker +
    state.finished.count task = if task < state.enqueued then 1 else 0
  begun : ∀ task, state.started.count task =
    census (Worker.Begun task) state.worker + state.finished.count task
  counted : state.active = census Worker.Busy state.worker
  total : state.tasks.length + state.active + state.finished.length = state.enqueued

theorem Conserved.initial : Conserved (initial : State Thread Client) where
  placed := by
    intro task
    have none : census (Worker.Carries task) (fun _ : Thread => Worker.waiting) = 0 :=
      (census_eq_zero_iff _).mpr fun _ => id
    simp [ThreadPool.initial, none]
  begun := by
    intro task
    have none : census (Worker.Begun task) (fun _ : Thread => Worker.waiting) = 0 :=
      (census_eq_zero_iff _).mpr fun _ => id
    simp [ThreadPool.initial, none]
  counted := ((census_eq_zero_iff _).mpr fun _ => id).symm
  total := rfl

variable {state : State Thread Client}

/-- A step that moves the workers among the places without a task. -/
theorem Conserved.quiet (conserved : Conserved state) {worker : Thread → Worker}
    {caller : Client → Caller} {stop : Bool} {destructor : Destructor} {returned : List Nat}
    (carries : ∀ task thread, (worker thread).Carries task ↔ (state.worker thread).Carries task)
    (begun : ∀ task thread, (worker thread).Begun task ↔ (state.worker thread).Begun task)
    (busy : ∀ thread, (worker thread).Busy ↔ (state.worker thread).Busy) :
    Conserved { state with
      worker := worker, caller := caller, stop := stop, destructor := destructor,
      returned := returned } where
  placed := by
    intro task
    rw [census_congr (carries task)]
    exact conserved.placed task
  begun := by
    intro task
    rw [census_congr (begun task)]
    exact conserved.begun task
  counted := by
    rw [census_congr busy]
    exact conserved.counted
  total := conserved.total

/-- A step that moves no worker and no task. -/
theorem Conserved.untouched (conserved : Conserved state) {caller : Client → Caller} {stop : Bool}
    {destructor : Destructor} {returned : List Nat} :
    Conserved { state with
      caller := caller, stop := stop, destructor := destructor, returned := returned } :=
  conserved.quiet (fun _ _ => Iff.rfl) (fun _ _ => Iff.rfl) fun _ => Iff.rfl

theorem wake_carries (worker : Worker) (task : Nat) :
    worker.wake.Carries task ↔ worker.Carries task := by
  cases worker <;> rfl

theorem wake_begun (worker : Worker) (task : Nat) : worker.wake.Begun task ↔ worker.Begun task := by
  cases worker <;> rfl

theorem wake_busy (worker : Worker) : worker.wake.Busy ↔ worker.Busy := by
  cases worker <;> rfl

/-- A push adds one task to the queue. -/
theorem Conserved.push (conserved : Conserved state) (caller : Client → Caller) :
    Conserved { state with
      caller := caller, tasks := state.tasks ++ [state.enqueued],
      enqueued := state.enqueued + 1 } where
  placed := by
    intro task
    have before := conserved.placed task
    simp only [List.count_append, List.count_singleton']
    split_ifs at before ⊢
    all_goals omega
  begun := conserved.begun
  counted := conserved.counted
  total := by
    have before := conserved.total
    simp only [List.length_append, List.length_singleton]
    omega

omit [Fintype Thread] in
/-- A property that a wake keeps is kept when one worker is woken. -/
theorem update_wake_iff [DecidableEq Thread] {property : Worker → Prop}
    (kept : ∀ worker, property worker.wake ↔ property worker) (worker : Thread → Worker)
    (woken thread : Thread) :
    property (Function.update worker woken (worker woken).wake thread) ↔
      property (worker thread) := by
  by_cases same : thread = woken
  · subst same
    rw [Function.update_self]
    exact kept _
  · rw [Function.update_of_ne same]

variable [DecidableEq Thread] [DecidableEq Client]

omit [DecidableEq Client] in
/-- A step of one worker that keeps the accounts keeps them for the pool. -/
theorem Conserved.move (conserved : Conserved state) {thread : Thread} {before place : Worker}
    {tasks started finished : List Nat} {active : Nat} {caller : Client → Caller}
    (here : state.worker thread = before)
    (placed : ∀ task, tasks.count task + (if place.Carries task then 1 else 0) +
        finished.count task =
      state.tasks.count task + (if before.Carries task then 1 else 0) + state.finished.count task)
    (begun : ∀ task, started.count task + (if before.Begun task then 1 else 0) +
        state.finished.count task =
      state.started.count task + (if place.Begun task then 1 else 0) + finished.count task)
    (counted : active + (if before.Busy then 1 else 0) =
      state.active + if place.Busy then 1 else 0)
    (total : tasks.length + active + finished.length =
      state.tasks.length + state.active + state.finished.length) :
    Conserved { state with
      worker := Function.update state.worker thread place, tasks := tasks, started := started,
      finished := finished, active := active, caller := caller } := by
  refine ⟨?_, ?_, ?_, total.trans conserved.total⟩
  · intro task
    have same := conserved.placed task
    have moved := @census_replace _ _ _ (Worker.Carries task) _ _ state.worker thread place
    have local' := placed task
    rw [here] at moved
    dsimp only
    omega
  · intro task
    have same := conserved.begun task
    have moved := @census_replace _ _ _ (Worker.Begun task) _ _ state.worker thread place
    have local' := begun task
    rw [here] at moved
    dsimp only
    omega
  · have same := conserved.counted
    have moved := @census_replace _ _ _ Worker.Busy _ _ state.worker thread place
    rw [here] at moved
    dsimp only
    omega

omit [DecidableEq Thread] [DecidableEq Client] in
theorem Conserved.busy_active (conserved : Conserved state) {thread : Thread}
    (busy : (state.worker thread).Busy) : 0 < state.active := by
  rw [conserved.counted, Nat.pos_iff_ne_zero]
  intro none
  exact (census_eq_zero_iff _).mp none thread busy

omit [DecidableEq Client] in
theorem Conserved.workerStep (conserved : Conserved state) (thread : Thread) :
    Conserved (state.workerStep thread) := by
  unfold State.workerStep
  split
  case h_1 here =>
    split
    · split
      · exact conserved.move here (by simp [Worker.Carries]) (by simp [Worker.Begun])
          (by simp [Worker.Busy]) rfl
      · exact conserved.move here (by simp [Worker.Carries]) (by simp [Worker.Begun])
          (by simp [Worker.Busy]) rfl
    · rename_i task rest queued
      apply conserved.move here
      · intro other
        by_cases same : task = other
        all_goals simp [Worker.Carries, State.goto, queued, same]
      · simp [Worker.Begun, State.goto]
      · simp [Worker.Busy]
      · simp only [queued, List.length_cons, State.goto]
        omega
  case h_2 task here =>
    apply conserved.move here
    · intro other
      by_cases same : task = other
      all_goals simp [Worker.Carries, State.goto, same]
    · intro other
      by_cases same : task = other
      all_goals simp [Worker.Begun, State.goto, same]
    · simp [Worker.Busy, State.goto]
    · rfl
  case h_3 task here =>
    apply conserved.move here
    · intro other
      by_cases same : task = other
      all_goals simp [Worker.Carries, same]
    · intro other
      by_cases same : task = other
      all_goals simp [Worker.Begun, same]
    · simp [Worker.Busy]
    · rfl
  case h_4 task here =>
    have busy : (state.worker thread).Busy := by
      rw [here]
      exact True.intro
    have active := conserved.busy_active busy
    apply conserved.move here
    · intro other
      by_cases same : task = other
      all_goals simp [Worker.Carries, State.goto, same]
      omega
    · intro other
      by_cases same : task = other
      all_goals simp [Worker.Begun, State.goto, same]
      omega
    · simp [Worker.Busy]
      omega
    · simp only [State.goto, List.length_append, List.length_singleton]
      omega
  case h_5 here =>
    exact conserved.move here (by simp [Worker.Carries, State.goto])
      (by simp [Worker.Begun, State.goto]) (by simp [Worker.Busy, State.goto]) rfl
  case h_6 | h_7 => exact conserved

theorem Conserved.callerStep (conserved : Conserved state) (client : Client) (woken : Thread) :
    Conserved (state.callerStep client woken) := by
  unfold State.callerStep
  split
  · exact conserved.push _
  · split
    · exact conserved.quiet
        (fun task => update_wake_iff (fun worker => wake_carries worker task) _ _)
        (fun task => update_wake_iff (fun worker => wake_begun worker task) _ _)
        (update_wake_iff wake_busy _ _)
    · exact conserved
  · split
    · exact conserved.untouched
    · exact conserved.untouched
  · exact conserved
  · exact conserved

omit [DecidableEq Thread] [DecidableEq Client] in
theorem Conserved.destructorStep (conserved : Conserved state) :
    Conserved state.destructorStep := by
  unfold State.destructorStep
  split
  · exact conserved.untouched
  · exact conserved.quiet (fun task thread => wake_carries _ task)
      (fun task thread => wake_begun _ task) fun thread => wake_busy _
  · split
    · exact conserved.untouched
    · exact conserved
  · exact conserved
  · exact conserved

theorem Conserved.step (conserved : Conserved state) (action : Action Thread Client) :
    Conserved (step state action) := by
  cases action with
  | enqueue client | drain client =>
      simp only [ThreadPool.step]
      split
      · exact conserved.untouched
      · exact conserved
  | caller client woken => exact conserved.callerStep client woken
  | wakeCaller client =>
      exact conserved.untouched
  | worker thread => exact conserved.workerStep thread
  | wakeWorker thread =>
      exact conserved.quiet
        (fun task => update_wake_iff (fun worker => wake_carries worker task) _ _)
        (fun task => update_wake_iff (fun worker => wake_begun worker task) _ _)
        (update_wake_iff wake_busy _ _)
  | destroy =>
      simp only [ThreadPool.step]
      split
      · exact conserved.untouched
      · exact conserved
  | destructor => exact conserved.destructorStep

end Chappe.ThreadPool
