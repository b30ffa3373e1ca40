/-
This file proves that a drain and the destructor of the thread pool return after the tasks that they
wait for, and that a queued task has a thread to take it.
-/

import Chappe.Proof.ThreadPool.Conservation

namespace Chappe.ThreadPool
open Foundation

/-- The tasks that a call names have been pushed. -/
def Caller.Within (enqueued : Nat) : Caller → Prop
  | .notifying task => task < enqueued
  | .draining before | .asleep before => ∀ task ∈ before, task < enqueued
  | .idle | .pushing => True

/-- The worker is in its loop and does not sleep. -/
def Worker.Awake : Worker → Prop
  | .asleep | .exited => False
  | .waiting | .taken _ | .running _ | .ran _ | .notifying => True

variable {Thread Client : Type}

/-- The destructor runs after the calls, and a worker leaves an empty queue after the stop. -/
structure Ordered (state : State Thread Client) : Prop where
  returned : ∀ task ∈ state.returned, task < state.enqueued
  within : ∀ client, (state.caller client).Within state.enqueued
  quiet : state.destructor ≠ .absent → ∀ client, state.caller client = .idle
  stopped : state.stop = true → state.destructor ≠ .absent
  exited : ∀ thread, state.worker thread = .exited → state.tasks = [] ∧ state.stop = true
  joined : state.destructor = .returned → ∀ thread, state.worker thread = .exited

/-- A queued task has a worker that is awake, or a notification is on its way. -/
def Alert (state : State Thread Client) : Prop :=
  state.tasks ≠ [] →
    (∃ thread, (state.worker thread).Awake) ∨ ∃ client task, state.caller client = .notifying task

theorem Ordered.initial : Ordered (initial : State Thread Client) where
  returned := by simp [ThreadPool.initial]
  within _ := True.intro
  quiet _ _ := rfl
  stopped := by simp [ThreadPool.initial]
  exited := by simp [ThreadPool.initial]
  joined := by simp [ThreadPool.initial]

theorem Alert.initial : Alert (initial : State Thread Client) := fun queued => absurd rfl queued

theorem wake_exited (worker : Worker) : worker.wake = .exited ↔ worker = .exited := by
  cases worker <;> simp [Worker.wake]

theorem wake_within (caller : Caller) (enqueued : Nat) :
    caller.wake.Within enqueued ↔ caller.Within enqueued := by
  cases caller <;> rfl

theorem wake_idle (caller : Caller) : caller.wake = .idle ↔ caller = .idle := by
  cases caller <;> simp [Caller.wake]

theorem wake_notifying (caller : Caller) (task : Nat) :
    caller.wake = .notifying task ↔ caller = .notifying task := by
  cases caller <;> simp [Caller.wake]

theorem Worker.Awake.staying {worker : Worker} (awake : worker.Awake) : worker ≠ .exited := by
  intro left
  rw [left] at awake
  exact awake

theorem wake_awake {worker : Worker} (staying : worker ≠ .exited) : worker.wake.Awake := by
  cases worker with
  | exited => exact absurd rfl staying
  | asleep | waiting | taken _ | running _ | ran _ | notifying => exact True.intro

theorem Caller.Within.mono {caller : Caller} {enqueued later : Nat}
    (within : caller.Within enqueued) (grows : enqueued ≤ later) : caller.Within later := by
  cases caller with
  | idle | pushing => exact True.intro
  | notifying task => exact within.trans_le grows
  | draining before | asleep before =>
      intro task member
      exact (within task member).trans_le grows

variable {state : State Thread Client}

/-- A queued task shows that no worker has left. -/
theorem Ordered.staying (ordered : Ordered state) (queued : state.tasks ≠ []) (thread : Thread) :
    state.worker thread ≠ .exited :=
  fun left => queued (ordered.exited thread left).1

/-- A call shows that the destructor has not begun. -/
theorem Ordered.absent (ordered : Ordered state) {client : Client}
    (inside : state.caller client ≠ .idle) : state.destructor = .absent := by
  by_contra begun
  exact inside (ordered.quiet begun client)

theorem Ordered.push (ordered : Ordered state) (absent : state.destructor = .absent) :
    Ordered { state with
      tasks := state.tasks ++ [state.enqueued], enqueued := state.enqueued + 1 } where
  returned task member := (ordered.returned task member).trans (Nat.lt_succ_self _)
  within client := (ordered.within client).mono (Nat.le_succ _)
  quiet := ordered.quiet
  stopped := ordered.stopped
  exited thread left := absurd absent (ordered.stopped (ordered.exited thread left).2)
  joined := ordered.joined

theorem Ordered.wakeCallers (ordered : Ordered state) :
    Ordered { state with caller := fun client => (state.caller client).wake } where
  returned := ordered.returned
  within client := (wake_within _ _).mpr (ordered.within client)
  quiet begun client := (wake_idle _).mpr (ordered.quiet begun client)
  stopped := ordered.stopped
  exited := ordered.exited
  joined := ordered.joined

theorem Ordered.wakeWorkers (ordered : Ordered state) {worker : Thread → Worker}
    (same : ∀ thread, worker thread = .exited ↔ state.worker thread = .exited) :
    Ordered { state with worker := worker } where
  returned := ordered.returned
  within := ordered.within
  quiet := ordered.quiet
  stopped := ordered.stopped
  exited thread left := ordered.exited thread ((same thread).mp left)
  joined gone thread := (same thread).mpr (ordered.joined gone thread)

/-- The return of a call of `enqueue` is recorded. -/
theorem Ordered.record (ordered : Ordered state) {task : Nat} (pushed : task < state.enqueued) :
    Ordered { state with returned := state.returned ++ [task] } where
  returned := by
    intro other member
    rcases List.mem_append.mp member with earlier | last
    · exact ordered.returned other earlier
    · rw [List.mem_singleton.mp last]
      exact pushed
  within := ordered.within
  quiet := ordered.quiet
  stopped := ordered.stopped
  exited := ordered.exited
  joined := ordered.joined

/-- A step that keeps the queue, the workers that are awake and the notifications. -/
theorem Alert.kept (alert : Alert state) {next : State Thread Client}
    (queue : next.tasks = state.tasks)
    (awake : ∀ thread, (state.worker thread).Awake → (next.worker thread).Awake)
    (notifying : ∀ client task, state.caller client = .notifying task →
      next.caller client = .notifying task) : Alert next := by
  intro queued
  rw [queue] at queued
  rcases alert queued with ⟨thread, here⟩ | ⟨client, task, here⟩
  · exact .inl ⟨thread, awake thread here⟩
  · exact .inr ⟨client, task, notifying client task here⟩

variable [DecidableEq Client]

theorem Ordered.call (ordered : Ordered state) {client : Client} {place : Caller}
    (within : place.Within state.enqueued) (early : state.destructor = .absent ∨ place = .idle) :
    Ordered (state.call client place) where
  returned := ordered.returned
  within other := by
    simp only [State.call]
    by_cases same : other = client
    · rw [same, Function.update_self]
      exact within
    · rw [Function.update_of_ne same]
      exact ordered.within other
  quiet begun other := by
    simp only [State.call]
    by_cases same : other = client
    · rw [same, Function.update_self]
      exact early.resolve_left begun
    · rw [Function.update_of_ne same]
      exact ordered.quiet begun other
  stopped := ordered.stopped
  exited := ordered.exited
  joined := ordered.joined

/-- A call changes its place and does not drop its notification. -/
theorem Alert.call (alert : Alert state) {client : Client} {place : Caller}
    (kept : ∀ task, state.caller client = .notifying task → place = .notifying task) :
    Alert (state.call client place) := by
  refine alert.kept rfl (fun _ => id) ?_
  intro caller task here
  by_cases same : caller = client
  · subst same
    exact (Function.update_self ..).trans (kept task here)
  · exact (Function.update_of_ne same ..).trans here

variable [DecidableEq Thread]

omit [DecidableEq Client] in
/-- A worker moves and may take a task. -/
theorem Ordered.move (ordered : Ordered state) {thread : Thread} {place : Worker}
    {tasks started finished : List Nat} {active : Nat} (inside : state.destructor ≠ .returned)
    (queue : state.tasks = [] → tasks = [])
    (exits : place = .exited → tasks = [] ∧ state.stop = true) :
    Ordered { state.goto thread place with
      tasks := tasks, active := active, started := started, finished := finished } where
  returned := ordered.returned
  within := ordered.within
  quiet := ordered.quiet
  stopped := ordered.stopped
  exited other left := by
    simp only [State.goto] at left
    by_cases same : other = thread
    · rw [same, Function.update_self] at left
      exact exits left
    · rw [Function.update_of_ne same] at left
      obtain ⟨empty, stop⟩ := ordered.exited other left
      exact ⟨queue empty, stop⟩
  joined gone := absurd gone inside

omit [DecidableEq Client] in
theorem Ordered.workerStep (ordered : Ordered state) (thread : Thread) :
    Ordered (state.workerStep thread) := by
  have inside (busy : state.worker thread ≠ .exited) : state.destructor ≠ .returned :=
    fun gone => busy (ordered.joined gone thread)
  unfold State.workerStep
  split
  case h_1 here =>
    have inside := inside (by simp [here])
    split
    · rename_i empty
      apply ordered.move inside id
      intro left
      refine ⟨empty, ?_⟩
      by_contra running
      simp [running] at left
    · rename_i queued
      exact ordered.move inside (by simp [queued]) (by simp)
  case h_2 here | h_3 here | h_4 here => exact ordered.move (inside (by simp [here])) id (by simp)
  case h_5 here => exact (ordered.move (inside (by simp [here])) id (by simp)).wakeCallers
  case h_6 | h_7 => exact ordered

omit [DecidableEq Client] in
/-- Waking one worker moves none out of its loop. -/
theorem Ordered.wakeWorker (ordered : Ordered state) (woken : Thread) :
    Ordered (state.goto woken (state.worker woken).wake) :=
  ordered.wakeWorkers
    (@update_wake_iff Thread _ (fun worker => worker = .exited) wake_exited state.worker woken)

variable [Fintype Thread]

theorem Ordered.callerStep (ordered : Ordered state) (client : Client) (woken : Thread) :
    Ordered (state.callerStep client woken) := by
  have within := ordered.within client
  have absent := @Ordered.absent _ _ _ ordered client
  unfold State.callerStep
  split
  case h_1 here =>
    have absent := absent (by simp [here])
    exact (ordered.push absent).call (Nat.lt_succ_self _) (.inl absent)
  case h_2 task here =>
    rw [here] at within
    split
    · have awake := ordered.wakeWorker woken
      have left := @Ordered.call _ _ _ _ awake client .idle True.intro (.inr rfl)
      exact left.record within
    · exact ordered
  case h_3 before here =>
    rw [here] at within
    split
    · exact ordered.call True.intro (.inr rfl)
    · exact ordered.call within (.inl (absent (by simp [here])))
  case h_4 | h_5 => exact ordered

omit [DecidableEq Thread] [DecidableEq Client] in
theorem Ordered.destructorStep (ordered : Ordered state) : Ordered state.destructorStep := by
  unfold State.destructorStep
  split
  case h_1 here =>
    have quiet := ordered.quiet (by simp [here])
    refine ⟨ordered.returned, ordered.within, fun _ => quiet, by simp, ?_, by simp⟩
    intro thread left
    exact ⟨(ordered.exited thread left).1, rfl⟩
  case h_2 here =>
    have quiet := ordered.quiet (by simp [here])
    have awake := ordered.wakeWorkers fun thread => wake_exited (state.worker thread)
    exact ⟨awake.returned, awake.within, fun _ => quiet, by simp, awake.exited, by simp⟩
  case h_3 here =>
    have quiet := ordered.quiet (by simp [here])
    split
    · rename_i all
      exact ⟨ordered.returned, ordered.within, fun _ => quiet, by simp, ordered.exited,
        fun _ => all⟩
    · exact ordered
  case h_4 | h_5 => exact ordered

theorem Ordered.step (ordered : Ordered state) {action : Action Thread Client}
    (allowed : Lifetime state action) : Ordered (step state action) := by
  cases action with
  | enqueue client =>
      simp only [ThreadPool.step]
      split
      · exact ordered.call True.intro (.inl allowed)
      · exact ordered
  | drain client =>
      simp only [ThreadPool.step]
      split
      · exact ordered.call ordered.returned (.inl allowed)
      · exact ordered
  | caller client woken => exact ordered.callerStep client woken
  | wakeCaller client =>
      apply ordered.call ((wake_within _ _).mpr (ordered.within client))
      by_cases idle : state.caller client = .idle
      · exact .inr ((wake_idle _).mpr idle)
      · exact .inl (ordered.absent idle)
  | worker thread => exact ordered.workerStep thread
  | wakeWorker thread => exact ordered.wakeWorker thread
  | destroy =>
      simp only [ThreadPool.step]
      split
      · exact ⟨ordered.returned, ordered.within, fun _ => allowed, by simp, ordered.exited, by simp⟩
      · exact ordered
  | destructor => exact ordered.destructorStep

omit [DecidableEq Client] [DecidableEq Thread] [Fintype Thread] in
theorem Alert.awake {next : State Thread Client} {thread : Thread}
    (awake : (next.worker thread).Awake) : Alert next := fun _ => .inl ⟨thread, awake⟩

omit [DecidableEq Client] [Fintype Thread] in
theorem Alert.workerStep (alert : Alert state) (thread : Thread) :
    Alert (state.workerStep thread) := by
  have moved (place : Worker) (awake : place.Awake) :
      (Function.update state.worker thread place thread).Awake := by
    rw [Function.update_self]
    exact awake
  unfold State.workerStep
  split
  case h_1 here =>
    split
    · rename_i empty
      exact fun queued => absurd empty queued
    · exact Alert.awake (moved _ True.intro)
  case h_2 | h_3 | h_4 | h_5 => exact Alert.awake (moved _ True.intro)
  case h_6 | h_7 => exact alert

/-- A notification wakes a worker, or none sleeps and none has left. -/
theorem Alert.callerStep (alert : Alert state) (ordered : Ordered state) (client : Client)
    (woken : Thread) : Alert (state.callerStep client woken) := by
  unfold State.callerStep
  split
  case h_1 here => exact fun _ => .inr ⟨client, state.enqueued, Function.update_self ..⟩
  case h_2 task here =>
    split
    · intro queued
      refine .inl ⟨woken, ?_⟩
      show (Function.update state.worker woken (state.worker woken).wake woken).Awake
      rw [Function.update_self]
      exact wake_awake (ordered.staying queued woken)
    · exact alert
  case h_3 before here =>
    split
    · exact alert.call (by simp [here])
    · exact alert.call (by simp [here])
  case h_4 | h_5 => exact alert

theorem Alert.step (alert : Alert state) (ordered : Ordered state)
    (action : Action Thread Client) : Alert (step state action) := by
  cases action with
  | enqueue client | drain client =>
      simp only [ThreadPool.step]
      split
      · rename_i idle
        exact alert.call (by simp [idle])
      · exact alert
  | caller client woken => exact alert.callerStep ordered client woken
  | wakeCaller client => exact alert.call fun task => (wake_notifying _ task).mpr
  | worker thread => exact alert.workerStep thread
  | wakeWorker thread =>
      refine alert.kept rfl ?_ fun _ _ => id
      intro other awake
      show (Function.update state.worker thread (state.worker thread).wake other).Awake
      by_cases same : other = thread
      · rw [same] at awake ⊢
        rw [Function.update_self]
        exact wake_awake awake.staying
      · rw [Function.update_of_ne same]
        exact awake
  | destroy =>
      simp only [ThreadPool.step]
      split
      · exact alert.kept rfl (fun _ => id) fun _ _ => id
      · exact alert
  | destructor =>
      simp only [ThreadPool.step]
      unfold State.destructorStep
      split
      case h_1 => exact alert.kept rfl (fun _ => id) fun _ _ => id
      case h_2 => exact alert.kept rfl (fun _ awake => wake_awake awake.staying) fun _ _ => id
      case h_3 =>
        split
        · exact alert.kept rfl (fun _ => id) fun _ _ => id
        · exact alert
      case h_4 | h_5 => exact alert

/-- The invariants of the pool. -/
structure Kept (state : State Thread Client) : Prop where
  conserved : Conserved state
  ordered : Ordered state
  alert : Alert state

theorem Kept.run {actions : List (Action Thread Client)}
    (met : Meets step Lifetime ThreadPool.initial actions) :
    Kept (run step ThreadPool.initial actions) := by
  refine run_invariant_of_meets ?_ actions _ ⟨.initial, .initial, .initial⟩ met
  intro state action kept allowed
  exact ⟨kept.conserved.step action, kept.ordered.step allowed, kept.alert.step kept.ordered action⟩

/-- One worker runs one task, a drain waits for it, and the pool is destroyed. -/
def smallRun : List (Action Unit Unit) :=
  [.enqueue (), .caller () (), .caller () (), .worker (), .worker (), .drain (), .caller () (),
    .worker (), .worker (), .worker (), .caller () (), .destroy, .destructor, .destructor,
    .worker (), .destructor]

end Chappe.ThreadPool
