/-
This file bounds how often the connection manager of a node calls `unix_connect`, and how long it
runs after the node is closed.
-/

import Chappe.Construction.Manager
import Chappe.Foundation.Pacing

namespace Chappe
open Foundation

/-- The delays never fall below the first one, and no slice is longer than 20 ms. -/
def ManagerPlace.Paced (rejectedMs clock : Nat) : ManagerPlace → Prop
  | .reading _ | .returned => True
  | .rejected backoff => backoff.delayMs = rejectedMs ∧ backoff.wake ≤ clock + 20
  | .dialing delayMs | .calling delayMs => 10 ≤ delayMs
  | .waiting backoff => 10 ≤ backoff.delayMs ∧ backoff.wake ≤ clock + 20

structure Manager.Paced (manager : Manager) : Prop where
  rejectedMs : 10 ≤ manager.rejectedMs
  place : manager.place.Paced manager.rejectedMs manager.clock

/-- What the calls that fail in a row still owe, from a delay on. Only a delay of less than 64 ms
falls short of the share of its call. -/
def failCredit (delayMs : Nat) : Nat := (64 - delayMs) + (64 - 2 * delayMs) + (64 - 4 * delayMs)

/-- What the links that drop at once in a row still owe. The share of a link is that of its call
and of the three failed calls with short delays that may come before it. -/
def rejectCredit (rejectedMs : Nat) : Nat :=
  (186 - rejectedMs) + (186 - 2 * rejectedMs) + (186 - 4 * rejectedMs) +
    (186 - 8 * rejectedMs) + (186 - 16 * rejectedMs)

/-- The time that a wait has taken so far. -/
def Backoff.served (backoff : Backoff) (clock : Nat) : Nat :=
  min backoff.slept backoff.delayMs - (backoff.wake - clock)

/-- What the manager may still spend on calls before any more time has passed. -/
def ManagerPlace.credit (rejectedMs clock : Nat) : ManagerPlace → Nat
  | .reading opened => max (rejectCredit rejectedMs) (min (clock - opened) 806)
  | .rejected backoff => min (rejectCredit rejectedMs + backoff.served clock) 806
  | .dialing delayMs | .calling delayMs => 64 + failCredit delayMs + rejectCredit rejectedMs
  | .waiting backoff =>
      min (failCredit backoff.delayMs + backoff.served clock) 186 + rejectCredit rejectedMs
  | .returned => 0

/-- The call that a thread is about to make, whatever becomes of the node. -/
def ManagerPlace.calls : ManagerPlace → Nat
  | .calling _ => 1
  | _ => 0

/-- The thread of a closed node makes at most the call that it is about to make. -/
def Manager.credit (manager : Manager) : Nat :=
  if manager.running then manager.place.credit manager.rejectedMs manager.clock
  else 64 * manager.place.calls

/-- The delay of a failed call pays the share of the next one. -/
theorem failCredit_next {delayMs : Nat} (least : 10 ≤ delayMs) :
    64 + failCredit (nextDelay delayMs) ≤ min (failCredit delayMs + delayMs) 186 := by
  unfold failCredit nextDelay
  omega

/-- The wait after a link that dropped at once pays the share of the next link. -/
theorem rejectCredit_next {rejectedMs : Nat} (least : 10 ≤ rejectedMs) :
    186 + rejectCredit (nextDelay rejectedMs) ≤ min (rejectCredit rejectedMs + rejectedMs) 806 := by
  unfold rejectCredit nextDelay
  omega

theorem rejectCredit_le {rejectedMs : Nat} (least : 10 ≤ rejectedMs) :
    rejectCredit rejectedMs ≤ 620 := by
  unfold rejectCredit
  omega

theorem failCredit_le {delayMs : Nat} (least : 10 ≤ delayMs) : failCredit delayMs ≤ 122 := by
  unfold failCredit
  omega

theorem nextDelay_least {delayMs : Nat} (least : 10 ≤ delayMs) : 10 ≤ nextDelay delayMs := by
  unfold nextDelay
  omega

theorem Backoff.served_start (delayMs clock : Nat) : (start delayMs clock).served clock = 0 := by
  unfold served start
  dsimp only
  omega

theorem Backoff.served_elapse (backoff : Backoff) (clock time : Nat) :
    backoff.served (clock + time) ≤ backoff.served clock + time := by
  unfold served
  omega

/-- A new slice is not served before it is slept. -/
theorem Backoff.served_next {backoff later : Backoff} {clock : Nat} {running : Bool}
    (awake : backoff.wake ≤ clock) (next : backoff.next clock running = some later) :
    later.delayMs = backoff.delayMs ∧ later.wake ≤ clock + 20 ∧
      later.served clock = backoff.served clock := by
  unfold Backoff.next at next
  split at next
  case isTrue goes =>
      cases next
      refine ⟨rfl, by dsimp only; omega, ?_⟩
      unfold served
      dsimp only
      omega
  case isFalse => cases next

/-- A wait of a running node returns when the whole delay has been served. -/
theorem Backoff.served_return {backoff : Backoff} {clock : Nat} (awake : backoff.wake ≤ clock)
    (done : backoff.next clock true = none) : backoff.served clock = backoff.delayMs := by
  unfold Backoff.next at done
  split at done
  case isTrue => cases done
  case isFalse stops =>
      have whole : ¬ backoff.slept < backoff.delayMs := fun more => stops ⟨more, rfl⟩
      unfold served
      omega

theorem Backoff.next_closed (backoff : Backoff) (clock : Nat) : backoff.next clock false = none :=
  if_neg fun both => Bool.noConfusion both.2

/-- What a step of the thread does, at a time and with the flag of the node. It changes the place
and `rejected_ms` alone. -/
inductive ManagerPlace.Leads (clock : Nat) (running : Bool) (rejectedMs : Nat) :
    ManagerPlace → Nat → ManagerPlace → Prop where
  | leaves {opened : Nat} (closed : running = false) :
      Leads clock running rejectedMs (.reading opened) rejectedMs .returned
  | drops {opened : Nat} (goes : running = true) (short : clock - opened < 1000) :
      Leads clock running rejectedMs (.reading opened) rejectedMs
        (.rejected (.start rejectedMs clock))
  | resets {opened : Nat} (goes : running = true) (long : 1000 ≤ clock - opened) :
      Leads clock running rejectedMs (.reading opened) 10 (.dialing 10)
  | restSleeps {backoff : Backoff} (asleep : clock < backoff.wake) :
      Leads clock running rejectedMs (.rejected backoff) rejectedMs (.rejected backoff)
  | restSlice {backoff later : Backoff} (awake : backoff.wake ≤ clock)
      (next : backoff.next clock running = some later) :
      Leads clock running rejectedMs (.rejected backoff) rejectedMs (.rejected later)
  | restDone {backoff : Backoff} (awake : backoff.wake ≤ clock)
      (done : backoff.next clock running = none) :
      Leads clock running rejectedMs (.rejected backoff) (nextDelay rejectedMs) (.dialing 10)
  | hangs {delayMs : Nat} (closed : running = false) :
      Leads clock running rejectedMs (.dialing delayMs) rejectedMs .returned
  | dials {delayMs : Nat} (goes : running = true) :
      Leads clock running rejectedMs (.dialing delayMs) rejectedMs (.calling delayMs)
  | connects {delayMs : Nat} :
      Leads clock running rejectedMs (.calling delayMs) rejectedMs (.reading clock)
  | fails {delayMs : Nat} :
      Leads clock running rejectedMs (.calling delayMs) rejectedMs
        (.waiting (.start delayMs clock))
  | waitSleeps {backoff : Backoff} (asleep : clock < backoff.wake) :
      Leads clock running rejectedMs (.waiting backoff) rejectedMs (.waiting backoff)
  | waitSlice {backoff later : Backoff} (awake : backoff.wake ≤ clock)
      (next : backoff.next clock running = some later) :
      Leads clock running rejectedMs (.waiting backoff) rejectedMs (.waiting later)
  | waitDone {backoff : Backoff} (awake : backoff.wake ≤ clock)
      (done : backoff.next clock running = none) :
      Leads clock running rejectedMs (.waiting backoff) rejectedMs
        (.dialing (nextDelay backoff.delayMs))
  | ended : Leads clock running rejectedMs .returned rejectedMs .returned

/-- Every step of the thread is one of these. -/
theorem Manager.thread_leads (manager : Manager) (connects : Bool) :
    ∃ rejectedMs place,
      manager.place.Leads manager.clock manager.running manager.rejectedMs rejectedMs place ∧
        manager.thread connects = { manager with rejectedMs := rejectedMs, place := place } := by
  obtain ⟨clock, running, rejectedMs, place⟩ := manager
  cases place with
  | reading opened =>
      dsimp only [thread, dropped]
      split_ifs with closed short
      · exact ⟨_, _, .leaves closed, rfl⟩
      · exact ⟨_, _, .drops (Bool.eq_true_of_not_eq_false closed) short, rfl⟩
      · exact ⟨_, _, .resets (Bool.eq_true_of_not_eq_false closed) (Nat.le_of_not_lt short), rfl⟩
  | rejected backoff =>
      dsimp only [thread]
      split_ifs with asleep
      · exact ⟨_, _, .restSleeps asleep, rfl⟩
      · split
        case h_1 later next => exact ⟨_, _, .restSlice (Nat.le_of_not_lt asleep) next, rfl⟩
        case h_2 done => exact ⟨_, _, .restDone (Nat.le_of_not_lt asleep) done, rfl⟩
  | dialing delayMs =>
      dsimp only [thread]
      split_ifs with closed
      · exact ⟨_, _, .hangs closed, rfl⟩
      · exact ⟨_, _, .dials (Bool.eq_true_of_not_eq_false closed), rfl⟩
  | calling delayMs =>
      dsimp only [thread, call]
      split_ifs
      · exact ⟨_, _, .connects, rfl⟩
      · exact ⟨_, _, .fails, rfl⟩
  | waiting backoff =>
      dsimp only [thread]
      split_ifs with asleep
      · exact ⟨_, _, .waitSleeps asleep, rfl⟩
      · split
        case h_1 later next => exact ⟨_, _, .waitSlice (Nat.le_of_not_lt asleep) next, rfl⟩
        case h_2 done => exact ⟨_, _, .waitDone (Nat.le_of_not_lt asleep) done, rfl⟩
  | returned => exact ⟨_, _, .ended, rfl⟩

theorem Manager.Paced.elapse {manager : Manager} (paced : manager.Paced) (time : Nat) :
    (manager.step (.elapse time)).Paced := by
  obtain ⟨clock, running, rejectedMs, place⟩ := manager
  obtain ⟨least, here⟩ := paced
  refine ⟨least, ?_⟩
  cases place with
  | reading opened => exact True.intro
  | rejected backoff => exact ⟨here.1, Nat.le_trans here.2 (by dsimp only [step]; omega)⟩
  | dialing delayMs => exact here
  | calling delayMs => exact here
  | waiting backoff => exact ⟨here.1, Nat.le_trans here.2 (by dsimp only [step]; omega)⟩
  | returned => exact True.intro

theorem Manager.Paced.thread {manager : Manager} (paced : manager.Paced) (connects : Bool) :
    (manager.thread connects).Paced := by
  obtain ⟨later, next, leads, whole⟩ := manager.thread_leads connects
  rw [whole]
  obtain ⟨clock, running, rejectedMs, place⟩ := manager
  obtain ⟨least, here⟩ := paced
  cases leads with
  | leaves => exact ⟨least, True.intro⟩
  | drops => exact ⟨least, rfl, Nat.le_add_right clock 20⟩
  | resets => exact ⟨Nat.le_refl 10, Nat.le_refl 10⟩
  | restSleeps => exact ⟨least, here⟩
  | restSlice awake next =>
      obtain ⟨same, soon, _⟩ := Backoff.served_next awake next
      exact ⟨least, same.trans here.1, soon⟩
  | restDone => exact ⟨nextDelay_least least, Nat.le_refl 10⟩
  | hangs => exact ⟨least, True.intro⟩
  | dials => exact ⟨least, here⟩
  | connects => exact ⟨least, True.intro⟩
  | fails => exact ⟨least, here, Nat.le_add_right clock 20⟩
  | waitSleeps => exact ⟨least, here⟩
  | waitSlice awake next =>
      obtain ⟨same, soon, _⟩ := Backoff.served_next awake next
      exact ⟨least, same.symm ▸ here.1, soon⟩
  | waitDone => exact ⟨least, nextDelay_least here.1⟩
  | ended => exact ⟨least, True.intro⟩

theorem Manager.Paced.step {manager : Manager} (paced : manager.Paced) (event : ManagerEvent) :
    (manager.step event).Paced := by
  cases event with
  | elapse time => exact paced.elapse time
  | close => exact ⟨paced.rejectedMs, paced.place⟩
  | thread connects => exact paced.thread connects

theorem Manager.Paced.initial : Manager.initial.Paced := ⟨Nat.le_refl 10, True.intro⟩

/-- The credit of a place grows no faster than the time. -/
theorem ManagerPlace.credit_elapse (place : ManagerPlace) (rejectedMs clock time : Nat) :
    place.credit rejectedMs (clock + time) ≤ place.credit rejectedMs clock + time := by
  cases place with
  | reading opened =>
      dsimp only [credit]
      omega
  | rejected backoff =>
      have served := backoff.served_elapse clock time
      dsimp only [credit]
      omega
  | dialing delayMs => exact Nat.le_add_right _ time
  | calling delayMs => exact Nat.le_add_right _ time
  | waiting backoff =>
      have served := backoff.served_elapse clock time
      dsimp only [credit]
      omega
  | returned => exact Nat.zero_le _

/-- A step of the thread takes no time and leaves the flag. -/
theorem Manager.thread_frame (manager : Manager) (connects : Bool) :
    (manager.thread connects).clock = manager.clock ∧
      (manager.thread connects).running = manager.running := by
  obtain ⟨later, next, _, whole⟩ := manager.thread_leads connects
  rw [whole]
  exact ⟨rfl, rfl⟩

/-- A thread makes the calls that it is about to make. -/
theorem Manager.dials_thread (manager : Manager) (connects : Bool) :
    (manager.dials (.thread connects)).length = manager.place.calls := by
  obtain ⟨clock, running, rejectedMs, place⟩ := manager
  cases place with
  | calling delayMs => rfl
  | _ => rfl

/-- The thread of a closed node is never about to make a call after a step. -/
theorem Manager.calls_thread {manager : Manager} (closed : manager.running = false)
    (connects : Bool) : (manager.thread connects).place.calls = 0 := by
  obtain ⟨later, next, leads, whole⟩ := manager.thread_leads connects
  rw [whole]
  obtain ⟨clock, running, rejectedMs, place⟩ := manager
  cases leads with
  | dials goes => exact absurd (goes.symm.trans closed) Bool.noConfusion
  | _ => rfl

theorem Manager.credit_closed {manager : Manager} (closed : manager.running = false) :
    manager.credit = 64 * manager.place.calls := by
  rw [credit, closed]
  rfl

theorem Manager.credit_running {manager : Manager} (running : manager.running = true) :
    manager.credit = manager.place.credit manager.rejectedMs manager.clock :=
  if_pos running

/-- A close leaves at most the call that the thread is about to make. -/
theorem Manager.credit_close (manager : Manager) :
    (manager.step .close).credit ≤ manager.credit := by
  have last : (manager.step .close).credit = 64 * manager.place.calls := credit_closed rfl
  rw [last, credit]
  split_ifs
  · obtain ⟨clock, running, rejectedMs, place⟩ := manager
    cases place with
    | calling delayMs =>
        dsimp only [ManagerPlace.calls, ManagerPlace.credit]
        omega
    | _ => exact Nat.zero_le _
  · exact Nat.le_refl _

/-- A call of a running node comes out of the credit. -/
theorem ManagerPlace.Leads.credit {clock rejectedMs later : Nat} {place next : ManagerPlace}
    (leads : place.Leads clock true rejectedMs later next) (least : 10 ≤ rejectedMs)
    (paced : place.Paced rejectedMs clock) :
    64 * place.calls + next.credit later clock ≤ place.credit rejectedMs clock := by
  have fresh : rejectCredit 10 = 620 := rfl
  have first : failCredit 10 = 122 := rfl
  cases leads with
  | leaves closed => cases closed
  | drops goes short =>
      have served := Backoff.served_start rejectedMs clock
      dsimp only [calls, ManagerPlace.credit]
      omega
  | resets goes long =>
      dsimp only [calls, ManagerPlace.credit]
      omega
  | restSleeps => exact Nat.le_of_eq (Nat.zero_add _)
  | restSlice awake next =>
      obtain ⟨_, _, served⟩ := Backoff.served_next awake next
      dsimp only [calls, ManagerPlace.credit]
      omega
  | restDone awake done =>
      have served := Backoff.served_return awake done
      have pays := rejectCredit_next least
      have same := paced.1
      dsimp only [calls, ManagerPlace.credit]
      omega
  | hangs closed => cases closed
  | dials => exact Nat.le_of_eq (Nat.zero_add _)
  | connects =>
      dsimp only [calls, ManagerPlace.credit]
      omega
  | @fails delayMs =>
      have served := Backoff.served_start delayMs clock
      have same : (Backoff.start delayMs clock).delayMs = delayMs := rfl
      dsimp only [calls, ManagerPlace.credit]
      rw [served, same]
      omega
  | waitSleeps => exact Nat.le_of_eq (Nat.zero_add _)
  | waitSlice awake next =>
      obtain ⟨same, _, served⟩ := Backoff.served_next awake next
      dsimp only [calls, ManagerPlace.credit]
      rw [served, same]
      omega
  | waitDone awake done =>
      have served := Backoff.served_return awake done
      have pays := failCredit_next paced.1
      dsimp only [calls, ManagerPlace.credit]
      omega
  | ended => exact Nat.le_refl 0

theorem Manager.Paced.thread_credit {manager : Manager} (paced : manager.Paced)
    (running : manager.running = true) (connects : Bool) :
    64 * (manager.dials (.thread connects)).length + (manager.thread connects).credit ≤
      manager.credit := by
  obtain ⟨later, next, leads, whole⟩ := manager.thread_leads connects
  rw [dials_thread, whole, credit_running running]
  rw [running] at leads
  exact Nat.le_trans (Nat.le_of_eq (congrArg _ (credit_running running)))
    (leads.credit paced.rejectedMs paced.place)

/-- Every event pays for its calls out of the credit and the time that it takes. -/
theorem Manager.Paced.step_credit {manager : Manager} (paced : manager.Paced)
    (event : ManagerEvent) :
    64 * (manager.dials event).length + (manager.step event).credit + manager.clock ≤
      manager.credit + (manager.step event).clock := by
  cases event with
  | elapse time =>
      have grows := manager.place.credit_elapse manager.rejectedMs manager.clock time
      dsimp only [dials, Manager.step, credit, List.length_nil]
      split_ifs
      · omega
      · omega
  | close =>
      have last : (manager.step .close).credit ≤ manager.credit := manager.credit_close
      dsimp only [dials, List.length_nil]
      exact Nat.add_le_add_right (Nat.le_trans (Nat.le_of_eq (Nat.zero_add _)) last) _
  | thread connects =>
      obtain ⟨still, flagged⟩ := manager.thread_frame connects
      by_cases running : manager.running = true
      · have pays := paced.thread_credit running connects
        dsimp only [Manager.step]
        omega
      · have closed : manager.running = false := Bool.eq_false_iff.mpr running
        have done := calls_thread closed connects
        rw [dials_thread, credit_closed closed]
        dsimp only [Manager.step]
        rw [credit_closed (flagged.trans closed), done, still]
        exact Nat.le_refl _

theorem ManagerPlace.calls_le (place : ManagerPlace) : place.calls ≤ 1 := by
  cases place with
  | calling delayMs => exact Nat.le_refl 1
  | _ => exact Nat.zero_le 1

/-- The reset of `rejected_ms` after a link of a second is the most that a state is in credit. -/
theorem Manager.Paced.credit_le {manager : Manager} (paced : manager.Paced) :
    manager.credit ≤ 806 := by
  by_cases running : manager.running = true
  · have most := rejectCredit_le paced.rejectedMs
    rw [credit_running running]
    obtain ⟨clock, flag, rejectedMs, place⟩ := manager
    obtain ⟨least, here⟩ := paced
    dsimp only at most ⊢
    cases place with
    | reading opened =>
        dsimp only [ManagerPlace.credit]
        omega
    | rejected backoff => exact Nat.min_le_right _ 806
    | dialing delayMs =>
        have first := failCredit_le here
        dsimp only [ManagerPlace.credit]
        omega
    | calling delayMs =>
        have first := failCredit_le here
        dsimp only [ManagerPlace.credit]
        omega
    | waiting backoff =>
        dsimp only [ManagerPlace.credit]
        omega
    | returned => exact Nat.zero_le 806
  · have one := manager.place.calls_le
    rw [credit_closed (Bool.eq_false_iff.mpr running)]
    omega

/-- The time at which the slice of a thread that sleeps ends. -/
def ManagerPlace.wake : ManagerPlace → Nat
  | .rejected backoff | .waiting backoff => backoff.wake
  | _ => 0

/-- The steps that the thread of a closed node still takes. -/
def ManagerPlace.passes : ManagerPlace → Nat
  | .reading _ | .dialing _ => 1
  | .rejected _ | .waiting _ => 2
  | .calling _ => 3
  | .returned => 0

/-- The node is closed, and its thread sleeps no longer than until a time. -/
structure Manager.Closed (deadline : Nat) (manager : Manager) : Prop where
  closed : manager.running = false
  soon : manager.place.wake ≤ max deadline manager.clock

theorem Manager.Paced.closed {manager : Manager} (paced : manager.Paced) :
    (manager.step .close).Closed (manager.clock + 20) := by
  obtain ⟨clock, running, rejectedMs, place⟩ := manager
  refine ⟨rfl, Nat.le_trans ?_ (Nat.le_max_left _ _)⟩
  cases place with
  | rejected backoff => exact paced.place.2
  | waiting backoff => exact paced.place.2
  | _ => exact Nat.zero_le _

/-- A step of the thread of a closed node begins no slice, and beyond the deadline it goes on. -/
theorem Manager.Closed.thread {manager : Manager} {deadline : Nat}
    (closed : manager.Closed deadline) (connects : Bool) :
    (manager.thread connects).place.wake ≤ max deadline manager.clock ∧
      (manager.thread connects).place.passes ≤ manager.place.passes ∧
      (deadline ≤ manager.clock →
        (manager.thread connects).place.passes ≤ manager.place.passes - 1) := by
  obtain ⟨later, next, leads, whole⟩ := manager.thread_leads connects
  rw [whole]
  obtain ⟨clock, running, rejectedMs, place⟩ := manager
  obtain ⟨off, soon⟩ := closed
  dsimp only at off soon leads ⊢
  subst off
  cases leads with
  | leaves => exact ⟨Nat.zero_le _, Nat.zero_le _, fun _ => Nat.zero_le _⟩
  | drops goes => cases goes
  | resets goes => cases goes
  | restSleeps asleep =>
      refine ⟨soon, Nat.le_refl _, fun past => ?_⟩
      dsimp only [ManagerPlace.wake] at soon
      omega
  | @restSlice backoff _ _ next =>
      rw [backoff.next_closed clock] at next
      cases next
  | restDone => exact ⟨Nat.zero_le _, Nat.le_succ 1, fun _ => Nat.le_refl 1⟩
  | hangs => exact ⟨Nat.zero_le _, Nat.zero_le _, fun _ => Nat.zero_le _⟩
  | dials goes => cases goes
  | connects => exact ⟨Nat.zero_le _, Nat.le_add_left 1 2, fun _ => Nat.le_succ 1⟩
  | fails => exact ⟨Nat.le_max_right deadline clock, Nat.le_succ 2, fun _ => Nat.le_refl 2⟩
  | waitSleeps asleep =>
      refine ⟨soon, Nat.le_refl _, fun past => ?_⟩
      dsimp only [ManagerPlace.wake] at soon
      omega
  | @waitSlice backoff _ _ next =>
      rw [backoff.next_closed clock] at next
      cases next
  | waitDone => exact ⟨Nat.zero_le _, Nat.le_succ 1, fun _ => Nat.le_refl 1⟩
  | ended => exact ⟨soon, Nat.le_refl _, fun _ => Nat.le_refl _⟩

theorem Manager.Closed.step {manager : Manager} {deadline : Nat}
    (closed : manager.Closed deadline) (event : ManagerEvent) :
    (manager.step event).Closed deadline := by
  cases event with
  | elapse time =>
      have soon := closed.soon
      refine ⟨closed.closed, ?_⟩
      dsimp only [Manager.step]
      omega
  | close => exact ⟨rfl, closed.soon⟩
  | thread connects =>
      obtain ⟨still, flagged⟩ := manager.thread_frame connects
      have soon := (closed.thread connects).1
      exact ⟨flagged.trans closed.closed, still.symm ▸ soon⟩

theorem Manager.Closed.passes_step {manager : Manager} {deadline : Nat}
    (closed : manager.Closed deadline) (event : ManagerEvent) :
    (manager.step event).place.passes ≤ manager.place.passes := by
  cases event with
  | elapse time => exact Nat.le_refl _
  | close => exact Nat.le_refl _
  | thread connects => exact (closed.thread connects).2.1

theorem Manager.clock_step (manager : Manager) (event : ManagerEvent) :
    manager.clock ≤ (manager.step event).clock := by
  cases event with
  | elapse time => exact Nat.le_add_right _ time
  | close => exact Nat.le_refl _
  | thread connects => exact Nat.le_of_eq (manager.thread_frame connects).1.symm

theorem ManagerPlace.passes_le (place : ManagerPlace) : place.passes ≤ 3 := by
  cases place with
  | reading opened => exact Nat.le_add_left 1 2
  | rejected backoff => exact Nat.le_succ 2
  | dialing delayMs => exact Nat.le_add_left 1 2
  | calling delayMs => exact Nat.le_refl 3
  | waiting backoff => exact Nat.le_succ 2
  | returned => exact Nat.zero_le 3

theorem ManagerPlace.returned_of_passes {place : ManagerPlace} (none : place.passes = 0) :
    place = .returned := by
  cases place with
  | returned => rfl
  | _ => cases none

/-- A closed node makes at most the call that its thread was about to make. -/
theorem Manager.Closed.last_call {manager : Manager} {deadline : Nat}
    (closed : manager.Closed deadline) (events : List ManagerEvent) :
    (collect Manager.step Manager.dials manager events).length ≤ manager.place.calls := by
  have keep (manager : Manager) (event : ManagerEvent) (held : manager.Closed deadline) :
      (manager.step event).Closed deadline := held.step event
  have paid (manager : Manager) (event : ManagerEvent) (held : manager.Closed deadline) :
      1 * (manager.dials event).length + (manager.step event).place.calls + 0 ≤
        manager.place.calls + 0 := by
    cases event with
    | elapse time => exact Nat.le_of_eq (Nat.zero_add _)
    | close => exact Nat.le_of_eq (Nat.zero_add _)
    | thread connects =>
        have done := calls_thread held.closed connects
        have made := manager.dials_thread connects
        dsimp only [Manager.step]
        omega
  have all := collect_paid 1 (fun manager : Manager => manager.place.calls) (fun _ => 0) keep paid
    events manager closed
  omega

/-- The thread of a closed node returns after three steps beyond the deadline. -/
theorem Manager.Closed.returns {manager : Manager} {deadline : Nat}
    (closed : manager.Closed deadline) (past : deadline ≤ manager.clock)
    {events : List ManagerEvent} (steps : 3 ≤ events.countP ManagerEvent.isThread) :
    (run Manager.step manager events).place = .returned := by
  have keep (manager : Manager) (event : ManagerEvent)
      (held : manager.Closed deadline ∧ deadline ≤ manager.clock) :
      (manager.step event).Closed deadline ∧ deadline ≤ (manager.step event).clock :=
    ⟨held.1.step event, Nat.le_trans held.2 (manager.clock_step event)⟩
  have stays (manager : Manager) (event : ManagerEvent)
      (held : manager.Closed deadline ∧ deadline ≤ manager.clock) :
      (manager.step event).place.passes ≤ manager.place.passes := held.1.passes_step event
  have falls (manager : Manager) (event : ManagerEvent)
      (held : manager.Closed deadline ∧ deadline ≤ manager.clock) (goes : event.isThread) :
      (manager.step event).place.passes ≤ manager.place.passes - 1 := by
    cases event with
    | thread connects => exact (held.1.thread connects).2.2 held.2
    | elapse time => cases goes
    | close => cases goes
  have fallen := run_measure (fun manager : Manager => manager.place.passes) ManagerEvent.isThread
    keep stays falls events manager ⟨closed, past⟩
  have few := manager.place.passes_le
  exact ManagerPlace.returned_of_passes (by omega)

/-- In every run of the connection manager, whatever becomes of its links and of its calls of
`unix_connect`, the calls of a stretch of the run, at 64 ms each, take at most 806 ms more than the
stretch. Once the node is closed at most one call is made, and the thread has returned after three
steps that it takes 20 ms later. -/
theorem connection_manager_paced (before during sooner later : List ManagerEvent) :
    let manager := run Manager.step .initial before
    let closed := manager.step .close
    64 * (collect Manager.step Manager.dials manager during).length ≤
        (run Manager.step manager during).clock - manager.clock + 806 ∧
      (collect Manager.step Manager.dials closed during).length ≤ 1 ∧
      (closed.clock + 20 ≤ (run Manager.step closed sooner).clock →
        3 ≤ later.countP ManagerEvent.isThread →
        (run Manager.step closed (sooner ++ later)).place = .returned) := by
  intro manager closed
  have keep (manager : Manager) (event : ManagerEvent) (held : manager.Paced) :
      (manager.step event).Paced := held.step event
  have pays (manager : Manager) (event : ManagerEvent) (held : manager.Paced) :
      64 * (manager.dials event).length + (manager.step event).credit + manager.clock ≤
        manager.credit + (manager.step event).clock := held.step_credit event
  have paced : manager.Paced := run_invariant keep before _ .initial
  have ending : closed.Closed (manager.clock + 20) := paced.closed
  refine ⟨?_, Nat.le_trans (ending.last_call during) closed.place.calls_le, ?_⟩
  · have paid := collect_paid 64 Manager.credit Manager.clock keep pays during manager paced
    have most := paced.credit_le
    omega
  · intro past steps
    have shut (other : Manager) (event : ManagerEvent)
        (held : other.Closed (manager.clock + 20)) :
        (other.step event).Closed (manager.clock + 20) := held.step event
    have reached : (run Manager.step closed sooner).Closed (manager.clock + 20) :=
      run_invariant shut sooner _ ending
    rw [run_append]
    exact reached.returns past steps

/-- The link drops after 5 ms and the next call fails. The node is closed before that call. -/
theorem connection_manager_paced_short :
    let manager := run Manager.step .initial [.elapse 5, .thread true, .thread true, .elapse 10,
      .thread true, .thread true]
    collect Manager.step Manager.dials manager [.thread false, .thread true, .elapse 3] = [15] ∧
      64 * 1 ≤ 18 - 15 + 806 ∧
      (run Manager.step (manager.step .close)
        ([.elapse 20] ++ [.thread false, .thread true, .thread true])).place = .returned := by
  have paced := connection_manager_paced [.elapse 5, .thread true, .thread true, .elapse 10,
    .thread true, .thread true] [.thread false, .thread true, .elapse 3] [.elapse 20]
    [.thread false, .thread true, .thread true]
  exact ⟨by decide, paced.1, paced.2.2 (by decide) (by decide)⟩

end Chappe
