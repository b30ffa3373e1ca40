/-
This file defines runs of a step function and the induction rules for them.
-/

import Mathlib.Data.List.Basic
import Mathlib.Order.Monotone.Basic
import Mathlib.Order.WellFounded

namespace Chappe.Foundation

variable {State Action Output Model : Type*}

/-- A run applies its actions in order. An action that is not enabled leaves the state. -/
def run (step : State → Action → State) (state : State) (actions : List Action) : State :=
  actions.foldl step state

/-- Every step of the run is taken in a state that meets the condition. -/
def Meets (step : State → Action → State) (condition : State → Action → Prop) :
    State → List Action → Prop
  | _, [] => True
  | state, action :: rest =>
      condition state action ∧ Meets step condition (step state action) rest

instance Meets.decidable (step : State → Action → State) (condition : State → Action → Prop)
    [∀ state action, Decidable (condition state action)] :
    ∀ state actions, Decidable (Meets step condition state actions)
  | _, [] => .isTrue True.intro
  | state, action :: rest =>
      have := decidable step condition (step state action) rest
      decidable_of_iff (condition state action ∧ Meets step condition (step state action) rest)
        Iff.rfl

/-- The property holds after every step of the run. -/
def Along (step : State → Action → State) (property : State → Prop) :
    State → List Action → Prop :=
  Meets step fun state action => property (step state action)

/-- A run meets a condition when each of its steps does, after the steps before it. -/
theorem Meets.iff_forall {step : State → Action → State} {condition : State → Action → Prop}
    {actions : List Action} {state : State} :
    Meets step condition state actions ↔ ∀ earlier action later,
      actions = earlier ++ action :: later → condition (run step state earlier) action := by
  induction actions generalizing state with
  | nil => simp [Meets]
  | cons first rest ih =>
      constructor
      · rintro ⟨now, met⟩ earlier action later same
        cases earlier with
        | nil =>
            obtain ⟨rfl, -⟩ := List.cons.inj same
            exact now
        | cons other earlier =>
            obtain ⟨rfl, tail⟩ := List.cons.inj same
            exact ih.mp met earlier action later tail
      · intro all
        refine ⟨all [] first rest rfl, ih.mpr fun earlier action later same => ?_⟩
        exact all (first :: earlier) action later (by rw [same]; rfl)

/-- A weaker condition is met by the same runs. -/
theorem Meets.mono {step : State → Action → State} {condition weaker : State → Action → Prop}
    (imp : ∀ state action, condition state action → weaker state action) :
    ∀ {actions : List Action} {state : State}, Meets step condition state actions →
      Meets step weaker state actions := by
  intro actions
  induction actions with
  | nil =>
      intro _ _
      exact True.intro
  | cons action rest ih =>
      intro state met
      exact ⟨imp state action met.1, ih met.2⟩

/-- A condition on the actions alone is met when every action meets it. -/
theorem Meets.of_admitted {step : State → Action → State} {admitted : Action → Prop} :
    ∀ {actions : List Action} {state : State}, (∀ action ∈ actions, admitted action) →
      Meets step (fun _ action => admitted action) state actions := by
  intro actions
  induction actions with
  | nil =>
      intro _ _
      exact True.intro
  | cons action rest ih =>
      intro _ all
      exact ⟨all action List.mem_cons_self, ih fun later member =>
        all later (List.mem_cons_of_mem _ member)⟩

/-- A run whose actions are all admitted meets the condition with an admitted action. -/
theorem Meets.and_admitted {step : State → Action → State} {condition : State → Action → Prop}
    {admitted : Action → Prop} :
    ∀ {actions : List Action} {state : State}, Meets step condition state actions →
      (∀ action ∈ actions, admitted action) →
      Meets step (fun state action => condition state action ∧ admitted action) state actions := by
  intro actions
  induction actions with
  | nil =>
      intro _ _ _
      exact True.intro
  | cons action rest ih =>
      intro _ met all
      exact ⟨⟨met.1, all action List.mem_cons_self⟩,
        ih met.2 fun later member => all later (List.mem_cons_of_mem _ member)⟩

/-- A property kept by every admitted step holds at the end of an admitted run. -/
theorem run_invariant_of_meets {step : State → Action → State}
    {condition : State → Action → Prop} {invariant : State → Prop}
    (keep : ∀ state action, invariant state → condition state action →
      invariant (step state action)) :
    ∀ (actions : List Action) (state : State), invariant state →
      Meets step condition state actions → invariant (run step state actions) := by
  intro actions
  induction actions with
  | nil =>
      intro state start _
      exact start
  | cons action rest ih =>
      intro state start met
      exact ih (step state action) (keep state action start met.1) met.2

/-- A property kept by every admitted step holds after every step of an admitted run. -/
theorem Along.of_meets {step : State → Action → State} {condition : State → Action → Prop}
    {invariant : State → Prop}
    (keep : ∀ state action, invariant state → condition state action →
      invariant (step state action)) :
    ∀ (actions : List Action) (state : State), invariant state →
      Meets step condition state actions → Along step invariant state actions := by
  intro actions
  induction actions with
  | nil =>
      intro _ _ _
      exact True.intro
  | cons action rest ih =>
      intro state start met
      have next := keep state action start met.1
      exact ⟨next, ih (step state action) next met.2⟩

/-- A property kept by every step holds at the end of every run. -/
theorem run_invariant {step : State → Action → State} {invariant : State → Prop}
    (keep : ∀ state action, invariant state → invariant (step state action))
    (actions : List Action) (state : State) (start : invariant state) :
    invariant (run step state actions) := by
  have always : Meets step (fun _ _ => True) state actions :=
    Meets.of_admitted fun _ _ => True.intro
  exact run_invariant_of_meets (fun state action held _ => keep state action held)
    actions state start always

theorem run_append (step : State → Action → State) (state : State) (first second : List Action) :
    run step state (first ++ second) = run step (run step state first) second := List.foldl_append

/-- The event happens in a step of the run. -/
def Occurs (step : State → Action → State) (event : State → Action → Prop) (state : State)
    (actions : List Action) : Prop :=
  ∃ earlier action later, actions = earlier ++ action :: later ∧
    event (run step state earlier) action

theorem not_occurs_nil {step : State → Action → State} {event : State → Action → Prop}
    {state : State} : ¬ Occurs step event state [] := by
  rintro ⟨earlier, action, later, same, -⟩
  simp at same

/-- The event happens in a run if it has happened before the last step or happens in it. -/
theorem occurs_snoc {step : State → Action → State} {event : State → Action → Prop}
    {state : State} (earlier : List Action) (action : Action) :
    Occurs step event state (earlier ++ [action]) ↔
      Occurs step event state earlier ∨ event (run step state earlier) action := by
  constructor
  · rintro ⟨before, happening, after, same, happens⟩
    rcases after.eq_nil_or_concat with rfl | ⟨others, last, rfl⟩
    · obtain ⟨rfl, tail⟩ := List.append_inj' same rfl
      obtain ⟨rfl, -⟩ := List.cons.inj tail
      exact .inr happens
    · have split : earlier ++ [action] = (before ++ happening :: others) ++ [last] := by
        simpa using same
      obtain ⟨rfl, -⟩ := List.append_inj' split rfl
      exact .inl ⟨before, happening, others, rfl, happens⟩
  · rintro (⟨before, happening, after, rfl, happens⟩ | happens)
    · exact ⟨before, happening, after ++ [action], by simp, happens⟩
    · exact ⟨earlier, action, [], rfl, happens⟩

/-- A property that a run brings about begins to hold in one of its steps. -/
theorem run_crossing {step : State → Action → State} (property : State → Prop)
    {actions : List Action} {state : State} (start : ¬ property state)
    (finish : property (run step state actions)) :
    Occurs step (fun state action => ¬ property state ∧ property (step state action)) state
      actions := by
  induction actions generalizing state with
  | nil => exact absurd finish start
  | cons action rest ih =>
      by_cases now : property (step state action)
      · exact ⟨[], action, rest, rfl, start, now⟩
      · obtain ⟨earlier, crossing, later, rfl, before, after⟩ := ih now finish
        exact ⟨action :: earlier, crossing, later, rfl, before, after⟩

/-- The outputs of a run, one for each action. -/
def trace (step : State → Action → State × Output) : State → List Action → List Output
  | _, [] => []
  | state, action :: rest => (step state action).2 :: trace step (step state action).1 rest

/-- The run of a machine with outputs. -/
def runWith (step : State → Action → State × Output) (state : State) (actions : List Action) :
    State :=
  run (fun state action => (step state action).1) state actions

theorem trace_append (step : State → Action → State × Output) (state : State)
    (first second : List Action) : trace step state (first ++ second) =
      trace step state first ++ trace step (runWith step state first) second := by
  induction first generalizing state with
  | nil => rfl
  | cons action rest ih =>
      rw [List.cons_append, trace, trace, ih]
      rfl

/-- A related model that answers each admitted step alike answers every admitted run alike. -/
theorem trace_eq_of_simulation {step : State → Action → State × Output}
    {model : Model → Action → Model × Output} (related : State → Model → Prop)
    {admitted : Model → Action → Prop}
    (keep : ∀ state abstract action, related state abstract → admitted abstract action →
      (step state action).2 = (model abstract action).2 ∧
        related (step state action).1 (model abstract action).1) :
    ∀ (actions : List Action) (state : State) (abstract : Model), related state abstract →
      Meets (fun abstract action => (model abstract action).1) admitted abstract actions →
      trace step state actions = trace model abstract actions ∧
        related (runWith step state actions) (runWith model abstract actions) := by
  intro actions
  induction actions with
  | nil =>
      intro state abstract start _
      exact ⟨rfl, start⟩
  | cons action rest ih =>
      intro state abstract start met
      obtain ⟨same, next⟩ := keep state abstract action start met.1
      obtain ⟨tail, finish⟩ := ih _ _ next met.2
      exact ⟨by rw [trace, trace, same, tail], finish⟩

/-- What the steps of a run yield, in order. -/
def collect (step : State → Action → State) (yields : State → Action → List Output) :
    State → List Action → List Output
  | _, [] => []
  | state, action :: rest => yields state action ++ collect step yields (step state action) rest

/-- A run whose steps yield nothing yields nothing. -/
theorem collect_nothing {step : State → Action → State} {yields : State → Action → List Output} :
    ∀ {actions : List Action} {state : State},
      (∀ action ∈ actions, ∀ state, yields state action = []) →
      collect step yields state actions = [] := by
  intro actions
  induction actions with
  | nil =>
      intro _ _
      rfl
  | cons action rest ih =>
      intro state nothing
      rw [collect, nothing action List.mem_cons_self, List.nil_append]
      exact ih fun later member => nothing later (List.mem_cons_of_mem _ member)

theorem collect_append (step : State → Action → State) (yields : State → Action → List Output)
    (state : State) (first second : List Action) :
    collect step yields state (first ++ second) =
      collect step yields state first ++ collect step yields (run step state first) second := by
  induction first generalizing state with
  | nil => rfl
  | cons action rest ih =>
      rw [List.cons_append, collect, collect, ih, List.append_assoc]
      rfl

/-- A first in first out queue holds at the end of a run what came in and has not come out. -/
theorem collect_queue {step : State → Action → State} {condition : State → Action → Prop}
    {invariant : State → Prop} {queue : State → List Output}
    {enters leaves : State → Action → List Output}
    (keep : ∀ state action, invariant state → condition state action →
      invariant (step state action) ∧
        queue state ++ enters state action = leaves state action ++ queue (step state action)) :
    ∀ (actions : List Action) (state : State), invariant state →
      Meets step condition state actions →
      queue state ++ collect step enters state actions =
        collect step leaves state actions ++ queue (run step state actions) := by
  intro actions
  induction actions with
  | nil =>
      intro state _ _
      rw [collect, collect, List.append_nil, List.nil_append]
      rfl
  | cons action rest ih =>
      intro state start met
      obtain ⟨next, moved⟩ := keep state action start met.1
      rw [collect, collect, ← List.append_assoc, moved, List.append_assoc,
        ih (step state action) next met.2, ← List.append_assoc]
      rfl

/-- A log that every step extends by what it yields is extended by what the run yields. -/
theorem collect_log {step : State → Action → State} (log : State → List Output)
    {yields : State → Action → List Output}
    (keep : ∀ state action, log (step state action) = log state ++ yields state action) :
    ∀ (actions : List Action) (state : State),
      log (run step state actions) = log state ++ collect step yields state actions := by
  intro actions
  induction actions with
  | nil =>
      intro state
      exact (List.append_nil _).symm
  | cons action rest ih =>
      intro state
      rw [collect, ← List.append_assoc, ← keep, ← ih (step state action)]
      rfl

/-- Two outputs that agree in every admitted step agree over an admitted run. -/
theorem collect_congr {step : State → Action → State} {condition : State → Action → Prop}
    {invariant : State → Prop} {first second : State → Action → List Output}
    (keep : ∀ state action, invariant state → condition state action →
      invariant (step state action) ∧ first state action = second state action) :
    ∀ (actions : List Action) (state : State), invariant state →
      Meets step condition state actions →
      collect step first state actions = collect step second state actions := by
  intro actions
  induction actions with
  | nil =>
      intro state _ _
      rfl
  | cons action rest ih =>
      intro state start met
      obtain ⟨next, same⟩ := keep state action start met.1
      rw [collect, collect, same, ih (step state action) next met.2]

/-- A reading of the state that follows what every step yields follows the whole run. -/
theorem collect_fold {step : State → Action → State} (reading : State → Model)
    {apply : Model → Output → Model} {yields : State → Action → List Output}
    (keep : ∀ state action,
      reading (step state action) = (yields state action).foldl apply (reading state)) :
    ∀ (actions : List Action) (state : State), reading (run step state actions) =
      (collect step yields state actions).foldl apply (reading state) := by
  intro actions
  induction actions with
  | nil =>
      intro state
      rfl
  | cons action rest ih =>
      intro state
      rw [collect, List.foldl_append, ← keep, ← ih (step state action)]
      rfl

/-- What is read from the outputs of a run is what is read step by step. -/
theorem collect_filterMap {Reading : Type*} (step : State → Action → State)
    (yields : State → Action → List Output) (read : Output → Option Reading) (state : State)
    (actions : List Action) : (collect step yields state actions).filterMap read =
      collect step (fun state action => (yields state action).filterMap read) state actions := by
  induction actions generalizing state with
  | nil => rfl
  | cons action rest ih => rw [collect, List.filterMap_append, ih, collect]

/-- A relation between the state and what the steps have yielded holds over every run. -/
theorem collect_invariant {step : State → Action → State} {yields : State → Action → List Output}
    {invariant : State → List Output → Prop}
    (keep : ∀ state log action, invariant state log →
      invariant (step state action) (log ++ yields state action)) :
    ∀ (actions : List Action) (state : State) (log : List Output), invariant state log →
      invariant (run step state actions) (log ++ collect step yields state actions) := by
  intro actions
  induction actions with
  | nil =>
      intro state log start
      rw [collect, List.append_nil]
      exact start
  | cons action rest ih =>
      intro state log start
      rw [collect, ← List.append_assoc]
      exact ih _ _ (keep state log action start)

/-- A point of the log that every step can move forward goes forward over the whole run. -/
theorem exists_points {step : State → Action → State} {yields : State → Action → List Output}
    {stands : State → List Output → Nat → Prop}
    (keep : ∀ state log point action, stands state log point →
      ∃ later, point ≤ later ∧ stands (step state action) (log ++ yields state action) later) :
    ∀ (actions : List Action) (state : State) (log : List Output) (point : Nat),
      stands state log point → ∃ points : Nat → Nat, Monotone points ∧ point ≤ points 0 ∧
        ∀ count, stands (run step state (actions.take count))
          (log ++ collect step yields state (actions.take count)) (points count) := by
  intro actions
  induction actions with
  | nil =>
      intro state log point start
      refine ⟨fun _ => point, monotone_const, Nat.le_refl _, fun count => ?_⟩
      rw [List.take_nil, collect, List.append_nil]
      exact start
  | cons action rest ih =>
      intro state log point start
      obtain ⟨later, forward, next⟩ := keep state log point action start
      obtain ⟨points, monotone, first, all⟩ := ih _ _ _ next
      refine ⟨fun | 0 => point | count + 1 => points count, ?_, Nat.le_refl _, ?_⟩
      · apply monotone_nat_of_le_succ
        intro count
        cases count with
        | zero => exact Nat.le_trans forward first
        | succ count => exact monotone (Nat.le_succ count)
      · intro count
        cases count with
        | zero =>
            rw [List.take_zero, collect, List.append_nil]
            exact start
        | succ count =>
            rw [List.take_succ_cons, collect, ← List.append_assoc]
            exact all count

/-- The states of an endless run. -/
def course (step : State → Action → State) (state : State) (schedule : Nat → Action) : Nat → State
  | 0 => state
  | count + 1 => step (course step state schedule count) (schedule count)

/-- An invariant holds along an endless run. -/
theorem course_invariant {step : State → Action → State} {invariant : State → Prop}
    (keep : ∀ state action, invariant state → invariant (step state action)) {state : State}
    (start : invariant state) (schedule : Nat → Action) :
    ∀ count, invariant (course step state schedule count)
  | 0 => start
  | count + 1 => keep _ _ (course_invariant keep start schedule count)

/-- Useful steps that lower a measure, while no step raises it, come to an end when one of them is
always taken in the end. -/
theorem course_settles {Order : Type*} [Preorder Order] [WellFoundedLT Order]
    {step : State → Action → State} {invariant : State → Prop}
    {useful : State → Action → Prop} (measure : State → Order)
    (keep : ∀ state action, invariant state → invariant (step state action))
    (stays : ∀ state action, invariant state → measure (step state action) ≤ measure state)
    (falls : ∀ state action, invariant state → useful state action →
      measure (step state action) < measure state)
    {state : State} (start : invariant state) {schedule : Nat → Action}
    (fair : ∀ count, (∃ action, useful (course step state schedule count) action) →
      ∃ later, count ≤ later ∧ useful (course step state schedule later) (schedule later)) :
    ∃ count, ∀ action, ¬ useful (course step state schedule count) action := by
  have along := course_invariant keep start schedule
  have lower (count extra : Nat) : measure (course step state schedule (count + extra)) ≤
      measure (course step state schedule count) := by
    induction extra with
    | zero => exact le_refl _
    | succ extra ih => exact (stays _ _ (along _)).trans ih
  by_contra endless
  push Not at endless
  have never (bound : Order) : ∀ count, measure (course step state schedule count) ≠ bound := by
    induction bound using WellFoundedLT.induction with
    | _ bound ih =>
        intro count here
        obtain ⟨later, after, taken⟩ := fair count (endless count)
        obtain ⟨extra, rfl⟩ := Nat.exists_eq_add_of_le after
        have fallen := falls _ _ (along (count + extra)) taken
        exact ih _ (here ▸ fallen.trans_le (lower count extra)) (count + extra + 1) rfl
  exact never _ 0 rfl

end Chappe.Foundation
