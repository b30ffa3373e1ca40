/-
This file bounds what a run yields by the time that it takes, with a credit that the state holds.
-/

import Chappe.Foundation.Run

namespace Chappe.Foundation

variable {State Action Output : Type*}

/-- Every output costs a part of the time. A step that pays for its outputs out of the credit of
the state and the time that it takes makes a run that does. -/
theorem collect_paid {step : State → Action → State} {yields : State → Action → List Output}
    {invariant : State → Prop} (cost : Nat) (credit clock : State → Nat)
    (keep : ∀ state action, invariant state → invariant (step state action))
    (paid : ∀ state action, invariant state →
      cost * (yields state action).length + credit (step state action) + clock state ≤
        credit state + clock (step state action)) :
    ∀ (actions : List Action) (state : State), invariant state →
      cost * (collect step yields state actions).length + credit (run step state actions) +
        clock state ≤ credit state + clock (run step state actions) := by
  intro actions
  induction actions with
  | nil =>
      intro state _
      rw [collect, List.length_nil, Nat.mul_zero, Nat.zero_add]
      exact Nat.le_refl _
  | cons action rest ih =>
      intro state start
      have now := paid state action start
      have later := ih (step state action) (keep state action start)
      have whole : run step state (action :: rest) = run step (step state action) rest := rfl
      rw [collect, List.length_append, Nat.mul_add, whole]
      omega

/-- A measure that every useful step lowers, while no step raises it, falls by the number of useful
steps of a run, down to zero. -/
theorem run_measure {step : State → Action → State} {invariant : State → Prop}
    (measure : State → Nat) (useful : Action → Bool)
    (keep : ∀ state action, invariant state → invariant (step state action))
    (stays : ∀ state action, invariant state → measure (step state action) ≤ measure state)
    (falls : ∀ state action, invariant state → useful action →
      measure (step state action) ≤ measure state - 1) :
    ∀ (actions : List Action) (state : State), invariant state →
      measure (run step state actions) ≤ measure state - actions.countP useful := by
  intro actions
  induction actions with
  | nil =>
      intro state _
      exact Nat.le_refl _
  | cons action rest ih =>
      intro state start
      have later := ih (step state action) (keep state action start)
      have whole : run step state (action :: rest) = run step (step state action) rest := rfl
      rw [List.countP_cons, whole]
      by_cases counts : useful action
      · have lower := falls state action start counts
        rw [if_pos counts]
        omega
      · have lower := stays state action start
        rw [if_neg counts]
        omega

end Chappe.Foundation
