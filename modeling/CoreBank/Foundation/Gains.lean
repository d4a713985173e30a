import CoreBank.Foundation.Runs
import Mathlib.Algebra.Order.Group.Abs
import Mathlib.Tactic.Abel

namespace CoreBank
namespace Foundation

/-!
# Gains along a run

A step changes some quantity of the state by a gain that depends on the state
and the input.  Over a run the gains add up.  When the step only comes close to
the gain, the errors add up as well, and the sum of their bounds bounds the
distance to the sum of the gains.
-/

variable {State Input Amount : Type*} (step : State -> Input -> State)

/-- The gains of the steps of a run, each in the state the step starts from. -/
def gathered [AddMonoid Amount] (gain : State -> Input -> Amount) : State -> List Input -> Amount
  | _, [] => 0
  | state, input :: inputs => gain state input + gathered gain (step state input) inputs

variable {step}

/-- The rule for invariants that know what has been gathered so far. -/
theorem invariant_gathered [AddMonoid Amount] (Invariant : Amount -> State -> Prop)
    {gain : State -> Input -> Amount}
    (kept : forall amount state input, Invariant amount state ->
      Invariant (amount + gain state input) (step state input))
    {amount : Amount} {start : State} (initially : Invariant amount start) (inputs : List Input) :
    Invariant (amount + gathered step gain start inputs) (run step start inputs) := by
  induction inputs generalizing amount start with
  | nil =>
      rw [gathered, add_zero]
      exact initially
  | cons input inputs inductionHypothesis =>
      rw [gathered, ← add_assoc]
      exact inductionHypothesis (kept amount start input initially)

/-- A quantity that every guarded step changes by its gain up to an error. -/
theorem abs_measure_run_sub_le [AddCommGroup Amount] [LinearOrder Amount] [IsOrderedAddMonoid Amount]
    {measure : State -> Amount} {gain error : State -> Input -> Amount}
    {guard : State -> Input -> Prop}
    (near : forall state input, guard state input ->
      |measure (step state input) - (measure state + gain state input)| ≤ error state input)
    {start : State} {inputs : List Input} (guarded : Along step guard start inputs) :
    |measure (run step start inputs) - (measure start + gathered step gain start inputs)| ≤
      gathered step error start inputs := by
  induction inputs generalizing start with
  | nil =>
      change |measure start - (measure start + 0)| ≤ 0
      rw [add_zero, sub_self, abs_zero]
  | cons input inputs inductionHypothesis =>
      have first := near start input guarded.1
      have rest := inductionHypothesis guarded.2
      have split : measure (run step start (input :: inputs)) -
            (measure start + gathered step gain start (input :: inputs)) =
          (measure (step start input) - (measure start + gain start input)) +
            (measure (run step (step start input) inputs) -
              (measure (step start input) + gathered step gain (step start input) inputs)) := by
        change measure (run step (step start input) inputs) -
            (measure start + (gain start input + gathered step gain (step start input) inputs)) = _
        abel
      rw [split]
      exact (abs_add_le _ _).trans (add_le_add first rest)

end Foundation
end CoreBank
