import Mathlib.Logic.Relation

namespace CoreBank
namespace Foundation

/-!
# Runs of a deterministic step

A run feeds a list of inputs to a step function.  `Along` says that a guard on
the state and the input holds at every step that the run takes.  A relation
that is reflexive, transitive and kept by every guarded step relates the two
ends of every guarded run, and so any two states along it.
-/

variable {State Input : Type*} (step : State -> Input -> State)

/-- The state after the inputs. -/
def run (start : State) (inputs : List Input) : State :=
  inputs.foldl step start

/-- The guard holds at each step of the run, in the state the step starts from. -/
def Along (guard : State -> Input -> Prop) : State -> List Input -> Prop
  | _, [] => True
  | state, input :: inputs => guard state input ∧ Along guard (step state input) inputs

variable {step}

theorem run_append (start : State) (first second : List Input) :
    run step start (first ++ second) = run step (run step start first) second :=
  List.foldl_append

/-- A guard on the inputs alone. -/
theorem Along.of_inputs {Guard : Input -> Prop} {inputs : List Input}
    (guarded : forall input, input ∈ inputs -> Guard input) (start : State) :
    Along step (fun _ input => Guard input) start inputs := by
  induction inputs generalizing start with
  | nil => exact trivial
  | cons input inputs inductionHypothesis =>
      have rest := fun later member => guarded later (List.mem_cons_of_mem input member)
      exact ⟨guarded input List.mem_cons_self, inductionHypothesis rest (step start input)⟩

/-- Two guards at once. -/
theorem Along.and {first second : State -> Input -> Prop} {start : State} {inputs : List Input}
    (holds : Along step first start inputs) (also : Along step second start inputs) :
    Along step (fun state input => first state input ∧ second state input) start inputs := by
  induction inputs generalizing start with
  | nil => exact trivial
  | cons input inputs inductionHypothesis =>
      exact ⟨⟨holds.1, also.1⟩, inductionHypothesis holds.2 also.2⟩

theorem along_append {guard : State -> Input -> Prop} (start : State) (first second : List Input) :
    Along step guard start (first ++ second) ↔
      Along step guard start first ∧ Along step guard (run step start first) second := by
  induction first generalizing start with
  | nil =>
      constructor
      · intro guarded
        exact ⟨trivial, guarded⟩
      · intro guarded
        exact guarded.2
  | cons input inputs inductionHypothesis =>
      have rest := inductionHypothesis (step start input)
      constructor
      · intro guarded
        have parts := rest.mp guarded.2
        exact ⟨⟨guarded.1, parts.1⟩, parts.2⟩
      · intro guarded
        exact ⟨guarded.1.1, rest.mpr ⟨guarded.1.2, guarded.2⟩⟩

/-- A guarded run is one whose every step starts in a state that admits it. -/
theorem along_iff {guard : State -> Input -> Prop} {start : State} {inputs : List Input} :
    Along step guard start inputs ↔ forall executed input later,
      inputs = executed ++ input :: later -> guard (run step start executed) input := by
  constructor
  · rintro guarded executed input later rfl
    exact ((along_append start executed (input :: later)).mp guarded).2.1
  · intro guarded
    induction inputs generalizing start with
    | nil => exact trivial
    | cons input inputs inductionHypothesis =>
        refine ⟨guarded [] input inputs rfl, inductionHypothesis ?_⟩
        rintro executed next later rfl
        exact guarded (input :: executed) next later rfl

/-- The rule for relations between the two ends of a run. -/
theorem run_related {Related : State -> State -> Prop} {guard : State -> Input -> Prop}
    (refl : forall state, Related state state)
    (trans : forall first second third, Related first second -> Related second third ->
      Related first third)
    (kept : forall state input, guard state input -> Related state (step state input))
    {start : State} {inputs : List Input} (guarded : Along step guard start inputs) :
    Related start (run step start inputs) := by
  induction inputs generalizing start with
  | nil => exact refl start
  | cons input inputs inductionHypothesis =>
      exact trans start (step start input) _ (kept start input guarded.1)
        (inductionHypothesis guarded.2)

/-- The rule for invariants of a run. -/
theorem run_invariant (Invariant : State -> Prop) {guard : State -> Input -> Prop}
    (kept : forall state input, Invariant state -> guard state input -> Invariant (step state input))
    {start : State} (initially : Invariant start) {inputs : List Input}
    (guarded : Along step guard start inputs) : Invariant (run step start inputs) := by
  induction inputs generalizing start with
  | nil => exact initially
  | cons input inputs inductionHypothesis =>
      exact inductionHypothesis (kept start input initially guarded.1) guarded.2

/-- The rule for invariants that every step keeps. -/
theorem invariant_of_step (Invariant : State -> Prop)
    (kept : forall state input, Invariant state -> Invariant (step state input))
    {start : State} (initially : Invariant start) (inputs : List Input) :
    Invariant (run step start inputs) := by
  induction inputs generalizing start with
  | nil => exact initially
  | cons input inputs inductionHypothesis =>
      exact inductionHypothesis (kept start input initially)

/-- An invariant of the step guards every run that starts in it. -/
theorem Along.of_invariant (Invariant : State -> Prop)
    (kept : forall state input, Invariant state -> Invariant (step state input))
    {start : State} (initially : Invariant start) (inputs : List Input) :
    Along step (fun state _ => Invariant state) start inputs := by
  induction inputs generalizing start with
  | nil => exact trivial
  | cons input inputs inductionHypothesis =>
      exact ⟨initially, inductionHypothesis (kept start input initially)⟩

end Foundation
end CoreBank
