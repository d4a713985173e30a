import Mathlib.Logic.Basic

namespace CoreBank
namespace Foundation

/-!
# Computations that may raise

A sequence of two computations in `Except` succeeds exactly when the first
succeeds and the second succeeds on its value.  The lemmas take such sequences
apart one step at a time, so that no proof unfolds the monad.
-/

variable {Error A B : Type}

theorem bind_eq_ok_iff {first : Except Error A} {next : A -> Except Error B} {result : B} :
    (first >>= next) = .ok result ↔
      Exists fun value => first = .ok value ∧ next value = .ok result := by
  cases first with
  | error problem =>
      constructor
      · intro impossible
        cases impossible
      · rintro ⟨value, impossible, _⟩
        cases impossible
  | ok value =>
      constructor
      · intro success
        exact ⟨value, rfl, success⟩
      · rintro ⟨other, same, success⟩
        cases same
        exact success

/-- A guard that raises lets the rest run exactly when it is false. -/
theorem raise_if_eq_ok_iff {condition : Prop} [Decidable condition] {problem : Error} {value : A} :
    (if condition then Except.error problem else Except.ok value) = .ok value ↔ ¬ condition := by
  by_cases failing : condition <;> simp [failing]

theorem map_eq_ok_iff {computation : Except Error A} {change : A -> B} {result : B} :
    computation.map change = .ok result ↔
      Exists fun value => computation = .ok value ∧ change value = result := by
  cases computation with
  | error problem =>
      constructor
      · intro impossible
        cases impossible
      · rintro ⟨value, impossible, _⟩
        cases impossible
  | ok value =>
      constructor
      · intro success
        cases success
        exact ⟨value, rfl, rfl⟩
      · rintro ⟨other, same, rfl⟩
        cases same
        rfl

/-- What is raised may change its type on the way; a value does not. -/
theorem mapError_eq_ok_iff {Other : Type} {computation : Except Error A} {change : Error -> Other}
    {value : A} : computation.mapError change = .ok value ↔ computation = .ok value := by
  cases computation with
  | error problem =>
      constructor
      · intro impossible
        cases impossible
      · intro impossible
        cases impossible
  | ok result =>
      constructor
      · intro success
        cases success
        rfl
      · intro same
        cases same
        rfl

/-- Whatever the computation raises is allowed. -/
def RaisesOnly (allowed : Error -> Prop) (computation : Except Error A) : Prop :=
  forall problem, computation = .error problem -> allowed problem

namespace RaisesOnly

variable {allowed : Error -> Prop}

theorem ok (value : A) : RaisesOnly allowed (.ok value) := by
  intro problem impossible
  cases impossible

theorem error {problem : Error} (isAllowed : allowed problem) :
    RaisesOnly allowed (.error problem : Except Error A) := by
  intro other same
  cases same
  exact isAllowed

theorem bind {first : Except Error A} {next : A -> Except Error B}
    (raises : RaisesOnly allowed first)
    (continues : forall value, first = .ok value -> RaisesOnly allowed (next value)) :
    RaisesOnly allowed (first >>= next) := by
  intro problem raised
  cases outcome : first with
  | error other =>
      rw [outcome] at raised
      cases raised
      exact raises _ outcome
  | ok value =>
      rw [outcome] at raised
      exact continues value outcome problem raised

theorem map {computation : Except Error A} (raises : RaisesOnly allowed computation) (change : A -> B) :
    RaisesOnly allowed (computation.map change) := by
  cases computation with
  | error problem => exact error (raises problem rfl)
  | ok value => exact ok (change value)

end RaisesOnly

end Foundation
end CoreBank
