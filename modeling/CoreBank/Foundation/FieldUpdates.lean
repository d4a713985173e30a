import Mathlib.Data.List.Basic

namespace CoreBank
namespace Foundation

/-!
# Fields assigned one after the other

A record is filled field by field.  Each assignment computes a value, which may
fail, and stores it; a failure ends the sequence and takes nothing back.  So a
sequence that fails has filled the fields in front of the failure, and leaves
every other field as it was.
-/

/-- The assignments to the fields of a record.  Two records may have the same
value in a field, and an assignment touches no field but its own. -/
structure FieldUpdates (Field State Error : Type*) where
  assign : Field -> Except Error (State -> State)
  Same : Field -> State -> State -> Prop
  refl : forall field state, Same field state state
  trans : forall {field first second third}, Same field first second -> Same field second third ->
    Same field first third
  frame : forall {field other update}, assign field = .ok update -> other ≠ field ->
    forall state, Same other state (update state)

namespace FieldUpdates

variable {Field State Error : Type*} (updates : FieldUpdates Field State Error)

/-- Assign some fields in order. -/
def assignAll : List Field -> State -> Except Error Unit × State
  | [], state => (.ok (), state)
  | field :: fields, state =>
      match updates.assign field with
      | .error problem => (.error problem, state)
      | .ok update => assignAll fields (update state)

/-- The field has what its assignment stores. -/
def Filled (field : Field) (state : State) : Prop :=
  Exists fun update => Exists fun before => updates.assign field = .ok update ∧
    updates.Same field (update before) state

variable {updates} {field : Field} {fields : List Field} {state final : State}

theorem Filled.of_same {other : State} (filled : updates.Filled field state)
    (same : updates.Same field state other) : updates.Filled field other := by
  rcases filled with ⟨update, before, assigns, stored⟩
  exact ⟨update, before, assigns, updates.trans stored same⟩

theorem assignAll_cons_ok {update : State -> State} (assigns : updates.assign field = .ok update) :
    updates.assignAll (field :: fields) state = updates.assignAll fields (update state) := by
  rw [assignAll, assigns]

theorem assignAll_cons_error {problem : Error} (fails : updates.assign field = .error problem) :
    updates.assignAll (field :: fields) state = (.error problem, state) := by
  rw [assignAll, fails]

/-- A sequence that succeeds has made its first assignment. -/
theorem exists_of_assignAll_cons (success : updates.assignAll (field :: fields) state = (.ok (), final)) :
    Exists fun update => updates.assign field = .ok update ∧
      updates.assignAll fields (update state) = (.ok (), final) := by
  cases assigns : updates.assign field with
  | error problem =>
      rw [assignAll_cons_error assigns] at success
      cases success
  | ok update =>
      rw [assignAll_cons_ok assigns] at success
      exact ⟨update, rfl, success⟩

theorem assignAll_append_ok {between : State} {later : List Field}
    (success : updates.assignAll fields state = (.ok (), between)) :
    updates.assignAll (fields ++ later) state = updates.assignAll later between := by
  induction fields generalizing state with
  | nil =>
      cases success
      rfl
  | cons first fields inductionHypothesis =>
      rcases exists_of_assignAll_cons success with ⟨update, assigns, rest⟩
      rw [List.cons_append, assignAll_cons_ok assigns]
      exact inductionHypothesis rest

theorem assignAll_append_error {problem : Error} {later : List Field}
    (failure : updates.assignAll fields state = (.error problem, final)) :
    updates.assignAll (fields ++ later) state = (.error problem, final) := by
  induction fields generalizing state with
  | nil => cases failure
  | cons first fields inductionHypothesis =>
      cases assigns : updates.assign first with
      | error other =>
          rw [assignAll_cons_error assigns] at failure
          rw [List.cons_append, assignAll_cons_error assigns]
          exact failure
      | ok update =>
          rw [assignAll_cons_ok assigns] at failure
          rw [List.cons_append, assignAll_cons_ok assigns]
          exact inductionHypothesis failure

/-- Whatever its outcome, a sequence leaves the other fields. -/
theorem same_assignAll (absent : field ∉ fields) (state : State) :
    updates.Same field state (updates.assignAll fields state).2 := by
  induction fields generalizing state with
  | nil => exact updates.refl field state
  | cons first fields inductionHypothesis =>
      rw [List.mem_cons, not_or] at absent
      rcases absent with ⟨different, later⟩
      cases assigns : updates.assign first with
      | error problem =>
          rw [assignAll_cons_error assigns]
          exact updates.refl field state
      | ok update =>
          rw [assignAll_cons_ok assigns]
          exact updates.trans (updates.frame assigns different state)
            (inductionHypothesis later (update state))

/-- A sequence that succeeds fills all its fields. -/
theorem filled_assignAll (success : updates.assignAll fields state = (.ok (), final))
    (member : field ∈ fields) : updates.Filled field final := by
  induction fields generalizing state with
  | nil => cases member
  | cons first fields inductionHypothesis =>
      rcases exists_of_assignAll_cons success with ⟨update, assigns, rest⟩
      by_cases later : field ∈ fields
      · exact inductionHypothesis rest later
      · rcases List.mem_cons.mp member with rfl | inside
        · have kept : updates.Same _ (update state) (updates.assignAll fields (update state)).2 :=
            same_assignAll later (update state)
          rw [rest] at kept
          exact ⟨update, state, assigns, kept⟩
        · exact absurd inside later

/-- A sequence that fails has succeeded up to the assignment that fails. -/
theorem exists_of_assignAll_error {problem : Error}
    (failure : updates.assignAll fields state = (.error problem, final)) :
    Exists fun earlier => Exists fun field => Exists fun later =>
      fields = earlier ++ field :: later ∧ updates.assign field = .error problem ∧
      updates.assignAll earlier state = (.ok (), final) := by
  induction fields generalizing state with
  | nil => cases failure
  | cons first fields inductionHypothesis =>
      cases assigns : updates.assign first with
      | error other =>
          rw [assignAll_cons_error assigns] at failure
          cases failure
          exact ⟨[], first, fields, rfl, assigns, rfl⟩
      | ok update =>
          rw [assignAll_cons_ok assigns] at failure
          rcases inductionHypothesis failure with ⟨earlier, field, later, rfl, fails, success⟩
          refine ⟨first :: earlier, field, later, rfl, fails, ?_⟩
          rw [assignAll_cons_ok assigns]
          exact success

end FieldUpdates

end Foundation
end CoreBank
