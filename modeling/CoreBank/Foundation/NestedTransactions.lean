import Mathlib.Data.List.Basic

namespace CoreBank
namespace Foundation

/-!
# Nested transactions

A nest holds the current value and, for each transaction and subtransaction
that is open, the value it will put back when it is rolled back.  A procedure
runs inside a nest and may raise; the nest it raises in is not lost, because
the caller decides how much of it to undo.

`Ensures` is a triple with one postcondition for a normal end and one for a
raised error.  `Guarded` says that a predicate holds of the current value and
of every saved one, so that no rollback can bring back a value without it.
`Sheltered` allows the current value anything, as long as the innermost level
will undo it.
-/

/-- The current value, and the saved values with their labels, innermost
first. -/
structure Nest (Label V : Type*) where
  current : V
  saved : List (Label × V)

namespace Nest

variable {Label V : Type*}

/-- Open a level. -/
def enter (nest : Nest Label V) (label : Label) : Nest Label V where
  current := nest.current
  saved := (label, nest.current) :: nest.saved

/-- Close the innermost level and keep what it has done. -/
def merge (nest : Nest Label V) : Nest Label V where
  current := nest.current
  saved := nest.saved.tail

/-- Go back to the start of the innermost level, which stays open. -/
def reset (nest : Nest Label V) : Nest Label V where
  current := (nest.saved.head?.map Prod.snd).getD nest.current
  saved := nest.saved

/-- Close the innermost level and undo what it has done. -/
def undo (nest : Nest Label V) : Nest Label V :=
  nest.reset.merge

/-- The levels from the innermost one with the given label outwards. -/
def levelsFrom [DecidableEq Label] (nest : Nest Label V) (label : Label) : List (Label × V) :=
  nest.saved.dropWhile fun level => decide (level.1 ≠ label)

/-- Go back to the start of a labelled level, which stays open. -/
def rollbackTo [DecidableEq Label] (nest : Nest Label V) (label : Label) : Option (Nest Label V) :=
  match nest.levelsFrom label with
  | [] => none
  | level :: outer => some ⟨level.2, level :: outer⟩

/-- Close a labelled level with all levels inside it and keep what they have
done. -/
def release [DecidableEq Label] (nest : Nest Label V) (label : Label) : Option (Nest Label V) :=
  match nest.levelsFrom label with
  | [] => none
  | _ :: outer => some ⟨nest.current, outer⟩

/-- The value that the outermost level has saved. -/
def outermost (nest : Nest Label V) : V :=
  (nest.saved.getLast?.map Prod.snd).getD nest.current

/-- Close all levels; `settle` combines the value from before the outermost
level with the current one. -/
def commit (settle : V -> V -> V) (nest : Nest Label V) : Nest Label V where
  current := settle nest.outermost nest.current
  saved := []

/-- Close all levels and undo what they have done. -/
def rollback (nest : Nest Label V) : Nest Label V where
  current := nest.outermost
  saved := []

/-! ## Predicates that no rollback can lose -/

/-- The predicate holds of the current and of every saved value. -/
structure Guarded (Permitted : V -> Prop) (nest : Nest Label V) : Prop where
  current : Permitted nest.current
  saved : forall level, level ∈ nest.saved -> Permitted level.2

/-- The predicate holds of every saved value, of which there is one. -/
structure Sheltered (Permitted : V -> Prop) (nest : Nest Label V) : Prop where
  inside : nest.saved ≠ []
  saved : forall level, level ∈ nest.saved -> Permitted level.2

variable {Permitted : V -> Prop} {nest : Nest Label V}

theorem Guarded.enter (guarded : nest.Guarded Permitted) (label : Label) :
    (nest.enter label).Guarded Permitted where
  current := guarded.current
  saved := by
    intro level member
    rcases List.mem_cons.mp member with same | member
    · rw [same]
      exact guarded.current
    · exact guarded.saved level member

theorem Guarded.sheltered_enter (guarded : nest.Guarded Permitted) (label : Label) :
    (nest.enter label).Sheltered Permitted where
  inside := List.cons_ne_nil _ _
  saved := (guarded.enter label).saved

theorem Guarded.merge (guarded : nest.Guarded Permitted) : nest.merge.Guarded Permitted where
  current := guarded.current
  saved := fun level member => guarded.saved level (List.mem_of_mem_tail member)

theorem Guarded.reset (guarded : nest.Guarded Permitted) : nest.reset.Guarded Permitted where
  current := by
    rcases levels : nest.saved with _ | ⟨level, outer⟩
    · rw [Nest.reset, levels]
      exact guarded.current
    · rw [Nest.reset, levels]
      apply guarded.saved level
      rw [levels]
      exact List.mem_cons_self
  saved := guarded.saved

theorem Sheltered.undo (sheltered : nest.Sheltered Permitted) : nest.undo.Guarded Permitted where
  current := by
    rcases levels : nest.saved with _ | ⟨level, outer⟩
    · exact False.elim (sheltered.inside levels)
    · simp only [Nest.undo, Nest.reset, Nest.merge, levels]
      apply sheltered.saved level
      rw [levels]
      exact List.mem_cons_self
  saved := fun level member => sheltered.saved level (List.mem_of_mem_tail member)

theorem Sheltered.guarded (sheltered : nest.Sheltered Permitted) (current : Permitted nest.current) :
    nest.Guarded Permitted where
  current := current
  saved := sheltered.saved

theorem Guarded.outermost (guarded : nest.Guarded Permitted) : Permitted nest.outermost := by
  unfold Nest.outermost
  cases last : nest.saved.getLast? with
  | none => exact guarded.current
  | some level => exact guarded.saved level (List.mem_of_getLast? last)

theorem Guarded.commit (guarded : nest.Guarded Permitted) {settle : V -> V -> V}
    (settles : forall before current, Permitted before -> Permitted (settle before current)) :
    (nest.commit settle).Guarded Permitted where
  current := settles _ _ guarded.outermost
  saved := by
    intro level impossible
    cases impossible

theorem Guarded.rollback (guarded : nest.Guarded Permitted) : nest.rollback.Guarded Permitted where
  current := guarded.outermost
  saved := by
    intro level impossible
    cases impossible

section Labels

variable [DecidableEq Label]

theorem mem_levelsFrom {label : Label} {level : Label × V} (member : level ∈ nest.levelsFrom label) :
    level ∈ nest.saved :=
  (List.dropWhile_sublist _).subset member

theorem Guarded.rollbackTo (guarded : nest.Guarded Permitted) {label : Label} {result : Nest Label V}
    (success : nest.rollbackTo label = some result) : result.Guarded Permitted := by
  unfold Nest.rollbackTo at success
  cases levels : nest.levelsFrom label with
  | nil =>
      rw [levels] at success
      cases success
  | cons level outer =>
      rw [levels] at success
      cases success
      have kept : forall other, other ∈ level :: outer -> Permitted other.2 := by
        intro other member
        rw [← levels] at member
        exact guarded.saved other (mem_levelsFrom member)
      exact ⟨kept level List.mem_cons_self, kept⟩

theorem Guarded.release (guarded : nest.Guarded Permitted) {label : Label} {result : Nest Label V}
    (success : nest.release label = some result) : result.Guarded Permitted := by
  unfold Nest.release at success
  cases levels : nest.levelsFrom label with
  | nil =>
      rw [levels] at success
      cases success
  | cons level outer =>
      rw [levels] at success
      cases success
      refine ⟨guarded.current, fun other member => guarded.saved other ?_⟩
      apply mem_levelsFrom
      rw [levels]
      exact List.mem_cons_of_mem _ member

end Labels

end Nest

/-! ## Procedures -/

/-- A computation inside a nest that ends normally or with an error, and in
both cases in some nest. -/
abbrev Procedure (Label V Error A : Type) : Type :=
  EStateM Error (Nest Label V) A

namespace Procedure

variable {Label V Error A B : Type}

/-- Started under `before`, the procedure ends normally under `success` or
raises under `failure`. -/
def Ensures (before : Nest Label V -> Prop) (procedure : Procedure Label V Error A)
    (success failure : Nest Label V -> Prop) : Prop :=
  forall nest, before nest ->
    match procedure nest with
    | .ok _ after => success after
    | .error _ after => failure after

theorem Ensures.weaken {before success success' failure failure' : Nest Label V -> Prop}
    {procedure : Procedure Label V Error A} (ensures : Ensures before procedure success failure)
    (normal : forall nest, success nest -> success' nest)
    (raised : forall nest, failure nest -> failure' nest) :
    Ensures before procedure success' failure' := by
  intro nest holds
  have outcome := ensures nest holds
  cases ended : procedure nest with
  | ok value after =>
      rw [ended] at outcome
      exact normal after outcome
  | error problem after =>
      rw [ended] at outcome
      exact raised after outcome

theorem Ensures.bind {before middle success failure : Nest Label V -> Prop}
    {first : Procedure Label V Error A} {rest : A -> Procedure Label V Error B}
    (ensures : Ensures before first middle failure)
    (continues : forall value, Ensures middle (rest value) success failure) :
    Ensures before (first >>= rest) success failure := by
  intro nest holds
  have outcome := ensures nest holds
  change match EStateM.bind first rest nest with
    | .ok _ after => success after
    | .error _ after => failure after
  rw [EStateM.bind]
  cases ended : first nest with
  | ok value after =>
      rw [ended] at outcome
      exact continues value after outcome
  | error problem after =>
      rw [ended] at outcome
      exact outcome

/-- Raise a given error, if there is one. -/
def interrupt : Option Error -> Procedure Label V Error Unit
  | none => pure ()
  | some problem => throw problem

theorem ensures_interrupt (holds : Nest Label V -> Prop) (fault : Option Error) :
    Ensures holds (interrupt fault) holds holds := by
  intro nest before
  cases fault with
  | none => exact before
  | some problem => exact before

theorem ensures_throw (holds success : Nest Label V -> Prop) (problem : Error) :
    Ensures holds (throw problem : Procedure Label V Error A) success holds :=
  fun _ before => before

/-- A statement, whose error leaves the nest as it was. -/
def statement (execute : V -> Except Error (A × V)) : Procedure Label V Error A := fun nest =>
  match execute nest.current with
  | .ok (value, current) => .ok value { nest with current }
  | .error problem => .error problem nest

theorem ensures_statement {Permitted : V -> Prop} {execute : V -> Except Error (A × V)}
    (keeps : forall before value after, execute before = .ok (value, after) -> Permitted before ->
      Permitted after) :
    Ensures (Nest.Guarded Permitted) (statement execute : Procedure Label V Error A)
      (Nest.Guarded Permitted) (Nest.Guarded Permitted) := by
  intro nest guarded
  unfold statement
  cases ended : execute nest.current with
  | ok result => exact ⟨keeps _ _ _ ended guarded.current, guarded.saved⟩
  | error problem => exact guarded

/-- Inside a level a statement may do anything to the current value. -/
theorem ensures_statement_sheltered (Permitted : V -> Prop) (execute : V -> Except Error (A × V)) :
    Ensures (Nest.Sheltered Permitted) (statement execute : Procedure Label V Error A)
      (Nest.Sheltered Permitted) (Nest.Sheltered Permitted) := by
  intro nest sheltered
  unfold statement
  cases execute nest.current with
  | ok result => exact ⟨sheltered.inside, sheltered.saved⟩
  | error problem => exact sheltered

/-- A statement after which the current value is permitted ends the need for
shelter. -/
theorem ensures_statement_restores {Permitted : V -> Prop} {execute : V -> Except Error (A × V)}
    (restores : forall before value after, execute before = .ok (value, after) -> Permitted after) :
    Ensures (Nest.Sheltered Permitted) (statement execute : Procedure Label V Error A)
      (fun nest => nest.Guarded Permitted ∧ nest.Sheltered Permitted) (Nest.Sheltered Permitted) := by
  intro nest sheltered
  unfold statement
  cases ended : execute nest.current with
  | ok result =>
      exact ⟨⟨restores _ _ _ ended, sheltered.saved⟩, sheltered.inside, sheltered.saved⟩
  | error problem => exact sheltered

/-- A block with a handler: the body runs in a level of its own, which is
undone before the handler runs. -/
def block (label : Label) (body : Procedure Label V Error Unit)
    (handler : Error -> Procedure Label V Error Unit) : Procedure Label V Error Unit := fun nest =>
  match body (nest.enter label) with
  | .ok _ after => .ok () after.merge
  | .error problem after => handler problem after.undo

/-- The rule of a block whose body needs shelter until its end. -/
theorem Ensures.block {Permitted : V -> Prop} {label : Label} {body : Procedure Label V Error Unit}
    {handler : Error -> Procedure Label V Error Unit}
    (inside : Ensures (Nest.Sheltered Permitted) body (Nest.Guarded Permitted)
      (Nest.Sheltered Permitted))
    (handles : forall problem, Ensures (Nest.Guarded Permitted) (handler problem)
      (Nest.Guarded Permitted) (Nest.Guarded Permitted)) :
    Ensures (Nest.Guarded Permitted) (block label body handler) (Nest.Guarded Permitted)
      (Nest.Guarded Permitted) := by
  intro nest guarded
  have outcome := inside _ (guarded.sheltered_enter label)
  unfold Procedure.block
  cases ended : body (nest.enter label) with
  | ok value after =>
      rw [ended] at outcome
      exact outcome.merge
  | error problem after =>
      rw [ended] at outcome
      exact handles problem _ outcome.undo

/-! ## Procedures without their nest -/

/-- An end of a procedure with the levels open that were open at its start, and
an end of a program on the current value alone. -/
def SameEnd (saved : List (Label × V)) :
    EStateM.Result Error (Nest Label V) A -> Except Error (A × V) -> Prop
  | .ok value after, .ok (same, current) => value = same ∧ after = ⟨current, saved⟩
  | .error problem after, .error same => problem = same ∧ after.saved = saved
  | _, _ => False

/-- The procedure does to the current value what the program does, and closes
every level it opens. -/
def Follows (procedure : Procedure Label V Error A) (program : V -> Except Error (A × V)) : Prop :=
  forall nest, SameEnd nest.saved (procedure nest) (program nest.current)

theorem follows_statement (execute : V -> Except Error (A × V)) :
    Follows (statement execute : Procedure Label V Error A) execute := by
  intro nest
  unfold statement
  cases execute nest.current with
  | ok result => exact ⟨rfl, rfl⟩
  | error problem => exact ⟨rfl, rfl⟩

theorem Follows.bind {first : Procedure Label V Error A} {program : V -> Except Error (A × V)}
    {rest : A -> Procedure Label V Error B} {continuation : A -> V -> Except Error (B × V)}
    (follows : Follows first program) (continues : forall value, Follows (rest value) (continuation value)) :
    Follows (first >>= rest)
      (fun current => (program current).bind fun result => continuation result.1 result.2) := by
  intro nest
  have outcome := follows nest
  change SameEnd nest.saved (EStateM.bind first rest nest)
    ((program nest.current).bind fun result => continuation result.1 result.2)
  rw [EStateM.bind]
  cases ended : first nest with
  | error problem after =>
      rw [ended] at outcome
      cases result : program nest.current with
      | error same =>
          rw [result] at outcome
          exact outcome
      | ok value =>
          rw [result] at outcome
          exact False.elim outcome
  | ok value after =>
      rw [ended] at outcome
      cases result : program nest.current with
      | error same =>
          rw [result] at outcome
          exact False.elim outcome
      | ok value =>
          rw [result] at outcome
          rcases outcome with ⟨rfl, rfl⟩
          exact continues value.1 ⟨value.2, nest.saved⟩

theorem Follows.discard {procedure : Procedure Label V Error Unit}
    {program : V -> Except Error (Unit × V)} (follows : Follows procedure program) :
    Follows (procedure >>= fun _ => interrupt none) program := by
  intro nest
  have outcome := follows nest
  change SameEnd nest.saved (EStateM.bind procedure (fun _ => pure ()) nest) _
  rw [EStateM.bind]
  cases ended : procedure nest with
  | error problem after =>
      rw [ended] at outcome
      exact outcome
  | ok value after =>
      rw [ended] at outcome
      exact outcome

/-- A program whose errors are handled with the value from before it. -/
def handled (program : V -> Except Error (Unit × V)) (handling : Error -> V -> Except Error (Unit × V))
    (current : V) : Except Error (Unit × V) :=
  match program current with
  | .ok result => .ok result
  | .error problem => handling problem current

theorem Follows.block (label : Label) {body : Procedure Label V Error Unit}
    {handler : Error -> Procedure Label V Error Unit} {program : V -> Except Error (Unit × V)}
    {handling : Error -> V -> Except Error (Unit × V)} (follows : Follows body program)
    (handles : forall problem, Follows (handler problem) (handling problem)) :
    Follows (block label body handler) (handled program handling) := by
  intro nest
  have outcome := follows (nest.enter label)
  unfold Procedure.block handled
  cases ended : body (nest.enter label) with
  | ok value after =>
      rw [ended] at outcome
      cases result : program (nest.enter label).current with
      | error same =>
          rw [result] at outcome
          exact False.elim outcome
      | ok value =>
          rw [result] at outcome
          rcases outcome with ⟨rfl, rfl⟩
          simp only [show nest.current = (nest.enter label).current from rfl, result]
          exact ⟨rfl, rfl⟩
  | error problem after =>
      rw [ended] at outcome
      cases result : program (nest.enter label).current with
      | ok value =>
          rw [result] at outcome
          exact False.elim outcome
      | error same =>
          rw [result] at outcome
          rcases outcome with ⟨rfl, kept⟩
          have undone : after.undo = nest := by
            simp only [Nest.undo, Nest.reset, Nest.merge, kept, Nest.enter, List.head?_cons,
              Option.map_some, Option.getD_some, List.tail_cons]
          simp only [show nest.current = (nest.enter label).current from rfl, result, undone]
          exact handles problem nest

end Procedure

end Foundation
end CoreBank
