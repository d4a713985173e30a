import Mathlib.Data.List.Basic

namespace CoreBank
namespace Foundation

/-!
# Programs on a state

`Establishes` is the triple of a program that reads and writes a state and ends
with a value.  A loop goes round with a value of its own until a round ends it;
it is given a number of rounds, and a measure that every round lowers makes
sure that they are enough.
-/

variable {State A B Carried : Type}

/-- From every state of the first kind the program comes to a value and a state
of the second. -/
def Establishes (before : State -> Prop) (program : StateM State A) (after : A -> State -> Prop) : Prop :=
  forall state, before state -> after (program state).1 (program state).2

section Rules

variable {before middle : State -> Prop} {after other : A -> State -> Prop} {program : StateM State A}

theorem Establishes.weaken (establishes : Establishes before program after)
    (stronger : forall state, middle state -> before state)
    (weaker : forall value state, after value state -> other value state) :
    Establishes middle program other :=
  fun state holds => weaker _ _ (establishes state (stronger state holds))

theorem Establishes.and (first : Establishes before program after)
    (second : Establishes middle program other) :
    Establishes (fun state => before state ∧ middle state) program fun value state =>
      after value state ∧ other value state :=
  fun state holds => ⟨first state holds.1, second state holds.2⟩

theorem Establishes.bind {next : A -> StateM State B} {last : B -> State -> Prop}
    (first : Establishes before program after)
    (second : forall value, Establishes (after value) (next value) last) :
    Establishes before (program >>= next) last :=
  fun state holds => second _ _ (first state holds)

/-- A program whose value is known. -/
theorem Establishes.bind_value {value : A} {next : A -> StateM State B} {last : B -> State -> Prop}
    (first : Establishes before program fun result state => result = value ∧ middle state)
    (second : Establishes middle (next value) last) : Establishes before (program >>= next) last := by
  refine first.bind ?_
  rintro result state ⟨rfl, holds⟩
  exact second state holds

theorem establishes_pure {value : A} (holds : forall state, before state -> after value state) :
    Establishes before (pure value) after :=
  holds

theorem Establishes.ite {condition : Prop} [Decidable condition] {first second : StateM State A}
    (holds : condition -> Establishes before first after)
    (fails : ¬ condition -> Establishes before second after) :
    Establishes before (if condition then first else second) after := by
  by_cases decision : condition
  · rw [if_pos decision]
    exact holds decision
  · rw [if_neg decision]
    exact fails decision

end Rules

/-! ## Loops -/

/-- At most so many rounds; a round goes on with a value, or ends the loop. -/
def loop {M : Type -> Type} [Monad M] (exhausted : M A) (round : Carried -> M (Carried ⊕ A)) :
    ℕ -> Carried -> M A
  | 0, _ => exhausted
  | rounds + 1, carried => do
      match <- round carried with
      | .inl next => loop exhausted round rounds next
      | .inr value => pure value

variable {exhausted : StateM State A} {round : Carried -> StateM State (Carried ⊕ A)}

theorem loop_of_goesOn {state next : State} {carried further : Carried}
    (goesOn : round carried state = (.inl further, next)) (rounds : ℕ) :
    loop exhausted round (rounds + 1) carried state = loop exhausted round rounds further next := by
  have unfolded : loop exhausted round (rounds + 1) carried state =
      (match (round carried state).1 with
        | .inl next => loop exhausted round rounds next
        | .inr value => pure value) (round carried state).2 := rfl
  rw [unfolded, goesOn]

theorem loop_of_ends {state last : State} {carried : Carried} {value : A}
    (ends : round carried state = (.inr value, last)) (rounds : ℕ) :
    loop exhausted round (rounds + 1) carried state = (value, last) := by
  have unfolded : loop exhausted round (rounds + 1) carried state =
      (match (round carried state).1 with
        | .inl next => loop exhausted round rounds next
        | .inr value => pure value) (round carried state).2 := rfl
  rw [unfolded, ends]
  rfl

/-- What every round keeps holds at the end, however many rounds there are. -/
theorem Establishes.loop (kept : Carried -> State -> Prop) {after : A -> State -> Prop}
    (exhausts : forall carried, Establishes (kept carried) exhausted after)
    (keeps : forall carried, Establishes (kept carried) (round carried) (Sum.elim kept after))
    (rounds : ℕ) (carried : Carried) :
    Establishes (kept carried) (Foundation.loop exhausted round rounds carried) after := by
  intro state holds
  induction rounds generalizing carried state with
  | zero => exact exhausts carried state holds
  | succ rounds inductionHypothesis =>
      have outcome := keeps carried state holds
      rcases result : round carried state with ⟨further | value, next⟩
      · rw [result] at outcome
        rw [loop_of_goesOn result]
        exact inductionHypothesis further next outcome
      · rw [result] at outcome
        rw [loop_of_ends result]
        exact outcome

/-- What every round keeps while it lowers the measure holds at the end, and
the rounds are enough. -/
theorem establishes_loop (exhausted : StateM State A) (round : Carried -> StateM State (Carried ⊕ A))
    (measure : State -> ℕ) (kept : Carried -> State -> Prop) (after : A -> State -> Prop)
    (keeps : forall carried state, kept carried state ->
      (forall further, (round carried state).1 = .inl further ->
        kept further (round carried state).2 ∧ measure (round carried state).2 < measure state) ∧
      forall value, (round carried state).1 = .inr value -> after value (round carried state).2)
    (carried : Carried) (rounds : ℕ) :
    Establishes (fun state => kept carried state ∧ measure state < rounds)
      (loop exhausted round rounds carried) after := by
  intro state holds
  induction rounds generalizing carried state with
  | zero => exact absurd holds.2 (Nat.not_lt_zero _)
  | succ rounds inductionHypothesis =>
      rcases keeps carried state holds.1 with ⟨goesOn, ends⟩
      rcases outcome : round carried state with ⟨further | value, next⟩
      · rw [outcome] at goesOn
        rcases goesOn further rfl with ⟨stillKept, lower⟩
        have enough : measure next < rounds :=
          Nat.lt_of_lt_of_le lower (Nat.le_of_lt_succ holds.2)
        rw [loop_of_goesOn outcome]
        exact inductionHypothesis further next ⟨stillKept, enough⟩
      · rw [outcome] at ends
        rw [loop_of_ends outcome]
        exact ends value rfl

/-! ## Programs that may raise -/

section Raising

variable {Error : Type} {raised : Error -> Prop} {after : A -> State -> Prop} {state : State}

/-- From the state the program comes to a value and a state of this kind, or
raises a problem of that kind. -/
def Attempts (raised : Error -> Prop) (program : StateT State (Except Error) A)
    (after : A -> State -> Prop) (state : State) : Prop :=
  match program state with
  | .ok (value, last) => after value last
  | .error problem => raised problem

theorem Attempts.weaken {program : StateT State (Except Error) A} {stronger : Error -> Prop}
    {middle : A -> State -> Prop} (attempts : Attempts stronger program middle state)
    (raises : forall problem, stronger problem -> raised problem)
    (weaker : forall value last, middle value last -> after value last) :
    Attempts raised program after state := by
  unfold Attempts at attempts ⊢
  rcases outcome : program state with problem | ⟨value, last⟩
  all_goals rw [outcome] at attempts
  · exact raises problem attempts
  · exact weaker value last attempts

theorem Attempts.and {program : StateT State (Except Error) A} {other : Error -> Prop}
    {between : A -> State -> Prop} (first : Attempts raised program after state)
    (second : Attempts other program between state) :
    Attempts (fun problem => raised problem ∧ other problem) program
      (fun value last => after value last ∧ between value last) state := by
  unfold Attempts at first second ⊢
  rcases outcome : program state with problem | ⟨value, last⟩
  all_goals rw [outcome] at first second
  · exact ⟨first, second⟩
  · exact ⟨first, second⟩

theorem Attempts.bind {program : StateT State (Except Error) A} {middle : A -> State -> Prop}
    {next : A -> StateT State (Except Error) B} {last : B -> State -> Prop}
    (first : Attempts raised program middle state)
    (second : forall value state, middle value state -> Attempts raised (next value) last state) :
    Attempts raised (program >>= next) last state := by
  have unfolded : (program >>= next) state =
      (program state).bind fun outcome => next outcome.1 outcome.2 := rfl
  unfold Attempts at first ⊢
  rw [unfolded]
  rcases outcome : program state with problem | ⟨value, between⟩
  all_goals rw [outcome] at first
  · exact first
  · exact second value between first

/-- A loop comes to what its last round comes to, if every other round keeps
what the rounds need and lowers the measure. -/
theorem attempts_loop {problem : Error} (attempt : Carried -> StateT State (Except Error) (Carried ⊕ A))
    (measure : State -> ℕ) (kept : Carried -> State -> Prop)
    (keeps : forall carried state, kept carried state -> Attempts raised (attempt carried)
      (fun outcome next => match outcome with
        | .inl further => kept further next ∧ measure next < measure state
        | .inr value => after value next) state)
    {carried : Carried} {rounds : ℕ} (start : kept carried state) (enough : measure state < rounds) :
    Attempts raised (loop (throw problem) attempt rounds carried) after state := by
  induction rounds generalizing carried state with
  | zero => exact absurd enough (Nat.not_lt_zero _)
  | succ rounds inductionHypothesis =>
      refine (keeps carried state start).bind ?_
      intro outcome next
      cases outcome with
      | inl further =>
          rintro ⟨stillKept, lower⟩
          exact inductionHypothesis stillKept (Nat.lt_of_lt_of_le lower (Nat.le_of_lt_succ enough))
      | inr value => exact fun ends => ends

end Raising

end Foundation
end CoreBank
