import CoreBank.Foundation.ScopedObjects
import Mathlib.Algebra.BigOperators.Group.List.Basic
import Mathlib.Algebra.GroupWithZero.Nat

namespace CoreBank
namespace Foundation
namespace ScopedObjects

/-!
# How scoped bodies end

Inside a function every transition of a thread is a step towards its end, and
the thread with the mutex is never made to wait.  So it gives the mutex back
after a bounded number of its own moves, whatever the other threads do.

Where it ends, at the end of the body, by a `return` or with an exception, can be
read off the text once it is known which constructors and calls throw.  A thread
that has the functions for itself ends there.
-/

section Machine

variable {Object Call Name Thread : Type*}

/-! ## Giving back -/

/-- How many transitions a body can take at most. -/
def Code.weight : Code Object Call -> ℕ
  | .done => 0
  | .declare _ rest => rest.weight + 2
  | .perform _ rest => rest.weight + 1
  | .returnIf _ rest => rest.weight + 1
  | .attempt body handler rest => body.weight + handler.weight + rest.weight + 3
  | .raise => 1

def Block.weight (block : Block Object Call) : ℕ :=
  block.objects.length + block.code.weight +
    (match block.handler with
      | none => 0
      | some handler => handler.weight + 1) + 1

/-- How many transitions are left until a thread is outside. -/
def weight (blocks : List (Block Object Call)) : ℕ :=
  (blocks.map Block.weight).sum

theorem weight_cons (block : Block Object Call) (outer : List (Block Object Call)) :
    weight (block :: outer) = block.weight + weight outer := by
  rw [weight, List.map_cons, List.sum_cons, weight]

theorem Code.weight_pos {code : Code Object Call} (may : code.MayThrow) : 0 < code.weight := by
  cases code with
  | declare object rest => exact Nat.succ_pos _
  | perform call rest => exact Nat.succ_pos _
  | raise => exact Nat.one_pos
  | returnIf test rest => exact absurd may id
  | attempt inner caught rest => exact absurd may id
  | done => exact absurd may id

/-- Inside a function every transition is a step towards its end. -/
theorem Transition.lighter {body : Name -> Code Object Call} {control next : Control Object Call}
    {effect : Effect Object} (transition : Transition body control effect next)
    (inside : control.blocks ≠ []) : weight next.blocks < weight control.blocks := by
  cases transition with
  | calls mode function => exact absurd rfl inside
  | throws code may objects handler outer =>
      have positive := Code.weight_pos may
      simp only [weight_cons, Block.weight, Code.weight]
      omega
  | leaves mode code handler outer ends uncaught =>
      simp only [weight_cons, Block.weight]
      omega
  | _ =>
      simp only [weight_cons, Block.weight, Code.weight, List.length_cons, List.length_nil]
      omega

namespace System

variable [DecidableEq Thread] {role : Object -> Role} {body : Name -> Code Object Call}
  {system : System Thread Object Call}

omit [DecidableEq Thread] in
theorem affect_control (system : System Thread Object Call) (thread : Thread)
    (effect : Effect Object) : (system.affect role thread effect).control = system.control := by
  cases effect with
  | silent => rfl
  | constructs object =>
      unfold affect
      dsimp only
      cases role object with
      | _ => rfl
  | destroys object =>
      unfold affect
      dsimp only
      cases role object with
      | _ => rfl

/-- A move changes nothing about where the other threads stand. -/
theorem Acts.other {thread other : Thread} {next : System Thread Object Call}
    (acts : system.Acts role body thread next) (different : other ≠ thread) :
    next.control other = system.control other := by
  cases acts with
  | stands => rfl
  | moves effect control transition admits =>
      rw [place_other _ _ different, affect_control]

/-- The thread that holds the mutex never stands. -/
theorem Invariant.lighter (invariant : system.Invariant role) {thread : Thread}
    (owned : system.owner = some thread) {next : System Thread Object Call}
    (acts : system.Acts role body thread next) :
    weight (next.control thread).blocks < weight (system.control thread).blocks := by
  have inside : (system.control thread).blocks ≠ [] := fun outside =>
    not_has_of_outside outside (invariant.owner_iff.mp owned)
  cases acts with
  | stands stands =>
      rcases stands with outside | ⟨object, rest, objects, handler, outer, place, use, taken⟩
      · exact absurd outside inside
      · have sound := invariant.sound thread
        rw [place] at sound
        rcases sound with ⟨_, _, stage, known, next, enters, _⟩
        rw [use] at enters
        rcases Stage.enter_guard.mp enters with ⟨rfl, _⟩
        have isAt : system.IsAt role thread .bare := by
          rw [IsAt, place]
          exact known
        exact absurd rfl ((invariant.owner thread _ isAt).mp owned)
  | moves effect control transition admits =>
      rw [place_self]
      exact transition.lighter inside

/-- The thread that holds the mutex has released it by the time that it has
moved often enough, whatever the others do in between. -/
theorem Invariant.releases (disciplined : forall function, (body function).Disciplined role .bare)
    {owner : Thread} {events : List (Thread × Move Name)} (invariant : system.Invariant role)
    (owned : system.owner = some owner)
    (enough : weight (system.control owner).blocks ≤
      events.countP fun event => decide (event.1 = owner)) :
    Exists fun executed => executed <+: events ∧
      (run (step role body) system executed).owner ≠ some owner := by
  induction events generalizing system with
  | nil =>
      have outside : (system.control owner).blocks = [] := by
        cases blocks : (system.control owner).blocks with
        | nil => rfl
        | cons block outer =>
            rw [blocks, weight_cons, Block.weight] at enough
            exact absurd enough (by simp)
      exact absurd (invariant.owner_iff.mp owned) (not_has_of_outside outside)
  | cons event events inductionHypothesis =>
      have acts : system.Acts role body event.1 _ := acts_step system event
      by_cases still : (system.step role body event).owner = some owner
      · have remaining : weight ((system.step role body event).control owner).blocks ≤
            events.countP fun event => decide (event.1 = owner) := by
          rw [List.countP_cons] at enough
          by_cases mine : event.1 = owner
          · have lighter := invariant.lighter owned (mine ▸ acts)
            rw [if_pos (decide_eq_true mine)] at enough
            omega
          · rw [acts.other (Ne.symm mine)]
            rw [if_neg (by simpa using mine)] at enough
            exact enough
        rcases inductionHypothesis (invariant.acts disciplined acts) still remaining with
          ⟨executed, leads, released⟩
        exact ⟨event :: executed, List.cons_prefix_cons.mpr ⟨rfl, leads⟩, released⟩
      · exact ⟨[event], List.cons_prefix_cons.mpr ⟨rfl, List.nil_prefix⟩, still⟩

end System

/-! ## How a body ends -/

/-- Which constructors and calls throw, and which tests make a body return. -/
structure Fates (Object Call : Type*) where
  fails : Object -> Bool
  throws : Call -> Bool
  returns : Call -> Bool

/-- How a body ends, read off its text: at its end, with an exception, or by a
`return`. -/
def Code.ending (fates : Fates Object Call) : Code Object Call -> Mode
  | .done => .running
  | .declare object rest => if fates.fails object then .throwing else rest.ending fates
  | .perform call rest => if fates.throws call then .throwing else rest.ending fates
  | .returnIf test rest => if fates.returns test then .returning else rest.ending fates
  | .attempt body handler rest =>
      match body.ending fates with
      | .running => rest.ending fates
      | .throwing =>
          match handler.ending fates with
          | .running => rest.ending fates
          | mode => mode
      | .returning => .returning
  | .raise => .throwing

/-- The move that the fates choose for the next statement. -/
def Fates.choose (fates : Fates Object Call) (control : Control Object Call) : Move Name :=
  match control.blocks.head?.map Block.code with
  | some (.declare object _) => if fates.fails object then .throws else .proceeds
  | some (.perform call _) => if fates.throws call then .throws else .proceeds
  | some (.returnIf test _) => if fates.returns test then .returns else .proceeds
  | _ => .proceeds

namespace System

variable [DecidableEq Thread] (role : Object -> Role) (body : Name -> Code Object Call)
  (fates : Fates Object Call)

/-- One move of a thread, as the fates choose it. -/
def proceed (system : System Thread Object Call) (thread : Thread) : System Thread Object Call :=
  system.step role body (thread, fates.choose (system.control thread))

/-- All other threads are outside. -/
structure Alone (system : System Thread Object Call) (thread : Thread) : Prop where
  invariant : system.Invariant role
  others : forall other, other ≠ thread -> (system.control other).blocks = []

/-- The thread gets to some place by moves of its own. -/
def Arrives (system : System Thread Object Call) (thread : Thread) (control : Control Object Call) :
    Prop :=
  Exists fun final =>
    Relation.ReflTransGen (fun before after => after = before.proceed role body fates thread)
      system final ∧
    final.Alone role thread ∧ final.control thread = control

/-- The thread gets to the end of its block in some mode, with some objects to
destroy. -/
def EndsBlock (system : System Thread Object Call) (thread : Thread) (mode : Mode)
    (handler : Option (Code Object Call)) (outer : List (Block Object Call)) : Prop :=
  Exists fun objects => Exists fun code =>
    system.Arrives role body fates thread ⟨mode, ⟨objects, code, handler⟩ :: outer⟩ ∧
    (mode = .running -> code = .done)

variable {role body fates} {system : System Thread Object Call} {thread : Thread}

theorem Alone.proceed (disciplined : forall function, (body function).Disciplined role .bare)
    (alone : system.Alone role thread) : (system.proceed role body fates thread).Alone role thread := by
  have acts : system.Acts role body thread (system.proceed role body fates thread) :=
    acts_step system (thread, _)
  refine ⟨alone.invariant.acts disciplined acts, fun other different => ?_⟩
  rw [acts.other different]
  exact alone.others other different

/-- Nobody else has the mutex. -/
theorem Alone.owner (alone : system.Alone role thread) {other : Thread}
    (owned : system.owner = some other) : other = thread := by
  by_contra different
  exact not_has_of_outside (alone.others other different) (alone.invariant.owner_iff.mp owned)

theorem Alone.arrived (alone : system.Alone role thread) :
    system.Arrives role body fates thread (system.control thread) :=
  ⟨system, .refl, alone, rfl⟩

theorem Arrives.trans {between control : Control Object Call}
    (arrives : system.Arrives role body fates thread between)
    (later : forall next : System Thread Object Call, next.Alone role thread ->
      next.control thread = between -> next.Arrives role body fates thread control) :
    system.Arrives role body fates thread control := by
  rcases arrives with ⟨next, proceeds, alone, known⟩
  rcases later next alone known with ⟨final, proceedsLater, aloneLater, knownLater⟩
  exact ⟨final, proceeds.trans proceedsLater, aloneLater, knownLater⟩

theorem Arrives.endsBlock {between : Control Object Call} {mode : Mode}
    {handler : Option (Code Object Call)} {outer : List (Block Object Call)}
    (arrives : system.Arrives role body fates thread between)
    (later : forall next : System Thread Object Call, next.Alone role thread ->
      next.control thread = between -> next.EndsBlock role body fates thread mode handler outer) :
    system.EndsBlock role body fates thread mode handler outer := by
  rcases arrives with ⟨next, proceeds, alone, known⟩
  rcases later next alone known with ⟨objects, code, ⟨final, proceedsLater, aloneLater, knownLater⟩,
    done⟩
  exact ⟨objects, code, ⟨final, proceeds.trans proceedsLater, aloneLater, knownLater⟩, done⟩

/-- Behind its statements a thread leaves its block. -/
theorem proceed_leave {mode : Mode} {objects : List Object} {code : Code Object Call}
    {handler : Option (Code Object Call)} {outer : List (Block Object Call)}
    (known : system.control thread = ⟨mode, ⟨objects, code, handler⟩ :: outer⟩)
    (ends : mode = .running -> code = .done) :
    system.proceed role body fates thread =
      system.leave role thread mode ⟨objects, code, handler⟩ outer := by
  rw [System.proceed, step, known]
  cases mode with
  | running =>
      rw [ends rfl]
      rfl
  | throwing => rfl
  | returning => rfl

/-- In its statements it executes the next one as the fates choose. -/
theorem proceed_execute {objects : List Object} {code : Code Object Call}
    {handler : Option (Code Object Call)} {outer : List (Block Object Call)}
    (known : system.control thread = ⟨.running, ⟨objects, code, handler⟩ :: outer⟩) :
    system.proceed role body fates thread = system.execute role thread
      (fates.choose ⟨.running, ⟨objects, code, handler⟩ :: outer⟩ : Move Name)
      ⟨objects, code, handler⟩ outer := by
  rw [System.proceed, step, known]
  rfl

section Alone

variable (disciplined : forall function, (body function).Disciplined role .bare)
  {objects : List Object} {handler : Option (Code Object Call)} {outer : List (Block Object Call)}

include disciplined

theorem Alone.arrives_of_acts (alone : system.Alone role thread) {control : Control Object Call}
    (moved : (system.proceed role body fates thread).control thread = control) :
    system.Arrives role body fates thread control :=
  ⟨_, .single rfl, alone.proceed disciplined, moved⟩

/-- A block that is left destroys its objects first. -/
theorem Alone.arrives_behind (alone : system.Alone role thread) {mode : Mode}
    {code : Code Object Call}
    (known : system.control thread = ⟨mode, ⟨objects, code, handler⟩ :: outer⟩)
    (ends : mode = .running -> code = .done) :
    system.Arrives role body fates thread (behind mode handler outer) := by
  induction objects generalizing system code with
  | nil =>
      apply alone.arrives_of_acts disciplined
      rw [proceed_leave known ends, leave]
      exact place_self ..
  | cons object objects inductionHypothesis =>
      have destroyed : (system.proceed role body fates thread).control thread =
          ⟨mode, ⟨objects, .done, handler⟩ :: outer⟩ := by
        rw [proceed_leave known ends, leave]
        dsimp only
        cases role object with
        | _ => exact place_self ..
      refine (alone.arrives_of_acts disciplined destroyed).trans fun next nextAlone nextKnown => ?_
      exact inductionHypothesis nextAlone nextKnown fun _ => rfl

omit disciplined in
/-- A thread alone does not wait, and is not refused. -/
theorem Alone.control_construct (alone : system.Alone role thread) {object : Object}
    {rest : Code Object Call}
    (known : system.control thread = ⟨.running, ⟨objects, .declare object rest, handler⟩ :: outer⟩) :
    (system.construct role thread object rest ⟨objects, .declare object rest, handler⟩
      outer).control thread = ⟨.running, ⟨object :: objects, rest, handler⟩ :: outer⟩ := by
  unfold construct
  cases use : role object with
  | guard =>
      have free : system.owner = none := by
        by_contra taken
        rcases Option.ne_none_iff_exists'.mp taken with ⟨other, owned⟩
        cases alone.owner owned
        have sound := alone.invariant.sound thread
        rw [known] at sound
        rcases sound with ⟨_, _, stage, bare, next, enters, _⟩
        rw [use] at enters
        rcases Stage.enter_guard.mp enters with ⟨rfl, _⟩
        have isAt : system.IsAt role thread .bare := by
          rw [IsAt, known]
          exact bare
        exact absurd rfl ((alone.invariant.owner thread _ isAt).mp owned)
      dsimp only
      rw [if_pos free]
      exact place_self ..
  | resource =>
      dsimp only
      rw [if_pos (alone.invariant.unborne known use)]
      exact place_self ..
  | plain => exact place_self ..

/-- What is thrown leaves the block with the objects that it has. -/
theorem Alone.endsBlock_of_abandon (alone : system.Alone role thread) {mode : Mode}
    {code : Code Object Call}
    (moved : system.proceed role body fates thread =
      system.abandon thread mode ⟨objects, code, handler⟩ outer) :
    system.EndsBlock role body fates thread mode handler outer := by
  refine ⟨objects, .done, alone.arrives_of_acts disciplined ?_, fun _ => rfl⟩
  rw [moved]
  exact place_self ..

/-- The statements of a block lead to the end that the text says. -/
theorem Alone.endsBlock (code : Code Object Call) {system : System Thread Object Call}
    (alone : system.Alone role thread) {objects : List Object} {handler : Option (Code Object Call)}
    {outer : List (Block Object Call)}
    (known : system.control thread = ⟨.running, ⟨objects, code, handler⟩ :: outer⟩) :
    system.EndsBlock role body fates thread (code.ending fates) handler outer := by
  induction code generalizing system objects handler outer with
  | done =>
      have arrived : system.Arrives role body fates thread _ := alone.arrived
      rw [known] at arrived
      exact ⟨objects, .done, arrived, fun _ => rfl⟩
  | declare object rest inductionHypothesis =>
      have moved : system.proceed role body fates thread = _ := proceed_execute known
      by_cases fails : fates.fails object = true
      · simp only [Fates.choose, List.head?_cons, Option.map_some, if_pos fails] at moved
        rw [Code.ending, if_pos fails]
        exact alone.endsBlock_of_abandon disciplined moved
      · simp only [Fates.choose, List.head?_cons, Option.map_some, if_neg fails] at moved
        rw [Code.ending, if_neg fails]
        have constructed : system.Arrives role body fates thread
            ⟨.running, ⟨object :: objects, rest, handler⟩ :: outer⟩ := by
          apply alone.arrives_of_acts disciplined
          rw [moved]
          exact alone.control_construct known
        exact constructed.endsBlock fun next nextAlone nextKnown =>
          inductionHypothesis nextAlone nextKnown
  | perform call rest inductionHypothesis =>
      have moved : system.proceed role body fates thread = _ := proceed_execute known
      by_cases throws : fates.throws call = true
      · simp only [Fates.choose, List.head?_cons, Option.map_some, if_pos throws] at moved
        rw [Code.ending, if_pos throws]
        exact alone.endsBlock_of_abandon disciplined moved
      · simp only [Fates.choose, List.head?_cons, Option.map_some, if_neg throws] at moved
        rw [Code.ending, if_neg throws]
        have performed : system.Arrives role body fates thread
            ⟨.running, ⟨objects, rest, handler⟩ :: outer⟩ := by
          apply alone.arrives_of_acts disciplined
          rw [moved]
          exact place_self ..
        exact performed.endsBlock fun next nextAlone nextKnown =>
          inductionHypothesis nextAlone nextKnown
  | returnIf test rest inductionHypothesis =>
      have moved : system.proceed role body fates thread = _ := proceed_execute known
      by_cases returns : fates.returns test = true
      · simp only [Fates.choose, List.head?_cons, Option.map_some, if_pos returns] at moved
        rw [Code.ending, if_pos returns]
        exact alone.endsBlock_of_abandon disciplined moved
      · simp only [Fates.choose, List.head?_cons, Option.map_some, if_neg returns] at moved
        rw [Code.ending, if_neg returns]
        have passed : system.Arrives role body fates thread
            ⟨.running, ⟨objects, rest, handler⟩ :: outer⟩ := by
          apply alone.arrives_of_acts disciplined
          rw [moved]
          exact place_self ..
        exact passed.endsBlock fun next nextAlone nextKnown =>
          inductionHypothesis nextAlone nextKnown
  | attempt inner caught rest innerHypothesis caughtHypothesis restHypothesis =>
      have entered : (system.proceed role body fates thread).control thread =
          ⟨.running, ⟨[], inner, some caught⟩ :: ⟨objects, rest, handler⟩ :: outer⟩ := by
        rw [proceed_execute known]
        exact place_self ..
      have left : system.Arrives role body fates thread
          (behind (inner.ending fates) (some caught) (⟨objects, rest, handler⟩ :: outer)) := by
        refine (alone.arrives_of_acts disciplined entered).trans fun next nextAlone nextKnown => ?_
        rcases innerHypothesis nextAlone nextKnown with ⟨remaining, code, arrives, ends⟩
        exact arrives.trans fun last lastAlone lastKnown =>
          lastAlone.arrives_behind disciplined lastKnown ends
      rw [Code.ending]
      cases innerEnds : inner.ending fates with
      | running =>
          rw [innerEnds] at left
          exact left.endsBlock fun next nextAlone nextKnown => restHypothesis nextAlone nextKnown
      | returning =>
          rw [innerEnds] at left
          exact ⟨objects, rest, left, nofun⟩
      | throwing =>
          rw [innerEnds] at left
          have handled : system.Arrives role body fates thread
              (behind (caught.ending fates) none (⟨objects, rest, handler⟩ :: outer)) := by
            refine left.trans fun next nextAlone nextKnown => ?_
            rcases caughtHypothesis nextAlone nextKnown with ⟨remaining, code, arrives, ends⟩
            exact arrives.trans fun last lastAlone lastKnown =>
              lastAlone.arrives_behind disciplined lastKnown ends
          dsimp only
          cases caughtEnds : caught.ending fates with
          | running =>
              rw [caughtEnds] at handled
              exact handled.endsBlock fun next nextAlone nextKnown => restHypothesis nextAlone nextKnown
          | returning =>
              rw [caughtEnds] at handled
              exact ⟨objects, rest, handled, nofun⟩
          | throwing =>
              rw [caughtEnds] at handled
              exact ⟨objects, rest, handled, nofun⟩
  | raise => exact alone.endsBlock_of_abandon disciplined (proceed_execute known)

/-- A thread alone in a function comes to the end that the text says, outside
and with everything given back. -/
theorem Alone.arrives_outside (alone : system.Alone role thread) {code : Code Object Call}
    (known : system.control thread = ⟨.running, [⟨[], code, none⟩]⟩) :
    system.Arrives role body fates thread ⟨code.ending fates, []⟩ := by
  have finishes : system.EndsBlock role body fates thread (code.ending fates) none [] :=
    alone.endsBlock disciplined code known
  rcases finishes with ⟨objects, remains, arrives, ends⟩
  refine arrives.trans fun next nextAlone nextKnown => ?_
  have left : next.Arrives role body fates thread _ :=
    nextAlone.arrives_behind disciplined nextKnown ends
  have outside : behind (code.ending fates) none ([] : List (Block Object Call)) =
      ⟨code.ending fates, []⟩ := by
    cases code.ending fates with
    | _ => rfl
  rw [outside] at left
  exact left

end Alone

end System

end Machine

end ScopedObjects
end Foundation
end CoreBank
