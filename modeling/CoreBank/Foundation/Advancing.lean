import CoreBank.Foundation.Deadlocks
import Mathlib.Data.List.Chain

namespace CoreBank
namespace Foundation

/-!
# Transactions that go on

A transaction goes on by its next statement, ends with its commit, or is ended
by the error of a statement.  When none of the transactions in flight can do
so, each of them waits for another one, and since they are finitely many, some
of them wait in a cycle.  Without a deadlock there is therefore always a step to
be made, and a measure that every step lowers tells how many steps there are.
-/

section Measures

variable {Node : Type*} {related : Node -> Node -> Prop} {measure : Node -> ℕ}

end Measures

namespace LockingProtocol

variable {Store Key Call Progress Error Session : Type*} [DecidableEq Session]
variable (protocol : LockingProtocol Store Key Call Progress Error)

/-- A transaction in flight goes on, or comes to its end by a commit or an
error. -/
inductive Advances (system : System Store Call Progress Session) :
    System Store Call Progress Session -> Prop where
  | statement (session : Session) (call : Call) (progress next : Progress)
      (running : system.inFlight session = some (call, progress))
      (unfinished : ¬ protocol.Finished progress)
      (success : protocol.step system.store progress = .ok next)
      (free : protocol.Free system session (protocol.held next)) :
      Advances system { system with
        inFlight := Function.update system.inFlight session (some (call, next)) }
  | commit (session : Session) (call : Call) (progress : Progress)
      (running : system.inFlight session = some (call, progress))
      (finished : protocol.Finished progress) :
      Advances system {
        store := protocol.publish progress system.store
        inFlight := Function.update system.inFlight session none
        history := system.history ++ [call] }
  | raise (session : Session) (call : Call) (progress : Progress) (problem : Error)
      (running : system.inFlight session = some (call, progress))
      (fails : protocol.step system.store progress = .error problem) :
      Advances system { system with inFlight := Function.update system.inFlight session none }

variable {protocol}

theorem Advances.step {system next : System Store Call Progress Session}
    (advances : protocol.Advances system next) : protocol.Step system next := by
  cases advances with
  | statement session call progress next running unfinished success free =>
      exact .statement session call progress next running success free
  | commit session call progress running finished => exact .commit session call progress running finished
  | raise session call progress problem running fails => exact .abort session call progress running

/-- A step moves a session that is in flight, to a later statement or out of
flight, and leaves all others where they are. -/
theorem Advances.moved {system next : System Store Call Progress Session}
    (advances : protocol.Advances system next) :
    Exists fun session => Exists fun call => Exists fun progress =>
      system.inFlight session = some (call, progress) ∧
      (forall other, other ≠ session -> next.inFlight other = system.inFlight other) ∧
      (next.inFlight session = none ∨ Exists fun later =>
        next.inFlight session = some (call, later) ∧ ¬ protocol.Finished progress ∧
          protocol.step system.store progress = .ok later) := by
  cases advances with
  | statement session call progress later running unfinished success free =>
      exact ⟨session, call, progress, running, fun other distinct => Function.update_of_ne distinct _ _,
        Or.inr ⟨later, Function.update_self .., unfinished, success⟩⟩
  | commit session call progress running finished =>
      exact ⟨session, call, progress, running, fun other distinct => Function.update_of_ne distinct _ _,
        Or.inl (Function.update_self ..)⟩
  | raise session call progress problem running fails =>
      exact ⟨session, call, progress, running, fun other distinct => Function.update_of_ne distinct _ _,
        Or.inl (Function.update_self ..)⟩

/-- A transaction in flight that has no step to make waits for another one. -/
theorem exists_waits_of_stuck {system : System Store Call Progress Session}
    (stuck : forall next, ¬ protocol.Advances system next) {session : Session} {call : Call}
    {progress : Progress} (running : system.inFlight session = some (call, progress)) :
    Exists fun other => (Exists fun flight => system.inFlight other = some flight) ∧
      protocol.Waits Set.univ system session other := by
  by_cases finished : protocol.Finished progress
  · exact absurd (Advances.commit session call progress running finished) (stuck _)
  cases success : protocol.step system.store progress with
  | error problem => exact absurd (Advances.raise session call progress problem running success) (stuck _)
  | ok next =>
      have waits : ¬ protocol.Free system session (protocol.held next) := fun free =>
        stuck _ (Advances.statement session call progress next running finished success free)
      by_contra alone
      apply waits
      intro other otherCall otherProgress distinct otherRunning
      rw [Set.disjoint_left]
      intro key asked held
      exact alone ⟨other, ⟨_, otherRunning⟩, Ne.symm distinct, key, Set.mem_univ key,
        ⟨call, progress, next, running, success, asked⟩, otherCall, otherProgress, otherRunning, held⟩

/-- Without a deadlock, a system with a transaction in flight has a step to
make. -/
theorem exists_advances [Finite Session] {system : System Store Call Progress Session}
    (live : ¬ protocol.Deadlocked Set.univ system) {session : Session} {flight : Call × Progress}
    (running : system.inFlight session = some flight) :
    Exists fun next => protocol.Advances system next := by
  by_contra stuck
  have everybody : forall next, ¬ protocol.Advances system next := fun next advances =>
    stuck ⟨next, advances⟩
  let flying : Set Session := { waiting | Exists fun flight => system.inFlight waiting = some flight }
  have onward : forall waiting, waiting ∈ flying -> Exists fun other => other ∈ flying ∧
      protocol.Waits Set.univ system waiting other := by
    rintro waiting ⟨⟨call, progress⟩, inFlight⟩
    exact exists_waits_of_stuck everybody inFlight
  have start : session ∈ flying := ⟨flight, running⟩
  rcases exists_cycle_of_finite (Set.toFinite flying) ⟨session, start⟩ onward with ⟨waiting, _, cycle⟩
  exact live ⟨waiting, cycle⟩

end LockingProtocol

end Foundation
end CoreBank
