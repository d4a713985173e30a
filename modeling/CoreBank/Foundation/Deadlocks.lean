import CoreBank.Foundation.Locking
import Mathlib.Data.Fintype.EquivFin
import Mathlib.Data.Set.Finite.Basic
import Mathlib.Order.WellFounded

namespace CoreBank
namespace Foundation

/-!
# Deadlocks

A session waits for another one when its next statement asks for a lock that
the other holds.  A deadlock is a cycle of waiting sessions.  Since every
session of the cycle holds what its predecessor asks for, the cycle is also one
of locks: each is held by a session that asks for the next.
-/

/-- In a finite set that a relation does not lead out of, and in which it never
stops, the relation comes back to some element. -/
theorem exists_cycle_of_finite {Node : Type*} {related : Node -> Node -> Prop} {nodes : Set Node}
    (finite : nodes.Finite) (inhabited : nodes.Nonempty)
    (onward : forall node, node ∈ nodes -> Exists fun next => next ∈ nodes ∧ related node next) :
    Exists fun node => node ∈ nodes ∧ Relation.TransGen related node node := by
  by_contra acyclic
  let after : nodes -> nodes -> Prop := fun next node => Relation.TransGen related node.val next.val
  have transitive : IsTrans nodes after := ⟨fun _ _ _ first second => second.trans first⟩
  have irreflexive : Std.Irrefl after := ⟨fun node cycle => acyclic ⟨node.val, node.property, cycle⟩⟩
  have : Finite nodes := finite
  have wellFounded : WellFounded after := Finite.wellFounded_of_trans_of_irrefl after
  rcases inhabited with ⟨start, member⟩
  rcases wellFounded.has_min Set.univ ⟨⟨start, member⟩, trivial⟩ with ⟨last, _, minimal⟩
  rcases onward last.val last.property with ⟨next, nextMember, step⟩
  exact minimal ⟨next, nextMember⟩ trivial (Relation.TransGen.single step)

namespace LockingProtocol

variable {Store Key Call Progress Error Session : Type*}
variable (protocol : LockingProtocol Store Key Call Progress Error)

/-- The session holds the lock. -/
def HoldsKey (system : System Store Call Progress Session) (session : Session) (key : Key) : Prop :=
  Exists fun call => Exists fun progress => system.inFlight session = some (call, progress) ∧
    key ∈ protocol.held progress

/-- The next statement of the session needs the lock. -/
def AsksFor (system : System Store Call Progress Session) (session : Session) (key : Key) : Prop :=
  Exists fun call => Exists fun progress => Exists fun next =>
    system.inFlight session = some (call, progress) ∧
    protocol.step system.store progress = .ok next ∧ key ∈ protocol.held next

/-- The first session waits for a lock of the second, one of the given locks. -/
def Waits (keys : Set Key) (system : System Store Call Progress Session) (session other : Session) :
    Prop :=
  session ≠ other ∧ Exists fun key => key ∈ keys ∧ protocol.AsksFor system session key ∧
    protocol.HoldsKey system other key

/-- A cycle of sessions, each of which holds a lock and waits for one that the
next holds. -/
def Deadlocked (keys : Set Key) (system : System Store Call Progress Session) : Prop :=
  Exists fun session => Relation.TransGen (protocol.Waits keys system) session session

/-- A session holds the first lock and asks for the second, which another
session holds. -/
def Demands (keys : Set Key) (system : System Store Call Progress Session) (first second : Key) :
    Prop :=
  Exists fun session => first ∈ keys ∧ second ∈ keys ∧ protocol.HoldsKey system session first ∧
    protocol.AsksFor system session second ∧
    Exists fun other => other ≠ session ∧ protocol.HoldsKey system other second

variable {protocol}

/-- Along a chain of waiting sessions, every lock of the first session leads to
a lock of the last. -/
theorem demands_of_waits {keys : Set Key} {system : System Store Call Progress Session}
    {first last : Session} (waits : Relation.ReflTransGen (protocol.Waits keys system) first last)
    {held : Key} (counted : held ∈ keys) (holds : protocol.HoldsKey system first held) :
    Exists fun reached => reached ∈ keys ∧ protocol.HoldsKey system last reached ∧
      Relation.ReflTransGen (protocol.Demands keys system) held reached := by
  induction waits with
  | refl => exact ⟨held, counted, holds, Relation.ReflTransGen.refl⟩
  | @tail middle last _ wait inductionHypothesis =>
      rcases inductionHypothesis with ⟨reached, reachedCounted, middleHolds, chain⟩
      rcases wait with ⟨distinct, asked, askedCounted, asks, lastHolds⟩
      refine ⟨asked, askedCounted, lastHolds, chain.tail ?_⟩
      exact ⟨middle, reachedCounted, askedCounted, middleHolds, asks, last, Ne.symm distinct, lastHolds⟩

/-- In a deadlock a chain of demands comes back to some lock. -/
theorem Deadlocked.demands {keys : Set Key} {system : System Store Call Progress Session}
    (deadlocked : protocol.Deadlocked keys system) :
    Exists fun key => Relation.TransGen (protocol.Demands keys system) key key := by
  rcases deadlocked with ⟨session, cycle⟩
  rcases Relation.TransGen.tail'_iff.mp cycle with ⟨previous, chain, wait⟩
  rcases wait with ⟨distinct, key, counted, asks, holds⟩
  rcases demands_of_waits chain counted holds with ⟨reached, reachedCounted, previousHolds, demands⟩
  refine ⟨key, Relation.TransGen.tail' demands ?_⟩
  exact ⟨previous, reachedCounted, counted, previousHolds, asks, session, Ne.symm distinct, holds⟩

end LockingProtocol

end Foundation
end CoreBank
