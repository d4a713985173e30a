import Mathlib.Data.Fintype.Basic
import Mathlib.Data.Set.Lattice
import Mathlib.Logic.Function.Basic
import Mathlib.Logic.Relation
import Mathlib.Order.CompletePartialOrder

namespace CoreBank
namespace Foundation

/-!
# Strict locking makes transactions serial

A transaction runs statement by statement against a shared store.  It takes
locks on its way, keeps all of them until it ends, and publishes what it has
written when it commits.  Any number of sessions interleave their statements; a
statement that needs a lock of another session has to wait.

While a transaction is in flight, nobody else publishes anything under its
locks.  Each transaction in flight is therefore, at any time, where it would be
if it had run alone on the store as it is now, and so a commit does to the
store what the whole call does when it runs alone.

A protocol whose locks are listed can be carried out: a schedule says which
session does what, and gives a state that is reached or stops where it cannot.
-/

/-- Transactions over a store, with the locks they hold.  Two stores agree on
some keys when no statement that holds these keys can tell them apart. -/
structure LockingProtocol (Store Key Call Progress Error : Type*) where
  start : Call -> Progress
  step : Store -> Progress -> Except Error Progress
  Finished : Progress -> Prop
  held : Progress -> Set Key
  publish : Progress -> Store -> Store
  Agree : Set Key -> Store -> Store -> Prop
  held_start : forall call, held (start call) = ∅
  held_mono : forall {store progress next}, step store progress = .ok next ->
    held progress ⊆ held next
  step_agree : forall {store other progress next}, step store progress = .ok next ->
    Agree (held next) store other -> step other progress = .ok next
  publish_frame : forall {keys progress} (store : Store), Disjoint keys (held progress) ->
    Agree keys store (publish progress store)

namespace LockingProtocol

variable {Store Key Call Progress Error Session : Type*}
variable (protocol : LockingProtocol Store Key Call Progress Error)

/-! ## A call that runs alone -/

/-- Statements executed one after another on a store that does not change. -/
def Isolated (store : Store) : Progress -> Progress -> Prop :=
  Relation.ReflTransGen fun progress next => protocol.step store progress = .ok next

/-- A call runs alone from its start to its commit. -/
def Executes (store : Store) (call : Call) (result : Store) : Prop :=
  Exists fun final => protocol.Isolated store (protocol.start call) final ∧
    protocol.Finished final ∧ result = protocol.publish final store

/-- Calls run one after another, each on its own. -/
inductive Serial (opening : Store) : List Call -> Store -> Prop where
  | nil : Serial opening [] opening
  | snoc {calls : List Call} {call : Call} {store result : Store} (earlier : Serial opening calls store)
      (executes : protocol.Executes store call result) : Serial opening (calls ++ [call]) result

/-! ## Interleaved sessions -/

/-- The committed store, the transaction in flight of each session, and the
calls that have committed, in the order of their commits. -/
structure System (Store Call Progress Session : Type*) where
  store : Store
  inFlight : Session -> Option (Call × Progress)
  history : List Call

/-- No other session holds one of the keys. -/
def Free (system : System Store Call Progress Session) (session : Session) (keys : Set Key) : Prop :=
  forall other call progress, other ≠ session -> system.inFlight other = some (call, progress) ->
    Disjoint keys (protocol.held progress)

/-- A step of one session: it begins a transaction, executes a statement whose
locks are free, commits, or aborts. -/
inductive Step [DecidableEq Session] (system : System Store Call Progress Session) :
    System Store Call Progress Session -> Prop where
  | begin (session : Session) (call : Call) (idle : system.inFlight session = none) :
      Step system { system with
        inFlight := Function.update system.inFlight session (some (call, protocol.start call)) }
  | statement (session : Session) (call : Call) (progress next : Progress)
      (running : system.inFlight session = some (call, progress))
      (success : protocol.step system.store progress = .ok next)
      (free : protocol.Free system session (protocol.held next)) :
      Step system { system with
        inFlight := Function.update system.inFlight session (some (call, next)) }
  | commit (session : Session) (call : Call) (progress : Progress)
      (running : system.inFlight session = some (call, progress))
      (finished : protocol.Finished progress) :
      Step system {
        store := protocol.publish progress system.store
        inFlight := Function.update system.inFlight session none
        history := system.history ++ [call] }
  | abort (session : Session) (call : Call) (progress : Progress)
      (running : system.inFlight session = some (call, progress)) :
      Step system { system with inFlight := Function.update system.inFlight session none }

/-- The states that sessions reach from a store on which none is in flight. -/
def Reachable [DecidableEq Session] (opening : Store) : System Store Call Progress Session -> Prop :=
  Relation.ReflTransGen protocol.Step ⟨opening, fun _ => none, []⟩

/-! ## Serialisability -/

variable {protocol}

/-- A run alone does not notice a change outside the locks it ends with. -/
theorem Isolated.of_agree {store other : Store} {progress final : Progress}
    (isolated : protocol.Isolated store progress final)
    (agree : forall keys, keys ⊆ protocol.held final -> protocol.Agree keys store other) :
    protocol.Isolated other progress final := by
  induction isolated with
  | refl => exact Relation.ReflTransGen.refl
  | tail earlier success inductionHypothesis =>
      have kept := protocol.held_mono success
      apply Relation.ReflTransGen.tail
      · exact inductionHypothesis fun keys within => agree keys (within.trans kept)
      · exact protocol.step_agree success (agree _ (Set.Subset.refl _))

/-- What holds between any two steps: the transactions in flight are where they
would be alone on the present store, their locks are disjoint, and the store is
the outcome of the committed calls one after another. -/
structure Invariant (protocol : LockingProtocol Store Key Call Progress Error) (opening : Store)
    (system : System Store Call Progress Session) : Prop where
  isolated : forall session call progress, system.inFlight session = some (call, progress) ->
    protocol.Isolated system.store (protocol.start call) progress
  exclusive : forall session call progress, system.inFlight session = some (call, progress) ->
    protocol.Free system session (protocol.held progress)
  serial : protocol.Serial opening system.history system.store

theorem invariant_opening (opening : Store) :
    protocol.Invariant opening (⟨opening, fun _ => none, []⟩ : System Store Call Progress Session) where
  isolated := by
    intro session call progress running
    cases running
  exclusive := by
    intro session call progress running
    cases running
  serial := Serial.nil

section Sessions

variable [DecidableEq Session]

/-- A call in flight after a step was in flight before it, or its session was
idle. -/
theorem Step.inFlight {system next : System Store Call Progress Session}
    (step : protocol.Step system next) {session : Session} {call : Call} {progress : Progress}
    (running : next.inFlight session = some (call, progress)) :
    system.inFlight session = none ∨
      Exists fun earlier => system.inFlight session = some (call, earlier) := by
  have unchanged : forall {other : Session} {renewed : Option (Call × Progress)}, session ≠ other ->
      Function.update system.inFlight other renewed session = some (call, progress) ->
      Exists fun earlier => system.inFlight session = some (call, earlier) := by
    intro other renewed distinct still
    rw [Function.update_of_ne distinct] at still
    exact ⟨progress, still⟩
  cases step with
  | begin other otherCall idle =>
      by_cases same : session = other
      · subst same
        exact Or.inl idle
      · exact Or.inr (unchanged same running)
  | statement other otherCall before after ran success free =>
      by_cases same : session = other
      · subst same
        simp only [Function.update_self, Option.some.injEq, Prod.mk.injEq] at running
        exact Or.inr ⟨before, running.1 ▸ ran⟩
      · exact Or.inr (unchanged same running)
  | commit other otherCall final ran finished =>
      by_cases same : session = other
      · subst same
        simp only [Function.update_self, reduceCtorEq] at running
      · exact Or.inr (unchanged same running)
  | abort other otherCall last ran =>
      by_cases same : session = other
      · subst same
        simp only [Function.update_self, reduceCtorEq] at running
      · exact Or.inr (unchanged same running)

/-- The locks stay disjoint when one session gets a new transaction state whose
locks are free. -/
theorem exclusive_update {system : System Store Call Progress Session} {session : Session}
    {renewed : Option (Call × Progress)}
    (exclusive : forall session call progress, system.inFlight session = some (call, progress) ->
      protocol.Free system session (protocol.held progress))
    (free : forall call progress, renewed = some (call, progress) ->
      protocol.Free system session (protocol.held progress)) {store : Store} {history : List Call}
    (other : Session) (call : Call) (progress : Progress)
    (running : Function.update system.inFlight session renewed other = some (call, progress)) :
    protocol.Free ⟨store, Function.update system.inFlight session renewed, history⟩ other
      (protocol.held progress) := by
  intro third thirdCall thirdProgress distinct thirdRunning
  simp only at thirdRunning
  by_cases same : other = session
  · subst same
    rw [Function.update_self] at running
    rw [Function.update_of_ne distinct] at thirdRunning
    exact free call progress running third thirdCall thirdProgress distinct thirdRunning
  · rw [Function.update_of_ne same] at running
    by_cases sameThird : third = session
    · subst sameThird
      rw [Function.update_self] at thirdRunning
      apply Disjoint.symm
      exact free thirdCall thirdProgress thirdRunning other call progress same running
    · rw [Function.update_of_ne sameThird] at thirdRunning
      exact exclusive other call progress running third thirdCall thirdProgress distinct thirdRunning

theorem isolated_update {system : System Store Call Progress Session} {session : Session}
    {renewed : Option (Call × Progress)} {store : Store}
    (isolated : forall other call progress, other ≠ session ->
      system.inFlight other = some (call, progress) ->
      protocol.Isolated store (protocol.start call) progress)
    (new : forall call progress, renewed = some (call, progress) ->
      protocol.Isolated store (protocol.start call) progress)
    (other : Session) (call : Call) (progress : Progress)
    (running : Function.update system.inFlight session renewed other = some (call, progress)) :
    protocol.Isolated store (protocol.start call) progress := by
  by_cases same : other = session
  · subst same
    rw [Function.update_self] at running
    exact new call progress running
  · rw [Function.update_of_ne same] at running
    exact isolated other call progress same running

theorem Invariant.step {opening : Store} {system next : System Store Call Progress Session}
    (invariant : protocol.Invariant opening system) (step : protocol.Step system next) :
    protocol.Invariant opening next := by
  cases step with
  | begin session call idle =>
      constructor
      · apply isolated_update fun other call progress _ => invariant.isolated other call progress
        intro otherCall progress same
        cases same
        exact Relation.ReflTransGen.refl
      · apply exclusive_update invariant.exclusive
        intro otherCall progress same
        cases same
        intro other _ otherProgress _ _
        rw [protocol.held_start]
        exact Set.empty_disjoint _
      · exact invariant.serial
  | statement session call progress after running success free =>
      constructor
      · apply isolated_update fun other call progress _ => invariant.isolated other call progress
        intro otherCall otherProgress same
        cases same
        exact (invariant.isolated session call progress running).tail success
      · apply exclusive_update invariant.exclusive
        intro otherCall otherProgress same
        cases same
        exact free
      · exact invariant.serial
  | commit session call progress running finished =>
      constructor
      · apply isolated_update
        · intro other otherCall otherProgress distinct otherRunning
          apply (invariant.isolated other otherCall otherProgress otherRunning).of_agree
          intro keys within
          have free := invariant.exclusive other otherCall otherProgress otherRunning session call
            progress (Ne.symm distinct) running
          exact protocol.publish_frame system.store (free.mono_left within)
        · intro otherCall otherProgress impossible
          cases impossible
      · apply exclusive_update invariant.exclusive
        intro otherCall otherProgress impossible
        cases impossible
      · apply invariant.serial.snoc
        exact ⟨progress, invariant.isolated session call progress running, finished, rfl⟩
  | abort session call progress running =>
      constructor
      · apply isolated_update fun other call progress _ => invariant.isolated other call progress
        intro otherCall otherProgress impossible
        cases impossible
      · apply exclusive_update invariant.exclusive
        intro otherCall otherProgress impossible
        cases impossible
      · exact invariant.serial

theorem Reachable.invariant {opening : Store} {system : System Store Call Progress Session}
    (reachable : protocol.Reachable opening system) : protocol.Invariant opening system := by
  induction reachable with
  | refl => exact invariant_opening opening
  | tail _ step inductionHypothesis => exact inductionHypothesis.step step

/-- The committed store is the outcome of the committed calls one after
another, in the order of their commits. -/
theorem Reachable.serial {opening : Store} {system : System Store Call Progress Session}
    (reachable : protocol.Reachable opening system) :
    protocol.Serial opening system.history system.store :=
  reachable.invariant.serial

end Sessions

/-! ## Schedules -/

/-- What a session does next. -/
inductive Action (Call : Type*) where
  | begin (call : Call)
  | statement
  | commit
  | abort

/-- A protocol whose locks are listed and whose ends are decided. -/
structure Executable (protocol : LockingProtocol Store Key Call Progress Error) where
  locks : Progress -> List Key
  finished : Progress -> Bool
  mem_held_iff : forall progress key, key ∈ protocol.held progress ↔ key ∈ locks progress
  finished_iff : forall progress, finished progress = true ↔ protocol.Finished progress

namespace Executable

variable [DecidableEq Session] [Fintype Session] [DecidableEq Key]

/-- No other session holds one of the keys. -/
def free (executable : protocol.Executable) (system : System Store Call Progress Session)
    (session : Session) (keys : List Key) : Bool :=
  decide (forall other, other ≠ session -> ((system.inFlight other).all fun running =>
    keys.all fun key => decide (key ∉ executable.locks running.2)) = true)

/-- One step of one session, if it can make it. -/
def perform (executable : protocol.Executable) (system : System Store Call Progress Session) :
    Session × Action Call -> Option (System Store Call Progress Session)
  | (session, .begin call) =>
      match system.inFlight session with
      | none => some { system with
          inFlight := Function.update system.inFlight session (some (call, protocol.start call)) }
      | some _ => none
  | (session, .statement) =>
      (system.inFlight session).bind fun running =>
        (protocol.step system.store running.2).toOption.bind fun next =>
          if executable.free system session (executable.locks next) = true then
            some { system with
              inFlight := Function.update system.inFlight session (some (running.1, next)) }
          else none
  | (session, .commit) =>
      (system.inFlight session).bind fun running =>
        if executable.finished running.2 = true then
          some {
            store := protocol.publish running.2 system.store
            inFlight := Function.update system.inFlight session none
            history := system.history ++ [running.1] }
        else none
  | (session, .abort) =>
      (system.inFlight session).map fun _ =>
        { system with inFlight := Function.update system.inFlight session none }

/-- The steps of a schedule one after another. -/
def execute (executable : protocol.Executable) (system : System Store Call Progress Session)
    (schedule : List (Session × Action Call)) : Option (System Store Call Progress Session) :=
  schedule.foldlM executable.perform system

theorem free_of_locks (executable : protocol.Executable) (system : System Store Call Progress Session)
    (session : Session) (progress : Progress) :
    executable.free system session (executable.locks progress) = true ->
      protocol.Free system session (protocol.held progress) := by
  intro free other call running distinct found
  have apart := of_decide_eq_true free other distinct
  rw [found, Option.all_some, List.all_eq_true] at apart
  rw [Set.disjoint_left]
  intro key mine others
  have listed := apart key ((executable.mem_held_iff progress key).mp mine)
  exact of_decide_eq_true listed ((executable.mem_held_iff running key).mp others)

/-- A step that is carried out is one of the protocol. -/
theorem step_of_perform {executable : protocol.Executable}
    {system next : System Store Call Progress Session} {move : Session × Action Call}
    (performed : executable.perform system move = some next) : protocol.Step system next := by
  rcases move with ⟨session, action⟩
  cases action with
  | begin call =>
      simp only [perform] at performed
      cases running : system.inFlight session with
      | none =>
          rw [running] at performed
          cases performed
          exact Step.begin session call running
      | some other =>
          rw [running] at performed
          cases performed
  | statement =>
      rcases Option.bind_eq_some_iff.mp performed with ⟨⟨call, progress⟩, running, performed⟩
      rcases Option.bind_eq_some_iff.mp performed with ⟨after, success, performed⟩
      split_ifs at performed with free
      cases performed
      refine Step.statement session call progress after running ?_ (executable.free_of_locks _ _ _ free)
      cases outcome : protocol.step system.store progress with
      | error problem =>
          rw [outcome] at success
          cases success
      | ok found =>
          rw [outcome] at success
          cases success
          rfl
  | commit =>
      rcases Option.bind_eq_some_iff.mp performed with ⟨⟨call, progress⟩, running, performed⟩
      split_ifs at performed with finished
      cases performed
      exact Step.commit session call progress running ((executable.finished_iff progress).mp finished)
  | abort =>
      rcases Option.map_eq_some_iff.mp performed with ⟨⟨call, progress⟩, running, rfl⟩
      exact Step.abort session call progress running

/-- What a schedule comes to is reached. -/
theorem reachable_of_execute {executable : protocol.Executable} {opening : Store}
    {system final : System Store Call Progress Session} (reachable : protocol.Reachable opening system)
    {schedule : List (Session × Action Call)} (executed : executable.execute system schedule = some final) :
    protocol.Reachable opening final := by
  induction schedule generalizing system with
  | nil =>
      cases executed
      exact reachable
  | cons move schedule inductionHypothesis =>
      rcases Option.bind_eq_some_iff.mp executed with ⟨next, performed, executed⟩
      exact inductionHypothesis (reachable.tail (step_of_perform performed)) executed

end Executable

end LockingProtocol

end Foundation
end CoreBank
