import CoreBank.Database.TransferDeadlocks
import CoreBank.Foundation.Advancing
import Mathlib.Algebra.Order.BigOperators.Group.Finset
import Mathlib.Data.Fintype.BigOperators

namespace CoreBank

open Foundation

/-!
# Transfers come to their end

Sessions that each run one transfer make at most eleven steps each.  A session
can only be kept waiting for an account row: the entry of the ledger that it
locks has an id of its own, which the sequence has given to nobody else.  So
the sessions can always go on until all of them have finished, except when
their transfers lead in a cycle from account to account.  In that case some of
them can come to a deadlock that only an abort resolves.
-/

/-- The sequence never gives the same id twice. -/
def HaveOwnIds {Session : Type} (calls : Session -> Attempt) : Prop :=
  forall first second id, (calls first).generated.transactionId = some id ->
    (calls second).generated.transactionId = some id -> first = second

namespace TransferStage

variable {Session : Type}

/-- Every session has begun its call, and none is in flight any more. -/
def Done (stage : TransferStage Session) : Prop :=
  forall session, session ∈ stage.begun ∧ stage.system.inFlight session = none

open Classical in
/-- The steps that a session has before it. -/
noncomputable def left (stage : TransferStage Session) (session : Session) : ℕ :=
  (if session ∈ stage.begun then 0 else 11) +
    match stage.system.inFlight session with
    | none => 0
    | some flight => flight.2.point.remaining + 1

/-- The steps that are left to all sessions. -/
noncomputable def remaining [Fintype Session] (stage : TransferStage Session) : ℕ :=
  Finset.univ.sum stage.left

variable [DecidableEq Session]

/-- A session begins its call, or a call in flight goes on or comes to its
end. -/
inductive Advances (calls : Session -> Attempt) (stage : TransferStage Session) :
    TransferStage Session -> Prop where
  | begin (session : Session) (idle : stage.system.inFlight session = none)
      (fresh : session ∉ stage.begun) : Advances calls stage (stage.begin session (calls session))
  | proceed (next : LockingProtocol.System Tables Attempt InFlight Session)
      (advances : concurrentTransfers.Advances stage.system next) :
      Advances calls stage ⟨next, stage.begun⟩

variable {tables : Tables} {calls : Session -> Attempt} {stage next : TransferStage Session}

theorem Advances.step (advances : Advances calls stage next) : Step calls stage next := by
  cases advances with
  | begin session idle fresh => exact .begin session idle fresh
  | proceed next advances =>
      refine .proceed next advances.step fun session idle => ?_
      rcases advances.moved with ⟨moving, call, progress, running, others, _⟩
      have distinct : session ≠ moving := by
        rintro rfl
        cases idle.symm.trans running
      exact (others session distinct).trans idle

/-! ## How many steps there are -/

end TransferStage

/-! ## Waiting for account rows -/

/-- A call that has locked something, and not its destination. -/
theorem Point.eq_lockDestination {point : Point} {call : TransferCall} {locked : Option ℤ}
    (member : locked ∈ point.locked call) (lacks : call.toAccount ∉ point.locked call) :
    point = .lockDestination := by
  cases point with
  | checkAmount => cases member
  | lockSource => cases member
  | lockDestination => rfl
  | _ => exact absurd List.mem_cons_self lacks

namespace InFlight

/-- The entry that a call locks in the ledger has the id given to it. -/
theorem recorded_of_isolated {committed : Tables} {request : Attempt} {progress : InFlight}
    (isolated : concurrentTransfers.Isolated committed (start request) progress) :
    progress.request = request ∧ forall id, progress.Holds (.ledgerEntry id) ->
      request.generated.transactionId = some id := by
  induction isolated with
  | refl => exact ⟨rfl, fun id impossible => absurd impossible List.not_mem_nil⟩
  | tail _ success inductionHypothesis =>
      rcases inductionHypothesis with ⟨isRequest, own⟩
      cases step_eq_ok_iff.mp success with
      | recordTransaction before inserted =>
          rcases insert_eq_ok_iff.mp inserted with ⟨transactionId, row, generates, converted, _, rfl⟩
          rw [isRequest] at generates converted
          rcases ledgerInput_row_eq_ok_iff.mp converted with ⟨amount, _, rfl⟩
          refine ⟨isRequest, fun id holds => ?_⟩
          have member : id ∈ (_ ++ [ledgerRow _ _ transactionId amount]).map Transaction.transactionId :=
            holds
          rw [List.map_append, List.mem_append] at member
          rcases member with earlier | added
          · exact own id earlier
          · cases List.mem_singleton.mp added
            exact nextTransactionId_eq_ok_iff.mp generates
      | _ => exact ⟨isRequest, own⟩

/-- A call between its two selections asks for its destination row. -/
theorem asks_destination {committed : Tables} {progress : InFlight}
    (between : progress.point = .lockDestination) {id : ℤ}
    (named : progress.request.call.toAccount = some id) (stored : id ∈ committed.accountIds) :
    Exists fun next => progress.step committed = .ok next ∧ next.Holds (.accountRow id) := by
  refine ⟨_, step_eq_ok_iff.mpr (.lockDestination between), Or.inl ?_⟩
  exact (progress.mem_lock_iff committed _ id).mpr (Or.inr ⟨named.symm, stored⟩)

end InFlight

namespace TransferStage

variable {Session : Type} [DecidableEq Session]
variable {tables : Tables} {calls : Session -> Attempt} {stage next : TransferStage Session}

/-- With ids of their own, sessions only wait for account rows. -/
theorem Reachable.waits (reachable : Reachable tables calls stage) (own : HaveOwnIds calls)
    {session other : Session} (waits : concurrentTransfers.Waits Set.univ stage.system session other) :
    concurrentTransfers.Waits accountRows stage.system session other := by
  rcases waits with ⟨distinct, key, _, asks, holds⟩
  refine ⟨distinct, key, ?_, asks, holds⟩
  cases key with
  | accountRow id => exact ⟨id, rfl⟩
  | ledgerEntry id =>
      rcases asks with ⟨call, progress, next, running, success, asked⟩
      rcases holds with ⟨otherCall, otherProgress, otherRunning, held⟩
      have isolated := reachable.system.invariant.isolated
      have first := (InFlight.recorded_of_isolated
        ((isolated session call progress running).tail success)).2 id asked
      have second := (InFlight.recorded_of_isolated
        (isolated other otherCall otherProgress otherRunning)).2 id held
      rw [reachable.call running] at first
      rw [reachable.call otherRunning] at second
      exact absurd (own session other id first second) distinct

/-- Sessions that have not finished can go on, unless transfers form a cycle. -/
theorem Reachable.moves [Finite Session] (reachable : Reachable tables calls stage)
    (own : HaveOwnIds calls)
    (acyclic : ¬ Exists fun account => Relation.TransGen (Transfers tables calls) account account) :
    stage.Done ∨ Exists (Advances calls stage) := by
  by_cases flying : Exists fun session => Exists fun flight => stage.system.inFlight session = some flight
  · rcases flying with ⟨session, flight, running⟩
    have live : ¬ concurrentTransfers.Deadlocked Set.univ stage.system := by
      rintro ⟨waiting, cycle⟩
      have onRows := Relation.TransGen.mono (fun _ _ => reachable.waits own) _ _ cycle
      exact acyclic (reachable.cycle ⟨waiting, onRows⟩)
    rcases LockingProtocol.exists_advances live running with ⟨next, advances⟩
    exact Or.inr ⟨_, .proceed next advances⟩
  · have idle : forall session, stage.system.inFlight session = none := by
      intro session
      cases running : stage.system.inFlight session with
      | none => rfl
      | some flight => exact absurd ⟨session, flight, running⟩ flying
    by_cases all : forall session, session ∈ stage.begun
    · exact Or.inl fun session => ⟨all session, idle session⟩
    · rcases not_forall.mp all with ⟨session, fresh⟩
      exact Or.inr ⟨_, .begin session (idle session) fresh⟩

/-! ## A deadlock stays -/

/-- Sessions that stand between their two selections, each in front of a row
that another one of them holds. -/
structure Blocked (tables : Tables) (calls : Session -> Attempt) (sessions : Set Session)
    (stage : TransferStage Session) : Prop where
  between : forall session, session ∈ sessions -> Exists fun progress =>
    stage.system.inFlight session = some (calls session, progress) ∧ progress.point = .lockDestination
  faces : forall session, session ∈ sessions -> Exists fun other => other ∈ sessions ∧
    other ≠ session ∧ Exists fun id => id ∈ tables.accountIds ∧
      (calls session).call.toAccount = some id ∧ (calls other).call.fromAccount = some id

/-- A session that holds a row and waits for another session stands between
its two selections, in front of its destination row. -/
theorem Reachable.between (reachable : Reachable tables calls stage) {session other : Session}
    (waits : concurrentTransfers.Waits accountRows stage.system session other) {held : ℤ}
    (holds : concurrentTransfers.HoldsKey stage.system session (.accountRow held)) :
    (Exists fun progress => stage.system.inFlight session = some (calls session, progress) ∧
      progress.point = .lockDestination) ∧
    Exists fun id => id ∈ tables.accountIds ∧ (calls session).call.toAccount = some id ∧
      concurrentTransfers.HoldsKey stage.system other (.accountRow id) := by
  rcases waits with ⟨distinct, _, ⟨asked, rfl⟩, ⟨call, progress, next, running, success, asks⟩,
    otherCall, otherProgress, otherRunning, otherHolds⟩
  rcases holds with ⟨_, _, ran, holds⟩
  cases running.symm.trans ran
  change progress.Holds (.accountRow held) at holds
  have lacks : ¬ progress.Holds (.accountRow asked) := by
    intro already
    have free := reachable.system.invariant.exclusive session call progress running other otherCall
      otherProgress (Ne.symm distinct) otherRunning
    exact Set.disjoint_left.mp free already otherHolds
  have own := reachable.call running
  subst own
  have inOrder := reachable.inOrder running
  have connects := inOrder.demand success holds asks lacks
  rw [inOrder.rows] at holds lacks
  have notLocked : (calls session).call.toAccount ∉ progress.point.locked (calls session).call := by
    intro named
    rw [connects.toDestination] at named
    exact lacks ⟨connects.destinationStored, named⟩
  refine ⟨⟨progress, running, Point.eq_lockDestination holds.2 notLocked⟩, asked, ?_,
    connects.toDestination, otherCall, otherProgress, otherRunning, otherHolds⟩
  rw [← reachable.accountIds]
  exact connects.destinationStored

/-- What a session between its two selections holds. -/
theorem Reachable.holds_iff (reachable : Reachable tables calls stage) {session : Session}
    {progress : InFlight} (running : stage.system.inFlight session = some (calls session, progress))
    (between : progress.point = .lockDestination) (id : ℤ) :
    concurrentTransfers.HoldsKey stage.system session (.accountRow id) ↔
      id ∈ tables.accountIds ∧ (calls session).call.fromAccount = some id := by
  have rows := (reachable.inOrder running).rows id
  rw [reachable.accountIds, between, Point.locked, List.mem_singleton, eq_comm (a := some id)] at rows
  constructor
  · rintro ⟨_, _, ran, holds⟩
    cases running.symm.trans ran
    exact rows.mp holds
  · intro named
    exact ⟨_, progress, running, rows.mpr named⟩

/-- The sessions of a deadlock block each other. -/
theorem Reachable.blocked (reachable : Reachable tables calls stage)
    (deadlocked : concurrentTransfers.Deadlocked accountRows stage.system) :
    Exists fun sessions => Set.Nonempty sessions ∧ Blocked tables calls sessions stage := by
  let around : Set Session := { session |
    Relation.TransGen (concurrentTransfers.Waits accountRows stage.system) session session }
  have waits : forall session, session ∈ around -> Exists fun other => other ∈ around ∧
      concurrentTransfers.Waits accountRows stage.system session other := by
    intro session cycle
    rcases Relation.TransGen.head'_iff.mp cycle with ⟨other, wait, rest⟩
    exact ⟨other, Relation.TransGen.tail' rest wait, wait⟩
  have holds : forall session, session ∈ around -> Exists fun held =>
      concurrentTransfers.HoldsKey stage.system session (.accountRow held) := by
    intro session cycle
    rcases Relation.TransGen.tail'_iff.mp cycle with ⟨_, _, _, _, ⟨held, rfl⟩, _, holds⟩
    exact ⟨held, holds⟩
  have between : forall session, session ∈ around -> Exists fun progress =>
      stage.system.inFlight session = some (calls session, progress) ∧
        progress.point = .lockDestination := by
    intro session member
    rcases waits session member with ⟨other, _, wait⟩
    rcases holds session member with ⟨held, holdsRow⟩
    exact (reachable.between wait holdsRow).1
  rcases deadlocked with ⟨session, cycle⟩
  refine ⟨around, ⟨session, cycle⟩, between, fun session member => ?_⟩
  rcases waits session member with ⟨other, otherMember, wait⟩
  rcases holds session member with ⟨held, holdsRow⟩
  rcases (reachable.between wait holdsRow).2 with ⟨id, stored, destination, otherHolds⟩
  rcases between other otherMember with ⟨progress, running, point⟩
  exact ⟨other, otherMember, Ne.symm wait.1, id, stored, destination,
    ((reachable.holds_iff running point id).mp otherHolds).2⟩

/-- The next statement of a blocked session succeeds, once it gets the row that
another one has. -/
theorem Blocked.waits (reachable : Reachable tables calls stage) {sessions : Set Session}
    (blocked : Blocked tables calls sessions stage) {session : Session} (member : session ∈ sessions)
    {progress : InFlight} (running : stage.system.inFlight session = some (calls session, progress))
    (between : progress.point = .lockDestination) :
    Exists fun next => progress.step stage.system.store = .ok next ∧
      ¬ concurrentTransfers.Free stage.system session next.held := by
  rcases blocked.faces session member with ⟨other, otherMember, distinct, id, stored, destination, source⟩
  rcases blocked.between other otherMember with ⟨otherProgress, otherRunning, otherBetween⟩
  have holds := (reachable.holds_iff otherRunning otherBetween id).mpr ⟨stored, source⟩
  rw [← reachable.accountIds] at stored
  rw [← (reachable.inOrder running).isRequest] at destination
  rcases InFlight.asks_destination between destination stored with ⟨next, success, asks⟩
  refine ⟨next, success, fun free => ?_⟩
  rcases holds with ⟨call, final, ran, held⟩
  exact Set.disjoint_left.mp (free other call final distinct ran) asks held

/-- Whatever the other sessions do, they stay blocked. -/
theorem Blocked.advances (reachable : Reachable tables calls stage) {sessions : Set Session}
    (blocked : Blocked tables calls sessions stage) (advances : Advances calls stage next) :
    Blocked tables calls sessions next := by
  refine ⟨fun session member => ?_, blocked.faces⟩
  rcases blocked.between session member with ⟨progress, running, between⟩
  rcases blocked.waits reachable member running between with ⟨later, success, notFree⟩
  refine ⟨progress, ?_, between⟩
  cases advances with
  | begin other idle fresh =>
      have distinct : session ≠ other := by
        rintro rfl
        cases idle.symm.trans running
      exact (Function.update_of_ne distinct _ _).trans running
  | proceed after advances =>
      cases advances with
      | statement other call before next ran unfinished stepped free =>
          have distinct : session ≠ other := by
            rintro rfl
            cases running.symm.trans ran
            cases success.symm.trans stepped
            exact notFree free
          exact (Function.update_of_ne distinct _ _).trans running
      | commit other call final ran finished =>
          have distinct : session ≠ other := by
            rintro rfl
            cases running.symm.trans ran
            cases between.symm.trans finished
          exact (Function.update_of_ne distinct _ _).trans running
      | raise other call last problem ran fails =>
          have distinct : session ≠ other := by
            rintro rfl
            cases running.symm.trans ran
            cases success.symm.trans fails
          exact (Function.update_of_ne distinct _ _).trans running

theorem Reachable.leads (reachable : Reachable tables calls stage)
    (leads : Relation.ReflTransGen (Advances calls) stage next) : Reachable tables calls next := by
  induction leads with
  | refl => exact reachable
  | tail _ advances inductionHypothesis => exact Relation.ReflTransGen.tail inductionHypothesis advances.step

theorem Blocked.leads (reachable : Reachable tables calls stage) {sessions : Set Session}
    (blocked : Blocked tables calls sessions stage)
    (leads : Relation.ReflTransGen (Advances calls) stage next) :
    Blocked tables calls sessions next := by
  induction leads with
  | refl => exact blocked
  | tail earlier advances inductionHypothesis =>
      exact inductionHypothesis.advances (reachable.leads earlier) advances

end TransferStage

end CoreBank
