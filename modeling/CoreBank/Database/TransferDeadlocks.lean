import CoreBank.Database.ConcurrentTransfers
import CoreBank.Foundation.Deadlocks

namespace CoreBank

open Foundation

/-!
# Deadlocks between transfers

`transferMoney` locks the source account and then the destination account,
whatever their keys are.  Two transfers in opposite directions can therefore
each hold the row that the other asks for.

A call holds one row and asks for another only between its two `SELECT ... FOR
UPDATE`, where it stands like an edge from its source to its destination.  So
sessions can come to a deadlock exactly when their transfers contain a cycle of
accounts.
-/

/-- The locks on account rows. -/
def accountRows : Set Lock :=
  Set.range Lock.accountRow

/-- The key of the locked row or entry. -/
def Lock.key : Lock -> ℤ
  | .accountRow id => id
  | .ledgerEntry id => id

/-! ## One call each -/

/-- Sessions that each run one call: the system, and the sessions that have
begun their call. -/
structure TransferStage (Session : Type) where
  system : LockingProtocol.System Tables Attempt InFlight Session
  begun : Set Session

namespace TransferStage

variable {Session : Type}

/-- Before any session has begun. -/
def opening (tables : Tables) : TransferStage Session :=
  ⟨⟨tables, fun _ => none, []⟩, ∅⟩

variable [DecidableEq Session]

/-- The session has begun its call. -/
def begin (stage : TransferStage Session) (session : Session) (request : Attempt) :
    TransferStage Session where
  system := { stage.system with
    inFlight := Function.update stage.system.inFlight session (some (request, InFlight.start request)) }
  begun := insert session stage.begun

/-- A session begins its call, once, or a call in flight takes a step. -/
inductive Step (calls : Session -> Attempt) (stage : TransferStage Session) :
    TransferStage Session -> Prop where
  | begin (session : Session) (idle : stage.system.inFlight session = none)
      (fresh : session ∉ stage.begun) : Step calls stage (stage.begin session (calls session))
  | proceed (next : LockingProtocol.System Tables Attempt InFlight Session)
      (step : concurrentTransfers.Step stage.system next)
      (noneBegins : forall session, stage.system.inFlight session = none -> next.inFlight session = none) :
      Step calls stage ⟨next, stage.begun⟩

/-- The states that the sessions reach, each running one call. -/
def Reachable (tables : Tables) (calls : Session -> Attempt) : TransferStage Session -> Prop :=
  Relation.ReflTransGen (Step calls) (opening tables)

end TransferStage

/-- A call to transfer money from the first account to the second, which differ
and exist, with an amount that passes the check. -/
structure Connects (tables : Tables) (request : Attempt) (source destination : ℤ) : Prop where
  fromSource : request.call.fromAccount = some source
  toDestination : request.call.toAccount = some destination
  distinct : source ≠ destination
  sourceStored : source ∈ tables.accountIds
  destinationStored : destination ∈ tables.accountIds
  passes : checkAmount request.call = .ok ()

/-- The call of some session connects the two accounts. -/
def Transfers {Session : Type} (tables : Tables) (calls : Session -> Attempt) (source destination : ℤ) :
    Prop :=
  Exists fun session => Connects tables (calls session) source destination

/-! ## What a call holds at each statement -/

/-- The keys whose rows have been locked before a statement. -/
def Point.locked : Point -> TransferCall -> List (Option ℤ)
  | .checkAmount, _ => []
  | .lockSource, _ => []
  | .lockDestination, call => [call.fromAccount]
  | _, call => [call.toAccount, call.fromAccount]

namespace InFlight

theorem mem_lock_iff (progress : InFlight) (committed : Tables) (id : Option ℤ) (locked : ℤ) :
    locked ∈ (progress.lock committed id).2 ↔
      locked ∈ progress.locked ∨ (some locked = id ∧ locked ∈ committed.accountIds) := by
  rcases progress.lock_cases committed id with ⟨absent, same⟩ | ⟨row, found, same⟩
  · rw [same]
    constructor
    · exact Or.inl
    · rintro (already | ⟨rfl, stored⟩)
      · exact already
      · have missing := (Tables.account?_eq_none_iff _ locked).mp absent
        rw [view_accountIds] at missing
        exact absurd stored missing
  · rcases Tables.select_eq_some found with ⟨rfl, foundRow⟩
    have stored : row.accountId ∈ committed.accountIds := by
      rw [← progress.view_accountIds committed]
      exact List.mem_map_of_mem (List.mem_of_find?_eq_some foundRow)
    rw [same, List.mem_cons]
    constructor
    · rintro (rfl | already)
      · exact Or.inr ⟨rfl, stored⟩
      · exact Or.inl already
    · rintro (already | ⟨equal, _⟩)
      · exact Or.inr already
      · exact Or.inl (Option.some.inj equal)

theorem mem_update {progress : InFlight} {committed : Tables} {id : Option ℤ}
    {expression : Account -> Option Numeric} {versions : List Account}
    (success : progress.update committed id expression = .ok versions) {written : ℤ}
    (member : written ∈ versions.map Account.accountId) :
    written ∈ progress.versions.map Account.accountId ∨
      (some written = id ∧ written ∈ committed.accountIds) := by
  rcases update_eq_ok_iff.mp success with ⟨_, rfl⟩ | ⟨row, version, found, assignedRow, rfl⟩
  · exact Or.inl member
  · rw [List.map_cons, List.mem_cons, assign_accountId assignedRow] at member
    rcases member with rfl | already
    · rcases Tables.select_eq_some found with ⟨same, foundRow⟩
      refine Or.inr ⟨same.symm, ?_⟩
      rw [← progress.view_accountIds committed]
      exact List.mem_map_of_mem (List.mem_of_find?_eq_some foundRow)
    · exact Or.inl already

/-- What a statement does to the locks on account rows. -/
inductive Locks (committed : Tables) (progress next : InFlight) : Prop where
  | passesCheck (before : progress.point = .checkAmount) (after : next.point = .lockSource)
      (passes : checkAmount progress.request.call = .ok ()) (held : next.held = progress.held)
  | locksSource (before : progress.point = .lockSource) (after : next.point = .lockDestination)
      (held : forall id, next.Holds (.accountRow id) ↔ progress.Holds (.accountRow id) ∨
        (some id = progress.request.call.fromAccount ∧ id ∈ committed.accountIds))
  | locksDestination (before : progress.point = .lockDestination) (after : next.point = .checkAccounts)
      (held : forall id, next.Holds (.accountRow id) ↔ progress.Holds (.accountRow id) ∨
        (some id = progress.request.call.toAccount ∧ id ∈ committed.accountIds))
  | locksNoOther (before : progress.point.locked = Point.checkAccounts.locked)
      (after : next.point.locked = Point.checkAccounts.locked)
      (held : forall id, next.Holds (.accountRow id) -> progress.Holds (.accountRow id) ∨
        ((some id = progress.request.call.fromAccount ∨ some id = progress.request.call.toAccount) ∧
          id ∈ committed.accountIds))

theorem locks_of_step {committed : Tables} {progress next : InFlight}
    (success : progress.step committed = .ok next) :
    next.request = progress.request ∧ Locks committed progress next := by
  cases step_eq_ok_iff.mp success with
  | checkAmount before passes => exact ⟨rfl, .passesCheck before rfl passes rfl⟩
  | lockSource before =>
      refine ⟨rfl, .locksSource before rfl fun id => ?_⟩
      simp only [Holds, mem_lock_iff, or_right_comm]
  | lockDestination before =>
      refine ⟨rfl, .locksDestination before rfl fun id => ?_⟩
      simp only [Holds, mem_lock_iff, or_right_comm]
  | checkAccounts before passes =>
      exact ⟨rfl, .locksNoOther (by rw [before]) rfl fun id => Or.inl⟩
  | debit before updated =>
      refine ⟨rfl, .locksNoOther (by rw [before]; rfl) rfl fun id holds => ?_⟩
      rcases holds with locked | written
      · exact Or.inl (Or.inl locked)
      · exact (mem_update updated written).imp Or.inr fun named => ⟨Or.inl named.1, named.2⟩
  | credit before updated =>
      refine ⟨rfl, .locksNoOther (by rw [before]; rfl) rfl fun id holds => ?_⟩
      rcases holds with locked | written
      · exact Or.inl (Or.inl locked)
      · exact (mem_update updated written).imp Or.inr fun named => ⟨Or.inr named.1, named.2⟩
  | finished before =>
      exact ⟨rfl, .locksNoOther (by rw [before]; rfl) (by rw [before]; rfl) fun id => Or.inl⟩
  | _ before => exact ⟨rfl, .locksNoOther (by rw [before]; rfl) rfl fun id => Or.inl⟩

/-- A call holds the rows of the accounts that it has selected for update, and
no other; past its first statement its amount has passed the check. -/
structure InOrder (committed : Tables) (request : Attempt) (progress : InFlight) : Prop where
  isRequest : progress.request = request
  rows : forall id, progress.Holds (.accountRow id) ↔
    id ∈ committed.accountIds ∧ some id ∈ progress.point.locked request.call
  passes : progress.point ≠ .checkAmount -> checkAmount request.call = .ok ()

theorem inOrder_start (committed : Tables) (request : Attempt) :
    InOrder committed request (start request) where
  isRequest := rfl
  rows := by
    intro id
    simp [Holds, start, Point.locked]
  passes := by
    intro impossible
    exact absurd rfl impossible

theorem InOrder.step {committed : Tables} {request : Attempt} {progress next : InFlight}
    (inOrder : InOrder committed request progress) (success : progress.step committed = .ok next) :
    InOrder committed request next := by
  rcases locks_of_step success with ⟨sameRequest, locks⟩
  have rows := inOrder.rows
  cases locks with
  | passesCheck before after passes held =>
      rw [inOrder.isRequest] at passes
      refine ⟨sameRequest.trans inOrder.isRequest, fun id => ?_, fun _ => passes⟩
      have same : next.Holds (.accountRow id) ↔ progress.Holds (.accountRow id) :=
        Set.ext_iff.mp held (.accountRow id)
      rw [same, rows, before, after]
      rfl
  | locksSource before after held =>
      refine ⟨sameRequest.trans inOrder.isRequest, fun id => ?_, fun _ => inOrder.passes ?_⟩
      · rw [held, rows, before, after, inOrder.isRequest]
        simp [Point.locked, and_comm]
      · rw [before]
        decide
  | locksDestination before after held =>
      refine ⟨sameRequest.trans inOrder.isRequest, fun id => ?_, fun _ => inOrder.passes ?_⟩
      · rw [held, rows, before, after, inOrder.isRequest]
        simp only [Point.locked, List.mem_cons, List.not_mem_nil, or_false]
        tauto
      · rw [before]
        decide
  | locksNoOther before after held =>
      refine ⟨sameRequest.trans inOrder.isRequest, fun id => ?_, fun _ => inOrder.passes ?_⟩
      · rw [after, ← before, ← rows]
        constructor
        · intro holds
          rcases held id holds with already | ⟨named, stored⟩
          · exact already
          · rw [rows, before]
            rw [inOrder.isRequest] at named
            refine ⟨stored, ?_⟩
            simpa only [Point.locked, List.mem_cons, List.not_mem_nil, or_false] using named.symm
        · intro holds
          have member : Lock.accountRow id ∈ progress.held := holds
          exact held_step success member
      · intro atCheck
        have nothing := congrFun (atCheck ▸ before) request.call
        cases nothing

/-- A call that asks for a row besides the one it holds stands between its two
selections. -/
theorem InOrder.demand {committed : Tables} {request : Attempt} {progress next : InFlight}
    (inOrder : InOrder committed request progress) (success : progress.step committed = .ok next)
    {held asked : ℤ} (holds : progress.Holds (.accountRow held))
    (asks : next.Holds (.accountRow asked)) (lacks : ¬ progress.Holds (.accountRow asked)) :
    Connects committed request held asked := by
  have distinct : held ≠ asked := by
    rintro rfl
    exact lacks holds
  rcases locks_of_step success with ⟨sameRequest, locks⟩
  rw [inOrder.rows] at holds
  cases locks with
  | passesCheck before after passes sameHeld =>
      rw [before] at holds
      cases holds.2
  | locksSource before after extended =>
      rw [before] at holds
      cases holds.2
  | locksDestination before after extended =>
      rcases (extended asked).mp asks with already | ⟨named, stored⟩
      · exact absurd already lacks
      · rw [inOrder.isRequest] at named
        rw [before] at holds
        have source := List.mem_singleton.mp holds.2
        refine ⟨source.symm, named.symm, distinct, holds.1, stored, inOrder.passes ?_⟩
        rw [before]
        decide
  | locksNoOther before after extended =>
      have same : next.point.locked request.call = progress.point.locked request.call := by
        rw [after, before]
      rw [(inOrder.step success).rows, same, ← inOrder.rows] at asks
      exact absurd asks lacks

theorem inOrder_of_isolated {committed : Tables} {request : Attempt} {progress : InFlight}
    (isolated : concurrentTransfers.Isolated committed (start request) progress) :
    InOrder committed request progress := by
  induction isolated with
  | refl => exact inOrder_start committed request
  | tail _ success inductionHypothesis => exact inductionHypothesis.step success

end InFlight

/-! ## A deadlock is a cycle of transfers -/

namespace TransferStage

variable {Session : Type} [DecidableEq Session]

theorem system_of_step {calls : Session -> Attempt} {stage next : TransferStage Session}
    (step : Step calls stage next) : concurrentTransfers.Step stage.system next.system := by
  cases step with
  | begin session idle fresh => exact LockingProtocol.Step.begin session (calls session) idle
  | proceed next step noneBegins => exact step

/-- Every call in flight is the one of its session. -/
theorem Reachable.call {tables : Tables} {calls : Session -> Attempt} {stage : TransferStage Session}
    (reachable : Reachable tables calls stage) {session : Session} {call : Attempt}
    {progress : InFlight} (running : stage.system.inFlight session = some (call, progress)) :
    call = calls session := by
  induction reachable generalizing progress with
  | refl => cases running
  | tail _ step inductionHypothesis =>
      rcases (system_of_step step).inFlight running with idle | ⟨earlier, ran⟩
      · cases step with
        | begin other otherIdle fresh =>
            by_cases same : session = other
            · subst same
              simp only [begin, Function.update_self, Option.some.injEq, Prod.mk.injEq] at running
              exact running.1.symm
            · simp only [begin, Function.update_of_ne same, idle, reduceCtorEq] at running
        | proceed next step noneBegins => cases (noneBegins session idle).symm.trans running
      · exact inductionHypothesis ran

theorem Reachable.system {tables : Tables} {calls : Session -> Attempt} {stage : TransferStage Session}
    (reachable : Reachable tables calls stage) :
    concurrentTransfers.Reachable tables stage.system := by
  induction reachable with
  | refl => exact Relation.ReflTransGen.refl
  | tail _ step inductionHypothesis => exact inductionHypothesis.tail (system_of_step step)

/-- No account appears or disappears. -/
theorem accountIds_of_step {system next : LockingProtocol.System Tables Attempt InFlight Session}
    (step : concurrentTransfers.Step system next) : next.store.accountIds = system.store.accountIds := by
  cases step with
  | begin session call idle => rfl
  | statement session call progress next running success free => rfl
  | commit session call progress running finished => exact progress.view_accountIds _
  | abort session call progress running => rfl

theorem Reachable.accountIds {tables : Tables} {calls : Session -> Attempt} {stage : TransferStage Session}
    (reachable : Reachable tables calls stage) :
    stage.system.store.accountIds = tables.accountIds := by
  induction reachable with
  | refl => rfl
  | tail _ step inductionHypothesis =>
      exact (accountIds_of_step (system_of_step step)).trans inductionHypothesis

theorem Reachable.inOrder {tables : Tables} {calls : Session -> Attempt} {stage : TransferStage Session}
    (reachable : Reachable tables calls stage) {session : Session} {call : Attempt}
    {progress : InFlight} (running : stage.system.inFlight session = some (call, progress)) :
    InFlight.InOrder stage.system.store (calls session) progress := by
  have own := reachable.call running
  subst own
  exact InFlight.inOrder_of_isolated (reachable.system.invariant.isolated session _ progress running)

/-- A session that holds one account row and asks for another, which is taken,
has a transfer between the two accounts. -/
theorem Reachable.transfers {tables : Tables} {calls : Session -> Attempt} {stage : TransferStage Session}
    (reachable : Reachable tables calls stage) {first second : ℤ}
    (demands : concurrentTransfers.Demands accountRows stage.system (.accountRow first)
      (.accountRow second)) : Transfers tables calls first second := by
  rcases demands with ⟨session, _, _, holds, asks, other, distinct, otherHolds⟩
  rcases holds with ⟨call, progress, running, held⟩
  rcases asks with ⟨_, _, next, ran, success, asked⟩
  cases running.symm.trans ran
  rcases otherHolds with ⟨otherCall, otherProgress, otherRunning, otherHeld⟩
  have lacks : ¬ progress.Holds (.accountRow second) := by
    intro already
    have free := reachable.system.invariant.exclusive session call progress running other otherCall
      otherProgress distinct otherRunning
    exact Set.disjoint_left.mp free already otherHeld
  have connects := (reachable.inOrder running).demand success held asked lacks
  have stored := reachable.accountIds
  exact ⟨session, { connects with
    sourceStored := stored ▸ connects.sourceStored
    destinationStored := stored ▸ connects.destinationStored }⟩

/-- A deadlock is made of transfers that form a cycle. -/
theorem Reachable.cycle {tables : Tables} {calls : Session -> Attempt} {stage : TransferStage Session}
    (reachable : Reachable tables calls stage)
    (deadlocked : concurrentTransfers.Deadlocked accountRows stage.system) :
    Exists fun account => Relation.TransGen (Transfers tables calls) account account := by
  rcases deadlocked.demands with ⟨key, cycle⟩
  refine ⟨key.key, Relation.TransGen.lift Lock.key ?_ _ _ cycle⟩
  rintro first second demands
  have counted := demands
  rcases counted with ⟨_, ⟨firstId, rfl⟩, ⟨secondId, rfl⟩, _⟩
  exact reachable.transfers demands

/-! ## A cycle of transfers deadlocks -/

/-- The next statement of a call in flight, when its locks are free. -/
theorem Reachable.statement {tables : Tables} {calls : Session -> Attempt} {stage : TransferStage Session}
    (reachable : Reachable tables calls stage) {session : Session} {call : Attempt}
    {progress next : InFlight} (running : stage.system.inFlight session = some (call, progress))
    (success : progress.step stage.system.store = .ok next)
    (free : concurrentTransfers.Free stage.system session next.held) :
    Reachable tables calls ⟨{ stage.system with
      inFlight := Function.update stage.system.inFlight session (some (call, next)) }, stage.begun⟩ := by
  have step := LockingProtocol.Step.statement session call progress next running success free
  refine Relation.ReflTransGen.tail reachable (Step.proceed _ step ?_)
  intro other idle
  have distinct : other ≠ session := by
    rintro rfl
    cases idle.symm.trans running
  exact (Function.update_of_ne distinct _ _).trans idle

end TransferStage

namespace InFlight

/-- A call that has passed its check. -/
def checked (request : Attempt) : InFlight :=
  { start request with point := .lockSource }

/-- A call that has selected its source row and not yet its destination row. -/
def between (tables : Tables) (request : Attempt) : InFlight :=
  let selected := (checked request).lock tables request.call.fromAccount
  { checked request with point := .lockDestination, source := selected.1, locked := selected.2 }

theorem step_start {request : Attempt} (tables : Tables)
    (passes : checkAmount request.call = .ok ()) :
    (start request).step tables = .ok (checked request) :=
  bind_eq_ok_iff.mpr ⟨(), passes, rfl⟩

theorem step_checked (tables : Tables) (request : Attempt) :
    (checked request).step tables = .ok (between tables request) := rfl

theorem inOrder_between {tables : Tables} {request : Attempt}
    (passes : checkAmount request.call = .ok ()) :
    InOrder tables request (between tables request) :=
  ((inOrder_start tables request).step (step_start tables passes)).step (step_checked tables request)

/-- Such a call holds its source row alone. -/
theorem held_between {tables : Tables} {request : Attempt} {source : ℤ}
    (passes : checkAmount request.call = .ok ()) (given : request.call.fromAccount = some source) :
    (between tables request).held ⊆ {Lock.accountRow source} := by
  rintro (id | id) holds
  · have named := (((inOrder_between passes).rows id).mp holds).2
    have same : some id = request.call.fromAccount := List.mem_singleton.mp named
    rw [given] at same
    exact congrArg Lock.accountRow (Option.some.inj same)
  · cases holds

end InFlight

namespace TransferStage

variable {Session : Type} [DecidableEq Session]

/-- A session that has not begun can come to stand between its selections when
nobody holds its source row. -/
theorem Reachable.enters {tables : Tables} {calls : Session -> Attempt} {stage : TransferStage Session}
    (reachable : Reachable tables calls stage) (store : stage.system.store = tables) {session : Session}
    (idle : stage.system.inFlight session = none) (fresh : session ∉ stage.begun)
    (passes : checkAmount (calls session).call = .ok ())
    (free : concurrentTransfers.Free stage.system session
      (InFlight.between tables (calls session)).held) :
    Reachable tables calls ⟨{ stage.system with
      inFlight := Function.update stage.system.inFlight session
        (some (calls session, InFlight.between tables (calls session))) }, insert session stage.begun⟩ := by
  have unaffected : forall {renewed : Option (Attempt × InFlight)} {keys : Set Lock},
      concurrentTransfers.Free stage.system session keys ->
      concurrentTransfers.Free { stage.system with
        inFlight := Function.update stage.system.inFlight session renewed } session keys := by
    intro renewed keys free other call progress distinct running
    exact free other call progress distinct ((Function.update_of_ne distinct _ _).symm.trans running)
  subst store
  have begun : Reachable _ calls (stage.begin session (calls session)) :=
    Relation.ReflTransGen.tail reachable (Step.begin session idle fresh)
  have checked := begun.statement (Function.update_self ..) (InFlight.step_start _ passes)
    (unaffected fun other call progress distinct running =>
      (free other call progress distinct running).mono_left (InFlight.held_step (InFlight.step_checked _ _)))
  simp only [begin, Function.update_idem] at checked
  have between := checked.statement (Function.update_self ..) (InFlight.step_checked _ _) (unaffected free)
  simpa only [Function.update_idem] using between

/-- The chosen sessions stand between their selections, all others are idle. -/
structure Standing (tables : Tables) (calls : Session -> Attempt) (chosen : ℤ -> Session)
    (accounts : List ℤ) (stage : TransferStage Session) : Prop where
  store : stage.system.store = tables
  stands : forall account, account ∈ accounts -> stage.system.inFlight (chosen account) =
    some (calls (chosen account), InFlight.between tables (calls (chosen account)))
  others : forall session, session ∉ accounts.map chosen ->
    stage.system.inFlight session = none ∧ session ∉ stage.begun

/-- The sessions chosen for some accounts, each of which has its account as the
source, can all come to stand between their selections. -/
theorem exists_standing {tables : Tables} {calls : Session -> Attempt} {chosen : ℤ -> Session}
    {following : ℤ -> ℤ} {accounts : List ℤ} (distinct : accounts.Nodup)
    (all : forall account, account ∈ accounts ->
      Connects tables (calls (chosen account)) account (following account)) :
    Exists fun stage => Reachable tables calls stage ∧ Standing tables calls chosen accounts stage := by
  induction accounts with
  | nil =>
      refine ⟨opening tables, Relation.ReflTransGen.refl, rfl, ?_, ?_⟩
      · intro account impossible
        cases impossible
      · intro session _
        exact ⟨rfl, Set.notMem_empty session⟩
  | cons account accounts inductionHypothesis =>
      rcases List.nodup_cons.mp distinct with ⟨new, distinctRest⟩
      rcases inductionHypothesis distinctRest fun other member => all other (List.mem_cons_of_mem _ member)
        with ⟨stage, reachable, standing⟩
      have here := all account List.mem_cons_self
      have apart : forall other, other ∈ accounts -> chosen other ≠ chosen account := by
        intro other member same
        have there := all other (List.mem_cons_of_mem _ member)
        have sameAccount := there.fromSource.symm.trans (same ▸ here.fromSource)
        exact new (Option.some.inj sameAccount ▸ member)
      have idle := standing.others (chosen account) (by
        intro member
        rcases List.mem_map.mp member with ⟨other, otherMember, same⟩
        exact apart other otherMember same)
      refine ⟨_, reachable.enters standing.store idle.1 idle.2 here.passes ?_, standing.store, ?_, ?_⟩
      · intro session call progress _ running
        have member : session ∈ accounts.map chosen := by
          by_contra absent
          cases (standing.others session absent).1.symm.trans running
        rcases List.mem_map.mp member with ⟨other, otherMember, rfl⟩
        cases (standing.stands other otherMember).symm.trans running
        have there := all other (List.mem_cons_of_mem _ otherMember)
        refine Set.disjoint_of_subset (InFlight.held_between here.passes here.fromSource)
          (InFlight.held_between there.passes there.fromSource) ?_
        rw [Set.disjoint_singleton]
        intro same
        exact new (Lock.accountRow.inj same ▸ otherMember)
      · intro other member
        rcases List.mem_cons.mp member with rfl | earlier
        · exact Function.update_self ..
        · exact (Function.update_of_ne (apart other earlier) _ _).trans (standing.stands other earlier)
      · intro session absent
        rw [List.map_cons, List.mem_cons, not_or] at absent
        rcases standing.others session absent.2 with ⟨sessionIdle, sessionFresh⟩
        refine ⟨(Function.update_of_ne absent.1 _ _).trans sessionIdle, ?_⟩
        rw [Set.mem_insert_iff, not_or]
        exact ⟨absent.1, sessionFresh⟩

end TransferStage

namespace InFlight

theorem holds_between {tables : Tables} {request : Attempt} {source destination : ℤ}
    (connects : Connects tables request source destination) :
    (between tables request).Holds (.accountRow source) := by
  apply ((inOrder_between connects.passes).rows source).mpr
  exact ⟨connects.sourceStored, List.mem_singleton.mpr connects.fromSource.symm⟩

theorem asks_between {tables : Tables} {request : Attempt} {source destination : ℤ}
    (connects : Connects tables request source destination) :
    Exists fun next => (between tables request).step tables = .ok next ∧
      next.Holds (.accountRow destination) := by
  have success : (between tables request).step tables = .ok _ := rfl
  have inOrder := (inOrder_between connects.passes).step success
  refine ⟨_, success, (inOrder.rows destination).mpr ⟨connects.destinationStored, ?_⟩⟩
  rw [← connects.toDestination]
  exact List.mem_cons_self

end InFlight

/-- Of the chosen sessions, each waits for the one of the account it transfers
to. -/
theorem TransferStage.Standing.waits {Session : Type} [DecidableEq Session] {tables : Tables}
    {calls : Session -> Attempt} {chosen : ℤ -> Session} {accounts : List ℤ}
    {stage : TransferStage Session} (standing : Standing tables calls chosen accounts stage)
    {first second third : ℤ} (firstMember : first ∈ accounts) (secondMember : second ∈ accounts)
    (connects : Connects tables (calls (chosen first)) first second)
    (next : Connects tables (calls (chosen second)) second third) :
    concurrentTransfers.Waits accountRows stage.system (chosen first) (chosen second) := by
  rcases InFlight.asks_between connects with ⟨progress, success, asks⟩
  refine ⟨?_, .accountRow second, ⟨second, rfl⟩, ?_, ?_⟩
  · intro same
    have sameSource := connects.fromSource.symm.trans (same ▸ next.fromSource)
    exact connects.distinct (Option.some.inj sameSource)
  · refine ⟨_, _, progress, standing.stands first firstMember, ?_, asks⟩
    rw [standing.store]
    exact success
  · exact ⟨_, _, standing.stands second secondMember, InFlight.holds_between next⟩

/-- Transfers that form a cycle can deadlock: the sessions of the cycle all
lock their source accounts first. -/
theorem exists_deadlock_of_cycle {Session : Type} [DecidableEq Session] {tables : Tables}
    {calls : Session -> Attempt} {account : ℤ}
    (cycle : Relation.TransGen (Transfers tables calls) account account) :
    Exists fun stage => TransferStage.Reachable tables calls stage ∧
      concurrentTransfers.Deadlocked accountRows stage.system := by
  let around : Set ℤ := { other | Relation.TransGen (Transfers tables calls) other account }
  have onward : forall other, other ∈ around -> Exists fun next => Exists fun session =>
      next ∈ around ∧ Connects tables (calls session) other next := by
    intro other leads
    rcases Relation.TransGen.head'_iff.mp leads with ⟨next, ⟨session, connects⟩, rest⟩
    refine ⟨next, session, ?_, connects⟩
    rcases Relation.reflTransGen_iff_eq_or_transGen.mp rest with rfl | rest
    · exact cycle
    · exact rest
  have finite : around.Finite := by
    apply (List.finite_toSet tables.accountIds).subset
    intro other leads
    rcases onward other leads with ⟨_, _, _, connects⟩
    exact connects.sourceStored
  rcases onward account cycle with ⟨_, someSession, _⟩
  have : Nonempty Session := ⟨someSession⟩
  choose! following chosen member connects using onward
  rcases TransferStage.exists_standing finite.toFinset.nodup_toList
    (fun other listed => connects other (finite.mem_toFinset.mp (Finset.mem_toList.mp listed))) with
    ⟨stage, reachable, standing⟩
  have listed : forall other, other ∈ around -> other ∈ finite.toFinset.toList := fun other leads =>
    Finset.mem_toList.mpr (finite.mem_toFinset.mpr leads)
  refine ⟨stage, reachable, ?_⟩
  have waits : forall other, other ∈ around -> Exists fun next => next ∈ around ∧
      concurrentTransfers.Waits accountRows stage.system (chosen other) (chosen next) := by
    intro other leads
    have next := member other leads
    exact ⟨following other, next, standing.waits (listed other leads) (listed _ next)
      (connects other leads) (connects _ next)⟩
  rcases exists_cycle_of_finite finite ⟨account, cycle⟩ waits with ⟨other, _, waitCycle⟩
  exact ⟨chosen other, Relation.TransGen.lift chosen (fun _ _ wait => wait) _ _ waitCycle⟩

/-- Sessions that each run one transfer can come to a deadlock on account rows
exactly when transfers among theirs lead in a cycle from account to account. -/
theorem deadlock_iff_cycle_of_transfers {Session : Type} [DecidableEq Session] (tables : Tables)
    (calls : Session -> Attempt) :
    (Exists fun stage => TransferStage.Reachable tables calls stage ∧
        concurrentTransfers.Deadlocked accountRows stage.system) ↔
      Exists fun account => Relation.TransGen (Transfers tables calls) account account := by
  constructor
  · rintro ⟨stage, reachable, deadlocked⟩
    exact reachable.cycle deadlocked
  · rintro ⟨account, cycle⟩
    exact exists_deadlock_of_cycle cycle

/-- A transfer of thirty cents in each direction. -/
def oppositeTransfers : Bool -> Attempt
  | true => thirtyCents
  | false => {
      call := { fromAccount := some 2, toAccount := some 1, amount := some (.finite ⟨30, 2⟩) }
      generated := ⟨some 2, none⟩ }

/-- Both accounts hold one dollar, and both transfers are covered. -/
def oneDollarEach : Database :=
  twoAccounts .oneDollar .oneDollar

theorem oppositeTransfers_cycle :
    Relation.TransGen (Transfers oneDollarEach.toTables oppositeTransfers) 1 1 := by
  have there : Transfers oneDollarEach.toTables oppositeTransfers 1 2 :=
    ⟨true, rfl, rfl, by decide, by decide +kernel, by decide +kernel, by decide +kernel⟩
  have back : Transfers oneDollarEach.toTables oppositeTransfers 2 1 :=
    ⟨false, rfl, rfl, by decide, by decide +kernel, by decide +kernel, by decide +kernel⟩
  exact (Relation.TransGen.single there).tail back

theorem oppositeTransfers_deadlock :
    Exists fun stage : TransferStage Bool =>
      TransferStage.Reachable oneDollarEach.toTables oppositeTransfers stage ∧
        concurrentTransfers.Deadlocked accountRows stage.system :=
  exists_deadlock_of_cycle oppositeTransfers_cycle

end CoreBank
