import CoreBank.Database.TransferMoney
import CoreBank.Foundation.NestedTransactions
import CoreBank.Foundation.Runs

namespace CoreBank

open Foundation

/-!
# The permission never leaves transferMoney

A session has a stack of open transaction levels: the transaction itself, its
savepoints, and inside a call of `transferMoney` the subtransaction of its
inner block.  Each level saves the tables and the value of
`database1.allow_balance_update` from its start.

The value `on` is set only inside the inner block, and no level that is open
around it has saved that value.  If the block ends normally it has set `off`;
if it raises, its level is undone before the handler sets `off` and raises
again.
-/

/-- The levels of a session: savepoints carry their name. -/
abbrev SessionNest : Type :=
  Nest (Option String) Backend

abbrev SessionProcedure (A : Type) : Type :=
  Procedure (Option String) Backend SqlError A

/-- Errors that interrupt a call from outside, such as a timeout: before each
statement, at the end of the inner block, in the handler, and after the block. -/
structure Faults where
  before : Point -> Option SqlError
  inHandler : Option SqlError
  afterBlock : Option SqlError

def Faults.none : Faults where
  before := fun _ => .none
  inHandler := .none
  afterBlock := .none

section Calls

open Procedure

variable (faults : Faults) (request : Attempt)

def statementAt {A : Type} (point : Point) (program : Sql A) : SessionProcedure A := do
  interrupt (faults.before point)
  statement program

/-- The statements of the inner block. -/
def nestedBlock : SessionProcedure Unit := do
  statementAt faults .allowUpdate (setConfig "on")
  statementAt faults .debit (debit request.call)
  statementAt faults .credit (credit request.call)
  statementAt faults .recordTransaction (recordTransaction request.call request.generated)
  statementAt faults .forbidUpdate (setConfig "off")
  interrupt (faults.before .finished)

/-- `EXCEPTION WHEN OTHERS`. -/
def nestedHandler (problem : SqlError) : SessionProcedure Unit :=
  if problem.caughtByOthers then do
    interrupt faults.inHandler
    statement (setConfig "off")
    throw problem
  else throw problem

/-- The procedure `transferMoney` inside the levels of a session. -/
def nestedTransferMoney : SessionProcedure Unit := do
  statementAt faults .checkAmount (StateT.lift (checkAmount request.call))
  let source <- statementAt faults .lockSource (lockAccount request.call.fromAccount)
  let destination <- statementAt faults .lockDestination (lockAccount request.call.toAccount)
  statementAt faults .checkAccounts (StateT.lift (checkAccounts request.call
    (source.map fun account => account.balance.toNumeric) (source.bind Account.currency)
    (destination.bind Account.currency)))
  block none (nestedBlock faults request) (nestedHandler faults)
  interrupt faults.afterBlock

/-! ## One call -/

/-- The permission is not given. -/
def Backend.Unprivileged (backend : Backend) : Prop :=
  backend.allowBalanceUpdate ≠ some "on"

variable {faults}

theorem ensures_statementAt {A : Type} {point : Point} {program : Sql A}
    (keeps : forall before value after, program before = .ok (value, after) ->
      before.Unprivileged -> after.Unprivileged) :
    Ensures (Nest.Guarded Backend.Unprivileged) (statementAt faults point program)
      (Nest.Guarded Backend.Unprivileged) (Nest.Guarded Backend.Unprivileged) :=
  (ensures_interrupt _ _).bind fun _ => ensures_statement keeps

theorem ensures_statementAt_sheltered {A : Type} {point : Point} {program : Sql A} :
    Ensures (Nest.Sheltered Backend.Unprivileged) (statementAt faults point program)
      (Nest.Sheltered Backend.Unprivileged) (Nest.Sheltered Backend.Unprivileged) :=
  (ensures_interrupt _ _).bind fun _ => ensures_statement_sheltered _ program

theorem unprivileged_setConfig_off {before after : Backend} {nothing : Unit}
    (success : setConfig "off" before = .ok (nothing, after)) : after.Unprivileged := by
  cases success
  exact off_ne_on

theorem ensures_nestedBlock :
    Ensures (Nest.Sheltered Backend.Unprivileged) (nestedBlock faults request)
      (Nest.Guarded Backend.Unprivileged) (Nest.Sheltered Backend.Unprivileged) := by
  unfold nestedBlock
  apply ensures_statementAt_sheltered.bind
  intro _
  apply ensures_statementAt_sheltered.bind
  intro _
  apply ensures_statementAt_sheltered.bind
  intro _
  apply ensures_statementAt_sheltered.bind
  intro _
  apply Ensures.bind
  · apply (ensures_interrupt _ _).bind
    intro _
    exact ensures_statement_restores fun _ _ _ success => unprivileged_setConfig_off success
  · intro _
    exact (ensures_interrupt _ _).weaken (fun _ both => both.1) fun _ both => both.2

theorem ensures_nestedHandler (problem : SqlError) :
    Ensures (Nest.Guarded Backend.Unprivileged) (nestedHandler faults problem)
      (Nest.Guarded Backend.Unprivileged) (Nest.Guarded Backend.Unprivileged) := by
  unfold nestedHandler
  split_ifs
  · apply (ensures_interrupt _ _).bind
    intro _
    apply (ensures_statement fun _ _ _ success _ => unprivileged_setConfig_off success).bind
    intro _
    exact ensures_throw _ _ problem
  · exact ensures_throw _ _ problem

theorem unprivileged_lift {A : Type} {program : Except SqlError A} {before after : Backend} {value : A}
    (success : (StateT.lift program : Sql A) before = .ok (value, after))
    (unprivileged : before.Unprivileged) : after.Unprivileged := by
  rcases bind_eq_ok_iff.mp success with ⟨_, _, final⟩
  cases final
  exact unprivileged

theorem unprivileged_lockAccount {id : Option ℤ} {before after : Backend} {found : Option Account}
    (success : lockAccount id before = .ok (found, after)) (unprivileged : before.Unprivileged) :
    after.Unprivileged := by
  cases success
  exact unprivileged

/-- However a call ends, no value of the session is the permission. -/
theorem ensures_nestedTransferMoney :
    Ensures (Nest.Guarded Backend.Unprivileged) (nestedTransferMoney faults request)
      (Nest.Guarded Backend.Unprivileged) (Nest.Guarded Backend.Unprivileged) := by
  unfold nestedTransferMoney
  apply (ensures_statementAt fun _ _ _ success => unprivileged_lift success).bind
  intro _
  apply (ensures_statementAt fun _ _ _ success => unprivileged_lockAccount success).bind
  intro source
  apply (ensures_statementAt fun _ _ _ success => unprivileged_lockAccount success).bind
  intro destination
  apply (ensures_statementAt fun _ _ _ success => unprivileged_lift success).bind
  intro _
  apply (Ensures.block (ensures_nestedBlock request) ensures_nestedHandler).bind
  intro _
  exact ensures_interrupt _ _

/-- Without an interruption the statements add up to the procedure. -/
theorem follows_transferMoney :
    Follows (nestedTransferMoney Faults.none request)
      (transferMoney request.call request.generated) := by
  have bind : forall {A B : Type} {first : SessionProcedure A} {program : Sql A}
      {rest : A -> SessionProcedure B} {continuation : A -> Sql B}, Follows first program ->
      (forall value, Follows (rest value) (continuation value)) ->
      Follows (first >>= rest) (program >>= continuation) :=
    fun follows continues => follows.bind continues
  have statement : forall {A : Type} (point : Point) (program : Sql A),
      Follows (statementAt Faults.none point program) program :=
    fun _ program => follows_statement program
  have block : Follows (nestedBlock Faults.none request)
      (transferBlock request.call request.generated) := by
    unfold nestedBlock
    refine bind (statement .allowUpdate _) fun _ => ?_
    refine bind (statement .debit _) fun _ => ?_
    refine bind (statement .credit _) fun _ => ?_
    refine bind (statement .recordTransaction _) fun _ => ?_
    exact (statement .forbidUpdate _).discard
  have handler : forall problem, Follows (nestedHandler Faults.none problem)
      (transferHandler problem) := by
    intro problem nest
    unfold nestedHandler
    rw [transferHandler_error]
    cases problem.caughtByOthers with
    | true => exact ⟨rfl, rfl⟩
    | false => exact ⟨rfl, rfl⟩
  unfold nestedTransferMoney transferMoney
  refine bind (statement .checkAmount _) fun _ => ?_
  refine bind (statement .lockSource _) fun source => ?_
  refine bind (statement .lockDestination _) fun destination => ?_
  refine bind (statement .checkAccounts _) fun _ => ?_
  have whole : handled (transferBlock request.call request.generated) transferHandler =
      exceptionBlock (transferBlock request.call request.generated) transferHandler := by
    funext current
    unfold handled exceptionBlock
    cases transferBlock request.call request.generated current with
    | ok result => rfl
    | error problem => rfl
  apply Follows.discard
  rw [← whole]
  exact Follows.block none block handler

end Calls

/-! ## Client sessions -/

/-- Whether a transaction block is open, and whether an error has ended it. -/
inductive TransactionBlock where
  | idle
  | active
  | failed
  deriving DecidableEq, Repr

/-- A client session.  The parameter has its value from outside transactions
when no level is open. -/
structure Session where
  block : TransactionBlock
  nest : SessionNest

/-- What a client sends, and the tables that other sessions leave visible. -/
inductive SessionCommand where
  | begin
  | commit
  | rollback
  | savepoint (name : String)
  | rollbackTo (name : String)
  | release (name : String)
  | statement (statement : Statement) (fault : Option SqlError)
  | transferMoney (request : Attempt) (faults : Faults)
  | elsewhere (visible : Database)

namespace Session

/-- A session after connecting. -/
def connected (database : Database) (outside : Option String) : Session where
  block := .idle
  nest := ⟨⟨database, outside⟩, []⟩

/-- The value of `database1.allow_balance_update`. -/
def allowBalanceUpdate (session : Session) : Option String :=
  session.nest.current.allowBalanceUpdate

/-- A commit keeps the tables; a parameter set for the transaction gets its
value from before back. -/
def settle (before current : Backend) : Backend where
  database := current.database
  allowBalanceUpdate := before.allowBalanceUpdate

/-- Run a client statement: in a transaction of its own if no block is open, and
not at all in a block that has failed.  An error takes the innermost level back
to its start. -/
def execute (session : Session) (procedure : SessionProcedure Unit) : Session :=
  match session.block with
  | .idle =>
      match procedure (session.nest.enter none) with
      | .ok _ nest => ⟨.idle, nest.commit settle⟩
      | .error _ nest => ⟨.idle, nest.rollback⟩
  | .active =>
      match procedure session.nest with
      | .ok _ nest => ⟨.active, nest⟩
      | .error _ nest => ⟨.failed, nest.reset⟩
  | .failed => session

/-- Go to a nest that a command names by a savepoint; a missing savepoint is an
error. -/
def goto (session : Session) : Option SessionNest -> Session
  | none => ⟨.failed, session.nest.reset⟩
  | some nest => ⟨.active, nest⟩

def step (session : Session) : SessionCommand -> Session
  | .begin =>
      match session.block with
      | .idle => ⟨.active, session.nest.enter none⟩
      | _ => session
  | .commit =>
      match session.block with
      | .idle => session
      | .active => ⟨.idle, session.nest.commit settle⟩
      | .failed => ⟨.idle, session.nest.rollback⟩
  | .rollback =>
      match session.block with
      | .idle => session
      | _ => ⟨.idle, session.nest.rollback⟩
  | .savepoint name =>
      match session.block with
      | .active => ⟨.active, session.nest.enter (some name)⟩
      | _ => session
  | .rollbackTo name =>
      match session.block with
      | .idle => session
      | _ => session.goto (session.nest.rollbackTo (some name))
  | .release name =>
      match session.block with
      | .active => session.goto (session.nest.release (some name))
      | _ => session
  | .statement statement fault =>
      session.execute do
        Procedure.interrupt fault
        Procedure.statement (perform statement)
  | .transferMoney request faults => session.execute (nestedTransferMoney faults request)
  | .elsewhere visible =>
      { session with
        nest := { session.nest with current := { session.nest.current with database := visible } } }

/-! ## The permission stays inside -/

theorem unprivileged_perform {statement : Statement} {before after : Backend} {nothing : Unit}
    (success : perform statement before = .ok (nothing, after)) (unprivileged : before.Unprivileged) :
    after.Unprivileged := by
  rcases perform_eq_ok_iff.mp success with ⟨result, _, rfl⟩
  exact unprivileged

theorem execute_guarded {session : Session} (guarded : session.nest.Guarded Backend.Unprivileged)
    {procedure : SessionProcedure Unit}
    (ensures : Procedure.Ensures (Nest.Guarded Backend.Unprivileged) procedure
      (Nest.Guarded Backend.Unprivileged) (Nest.Guarded Backend.Unprivileged)) :
    (session.execute procedure).nest.Guarded Backend.Unprivileged := by
  unfold execute
  cases session.block with
  | idle =>
      have outcome := ensures _ (guarded.enter none)
      cases ended : procedure (session.nest.enter none) with
      | ok nothing nest =>
          rw [ended] at outcome
          exact outcome.commit fun _ _ before => before
      | error problem nest =>
          rw [ended] at outcome
          exact outcome.rollback
  | active =>
      have outcome := ensures _ guarded
      cases ended : procedure session.nest with
      | ok nothing nest =>
          rw [ended] at outcome
          exact outcome
      | error problem nest =>
          rw [ended] at outcome
          exact outcome.reset
  | failed => exact guarded

theorem goto_guarded {session : Session} (guarded : session.nest.Guarded Backend.Unprivileged)
    {target : Option SessionNest}
    (found : forall nest, target = some nest -> nest.Guarded Backend.Unprivileged) :
    (session.goto target).nest.Guarded Backend.Unprivileged := by
  cases target with
  | none => exact guarded.reset
  | some nest => exact found nest rfl

/-- No command brings the permission into a session. -/
theorem step_guarded {session : Session} (guarded : session.nest.Guarded Backend.Unprivileged)
    (command : SessionCommand) : (session.step command).nest.Guarded Backend.Unprivileged := by
  cases command with
  | begin =>
      unfold step
      cases session.block with
      | idle => exact guarded.enter none
      | active => exact guarded
      | failed => exact guarded
  | commit =>
      unfold step
      cases session.block with
      | idle => exact guarded
      | active => exact guarded.commit fun _ _ before => before
      | failed => exact guarded.rollback
  | rollback =>
      unfold step
      cases session.block with
      | idle => exact guarded
      | active => exact guarded.rollback
      | failed => exact guarded.rollback
  | savepoint name =>
      unfold step
      cases session.block with
      | idle => exact guarded
      | active => exact guarded.enter (some name)
      | failed => exact guarded
  | rollbackTo name =>
      unfold step
      cases session.block with
      | idle => exact guarded
      | active => exact goto_guarded guarded fun _ found => guarded.rollbackTo found
      | failed => exact goto_guarded guarded fun _ found => guarded.rollbackTo found
  | release name =>
      unfold step
      cases session.block with
      | idle => exact guarded
      | active => exact goto_guarded guarded fun _ found => guarded.release found
      | failed => exact guarded
  | statement statement fault =>
      apply execute_guarded guarded
      apply (Procedure.ensures_interrupt _ _).bind
      intro _
      exact Procedure.ensures_statement fun _ _ _ success => unprivileged_perform success
  | transferMoney request faults =>
      exact execute_guarded guarded (ensures_nestedTransferMoney request)
  | elsewhere visible => exact ⟨guarded.current, guarded.saved⟩

end Session

/-- Between the commands of a session that never assigns the parameter itself,
the permission is never given, so every update that lists `balance` and
touches a row of the tables it sees raises. -/
theorem unprivileged_of_commands (opening : Database) (outside : Option String)
    (unassigned : outside ≠ some "on") (commands : List SessionCommand) :
    (run Session.step (.connected opening outside) commands).allowBalanceUpdate ≠ some "on" ∧
    forall (visible : Database) (selected : Account -> Bool) (set : AccountSet),
      set.balance.isSome = true ->
      (Exists fun account => account ∈ visible.accounts ∧ selected account = true) ->
      Exists fun problem => (Statement.updateAccounts selected set).execute
        (run Session.step (.connected opening outside) commands).allowBalanceUpdate visible =
          .error problem := by
  have initially : (Session.connected opening outside).nest.Guarded Backend.Unprivileged := by
    refine ⟨unassigned, fun level impossible => ?_⟩
    cases impossible
  have guarded := invariant_of_step
    (fun session : Session => session.nest.Guarded Backend.Unprivileged)
    (fun _ command guarded => Session.step_guarded guarded command) initially commands
  refine ⟨guarded.current, ?_⟩
  rintro visible selected set listed ⟨account, member, touched⟩
  exact updateAccounts_raises guarded.current listed member touched

/-- A transfer is cancelled between its debit and its credit and caught by a
savepoint. -/
def cancelledTransfer : List SessionCommand :=
  [.begin, .savepoint "before",
    .transferMoney thirtyCents
      { Faults.none with before := fun point => if point = .credit then some .queryCanceled else none },
    .rollbackTo "before"]

theorem unprivileged_of_commands_cancelledTransfer :
    Exists fun problem => (Statement.updateAccounts (fun _ => true)
        (setBalanceTo fun _ => some Numeric.zero)).execute
      (run Session.step (.connected (twoAccounts (.cents ⟨100, by decide⟩) .zero) none)
        cancelledTransfer).allowBalanceUpdate (twoAccounts (.cents ⟨100, by decide⟩) .zero) =
      .error problem := by
  have unassigned : (none : Option String) ≠ some "on" := by decide
  have raises := (unprivileged_of_commands (twoAccounts (.cents ⟨100, by decide⟩) .zero) none
    unassigned cancelledTransfer).2
  apply raises
  · rfl
  · exact ⟨_, List.mem_cons_self, rfl⟩

end CoreBank
