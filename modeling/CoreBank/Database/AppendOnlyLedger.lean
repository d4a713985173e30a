import CoreBank.Database.TransferMoney
import CoreBank.Foundation.Changes
import CoreBank.Foundation.Runs
import Mathlib.Logic.Function.Basic

namespace CoreBank

open Foundation

/-!
# The ledger only grows

Sessions run transactions side by side.  A statement sees the committed tables
with the changes of its own transaction; it either takes effect as a whole or
changes nothing and fails the transaction, which then goes back to a savepoint
or is undone.  A commit applies the changes to the tables as they are committed
by then.  Row locks are left out: they only make some of
these runs impossible, and a commit that would break a constraint, which they
prevent, is undone here.

The row triggers stop every update and every deletion of a ledger row.  They
do not fire for `TRUNCATE`, which also reaches the ledger through a foreign key
when it is told to `CASCADE`.
-/

/-! ## Data-changing statements -/

inductive TableName where
  | customers
  | accounts
  | transactions
  deriving DecidableEq, Repr

namespace TableName

/-- The tables with a foreign key to this one. -/
def referencing : TableName -> List TableName
  | .customers => [.accounts]
  | .accounts => [.transactions]
  | .transactions => []

/-- The tables that `CASCADE` adds to this one. -/
def cascaded : TableName -> List TableName
  | .customers => [.customers, .accounts, .transactions]
  | .accounts => [.accounts, .transactions]
  | .transactions => [.transactions]

end TableName

/-- The tables that a `TRUNCATE` empties, if it is not refused: without
`CASCADE` every referencing table has to be among the named ones. -/
def truncated (tables : List TableName) (cascade : Bool) : Option (List TableName) :=
  if cascade then some (tables.flatMap TableName.cascaded)
  else if tables.all fun table => table.referencing.all fun other => decide (other ∈ tables) then
    some tables
  else none

/-- Empty some tables. -/
def Tables.empty (tables : Tables) (names : List TableName) : Tables where
  customers := if .customers ∈ names then [] else tables.customers
  accounts := if .accounts ∈ names then [] else tables.accounts
  transactions := if .transactions ∈ names then [] else tables.transactions

/-- A data-changing statement of a session, with the value of
`database1.allow_balance_update` that it sees. -/
inductive DataChange where
  | sql (allowUpdate : Option String) (statement : Statement)
  | transferMoney (allowUpdate : Option String) (call : TransferCall) (generated : Generated)
  | truncate (tables : List TableName) (cascade : Bool)

namespace DataChange

/-- The tables after the statement, unless it fails. -/
def execute (change : DataChange) (database : Database) : Option Database :=
  match change with
  | .sql allowUpdate statement => (statement.execute allowUpdate database).toOption.map Prod.fst
  | .transferMoney allowUpdate call generated =>
      (callTransferMoneyUnder allowUpdate call generated database).toOption
  | .truncate tables cascade =>
      (truncated tables cascade).bind fun names => (database.toTables.empty names).check.toOption

/-- The statement truncates the ledger, directly or through a reference, and
finds a row there. -/
def emptiesLedger (change : DataChange) (database : Database) : Bool :=
  match change with
  | .truncate tables cascade =>
      match truncated tables cascade with
      | some names => decide (.transactions ∈ names) && decide (database.transactions ≠ [])
      | none => false
  | _ => false

end DataChange

/-! ## Sessions -/

/-- The changes of a transaction to the three tables. -/
structure TableChanges where
  customers : Change Customer
  accounts : Change Account
  transactions : Change Transaction

namespace TableChanges

def none : TableChanges :=
  ⟨Change.none, Change.none, Change.none⟩

def between (before after : Tables) : TableChanges where
  customers := Change.between before.customers after.customers
  accounts := Change.between before.accounts after.accounts
  transactions := Change.between before.transactions after.transactions

def apply (changes : TableChanges) (tables : Tables) : Tables where
  customers := changes.customers.apply tables.customers
  accounts := changes.accounts.apply tables.accounts
  transactions := changes.transactions.apply tables.transactions

end TableChanges

/-- What a transaction has done so far, and whether one of its statements has
emptied the ledger. -/
structure Work where
  changes : TableChanges
  emptiesLedger : Bool

def Work.nothing : Work where
  changes := TableChanges.none
  emptiesLedger := false

/-- An open transaction, with what it had done at each of its savepoints.  Once
a command has failed, it can only end or go back to one of them. -/
structure OpenTransaction where
  work : Work
  savepoints : List Work
  failed : Bool

inductive TransactionCommand where
  | begin
  | execute (change : DataChange)
  | savepoint
  | rollbackTo (savepoint : ℕ)
  | commit
  | rollback

structure Sessions (Session : Type*) where
  committed : Database
  transaction : Session -> Option OpenTransaction

namespace Work

/-- Execute a statement on the tables that the transaction sees. -/
def execute (work : Work) (change : DataChange) (committed : Database) : Option Work := do
  let view <- (work.changes.apply committed.toTables).check.toOption
  let after <- change.execute view
  pure {
    changes := TableChanges.between committed.toTables after.toTables
    emptiesLedger := work.emptiesLedger || change.emptiesLedger view }

/-- The committed tables after a commit, if they satisfy the schema. -/
def publish (work : Work) (committed : Database) : Option Database :=
  (work.changes.apply committed.toTables).check.toOption

end Work

/-- The transaction with this work; none is that of a command that fails. -/
def OpenTransaction.goOn (transaction : OpenTransaction) : Option Work -> OpenTransaction
  | some work => { transaction with work }
  | none => { transaction with failed := true }

namespace Sessions

variable {Session : Type*} [DecidableEq Session]

def opening (database : Database) : Sessions Session where
  committed := database
  transaction := fun _ => none

/-- Change the transaction of one session. -/
def set (sessions : Sessions Session) (session : Session) (transaction : Option OpenTransaction) :
    Sessions Session :=
  { sessions with transaction := Function.update sessions.transaction session transaction }

/-- The command of a session that is in a transaction. -/
def proceed (sessions : Sessions Session) (session : Session) (transaction : OpenTransaction) :
    TransactionCommand -> Sessions Session
  | .begin => sessions
  | .execute change =>
      if transaction.failed then sessions
      else sessions.set session
        (some (transaction.goOn (transaction.work.execute change sessions.committed)))
  | .savepoint =>
      if transaction.failed then sessions
      else sessions.set session
        (some { transaction with savepoints := transaction.work :: transaction.savepoints })
  | .rollbackTo savepoint =>
      match transaction.savepoints.drop savepoint with
      | work :: earlier =>
          sessions.set session (some { work, savepoints := work :: earlier, failed := false })
      | [] => sessions.set session (some { transaction with failed := true })
  | .commit =>
      if transaction.failed then sessions.set session none
      else
        match transaction.work.publish sessions.committed with
        | some committed => { sessions.set session none with committed }
        | none => sessions.set session none
  | .rollback => sessions.set session none

/-- One command of one session; a statement outside a transaction is written as
a transaction of its own. -/
def step (sessions : Sessions Session) (input : Session × TransactionCommand) : Sessions Session :=
  match sessions.transaction input.1, input.2 with
  | none, .begin => sessions.set input.1 (some { work := Work.nothing, savepoints := [], failed := false })
  | none, _ => sessions
  | some transaction, command => sessions.proceed input.1 transaction command

end Sessions

/-- All committed ledger rows are still there as they were, and the accounts
that they name exist. -/
structure KeepsLedger (before after : Database) : Prop where
  rows : before.transactions ⊆ after.transactions
  accounts : forall row, row ∈ before.transactions ->
    after.Refers row.fromAccount ∧ after.Refers row.toAccount

/-- The committed ledger of one state is kept in another. -/
def Sessions.Keep {Session : Type*} (before after : Sessions Session) : Prop :=
  KeepsLedger before.committed after.committed

/-- The ledger is kept between any two points of a run. -/
def AppendOnly {Session : Type*} [DecidableEq Session] (database : Database)
    (inputs : List (Session × TransactionCommand)) : Prop :=
  forall earlier between later, inputs = earlier ++ between ++ later ->
    (run Sessions.step (Sessions.opening database) earlier).Keep
      (run Sessions.step (Sessions.opening database) (earlier ++ between))

/-- The command does not commit a transaction that has emptied the ledger; the
commit of a failed one is a rollback. -/
def CommitsNoTruncation {Session : Type*} (sessions : Sessions Session)
    (input : Session × TransactionCommand) : Prop :=
  input.2 = .commit -> forall transaction, sessions.transaction input.1 = some transaction ->
    transaction.failed = false -> transaction.work.emptiesLedger = false

/-! ## One statement -/

theorem KeepsLedger.of_subset {before after : Database}
    (rows : before.transactions ⊆ after.transactions) : KeepsLedger before after where
  rows := rows
  accounts row member :=
    ⟨after.satisfies.transactionsFromAccountFkey row (rows member),
      after.satisfies.transactionsToAccountFkey row (rows member)⟩

theorem KeepsLedger.refl (database : Database) : KeepsLedger database database :=
  KeepsLedger.of_subset (List.Subset.refl _)

theorem KeepsLedger.trans {first second third : Database} (earlier : KeepsLedger first second)
    (later : KeepsLedger second third) : KeepsLedger first third :=
  KeepsLedger.of_subset (List.Subset.trans earlier.rows later.rows)

theorem modify_ne_ok (row changed : Transaction) : row.modify ≠ .ok changed := by
  intro impossible
  cases impossible

theorem preventTransactionModifications_ne_ok (_row : Transaction) :
    preventTransactionModifications ≠ .ok () := by
  intro impossible
  cases impossible

/-- A statement keeps the ledger rows that are in the tables it checks at its
end. -/
theorem subset_of_bind_check {A : Type} {rows : Except SqlError A} {tables : A -> Tables}
    {inserted : A -> List Account} {result : Database × List Account} {before : List Transaction}
    (success : (rows >>= fun value => (tables value).check >>= fun after =>
      Except.ok (after, inserted value)) = .ok result)
    (kept : forall value, rows = .ok value -> before ⊆ (tables value).transactions) :
    before ⊆ result.1.transactions := by
  rcases bind_eq_ok_iff.mp success with ⟨value, isRows, success⟩
  rcases bind_eq_ok_iff.mp success with ⟨after, checked, final⟩
  cases final
  rw [Tables.toTables_of_check checked]
  exact kept value isRows

/-- No row-level statement removes or changes a ledger row. -/
theorem Statement.transactions_subset {statement : Statement} {allowUpdate : Option String}
    {database : Database} {result : Database × List Account}
    (success : statement.execute allowUpdate database = .ok result) :
    database.transactions ⊆ result.1.transactions := by
  have same : database.transactions ⊆ database.transactions := List.Subset.refl _
  cases statement with
  | insertCustomers inputs => exact subset_of_bind_check success fun _ _ => same
  | upsertCustomers inputs key selected set =>
      rcases bind_eq_ok_iff.mp success with ⟨rows, _, success⟩
      exact subset_of_bind_check success fun _ _ => same
  | updateCustomers selected set => exact subset_of_bind_check success fun _ _ => same
  | deleteCustomers selected => exact subset_of_bind_check success fun _ _ => same
  | insertAccounts inputs => exact subset_of_bind_check success fun _ _ => same
  | upsertAccounts inputs selected set =>
      rcases bind_eq_ok_iff.mp success with ⟨rows, _, success⟩
      exact subset_of_bind_check success fun _ _ => same
  | updateAccounts selected set => exact subset_of_bind_check success fun _ _ => same
  | deleteAccounts selected => exact subset_of_bind_check success fun _ _ => same
  | insertTransactions inputs =>
      exact subset_of_bind_check success fun _ _ => List.subset_append_left _ _
  | upsertTransactions inputs selected =>
      rcases bind_eq_ok_iff.mp success with ⟨rows, _, success⟩
      refine subset_of_bind_check success fun upserted isUpserted => ?_
      have kept := RowTable.upsertRows_of_raises (fun row _ => modify_ne_ok row) isUpserted
      have rowsKept := List.map_subset Prod.fst kept
      simpa only [untouched, List.map_map, Function.comp_def, List.map_id'] using rowsKept
  | updateTransactions selected =>
      refine subset_of_bind_check success fun rows updated => ?_
      rw [RowTable.updateRows_of_raises modify_ne_ok updated]
      exact same
  | deleteTransactions selected =>
      refine subset_of_bind_check success fun rows deleted => ?_
      rw [RowTable.deleteRows_of_raises preventTransactionModifications_ne_ok deleted]
      exact same

theorem eq_ok_of_toOption {Error A : Type} {outcome : Except Error A} {value : A}
    (success : outcome.toOption = some value) : outcome = .ok value := by
  cases outcome with
  | error problem => cases success
  | ok other =>
      cases success
      rfl

/-- A statement that does not empty the ledger keeps its rows. -/
theorem DataChange.transactions_subset {change : DataChange} {view after : Database}
    (success : change.execute view = some after) (harmless : change.emptiesLedger view = false) :
    view.transactions ⊆ after.transactions := by
  cases change with
  | sql allowUpdate statement =>
      rcases Option.map_eq_some_iff.mp success with ⟨result, executed, rfl⟩
      exact Statement.transactions_subset (eq_ok_of_toOption executed)
  | transferMoney allowUpdate call generated =>
      rcases callTransferMoneyUnder_eq_ok_iff.mp (eq_ok_of_toOption success) with ⟨accepted, rfl⟩
      exact List.subset_append_left _ _
  | truncate tables cascade =>
      rcases Option.bind_eq_some_iff.mp success with ⟨names, reached, checked⟩
      simp only [emptiesLedger, reached, Bool.and_eq_false_iff, decide_eq_false_iff_not,
        not_not] at harmless
      rw [Tables.toTables_of_check (eq_ok_of_toOption checked), Tables.empty]
      rcases harmless with untouched | alreadyEmpty
      · simp only [untouched, if_false]
        exact List.Subset.refl _
      · rw [alreadyEmpty]
        exact List.nil_subset _

/-! ## Runs of the sessions -/

/-- Unless it has emptied the ledger, a transaction removes no ledger row. -/
def Work.Harmless (work : Work) : Prop :=
  work.emptiesLedger = false -> work.changes.transactions.removed = []

theorem Work.harmless_nothing : Work.nothing.Harmless :=
  fun _ => rfl

theorem Work.Harmless.execute {work next : Work} (harmless : work.Harmless) {change : DataChange}
    {committed : Database} (success : work.execute change committed = some next) : next.Harmless := by
  rcases Option.bind_eq_some_iff.mp success with ⟨view, checked, success⟩
  rcases Option.bind_eq_some_iff.mp success with ⟨after, executed, final⟩
  cases final
  intro kept
  rw [Bool.or_eq_false_iff] at kept
  have sees : view.transactions = work.changes.transactions.apply committed.transactions :=
    congrArg Tables.transactions (Tables.toTables_of_check (eq_ok_of_toOption checked))
  have before := Change.subset_apply (harmless kept.1) committed.transactions
  rw [← sees] at before
  exact Change.removed_between
    (List.Subset.trans before (DataChange.transactions_subset executed kept.2))

/-- A commit of such a transaction keeps the ledger. -/
theorem Work.Harmless.publish {work : Work} (harmless : work.Harmless)
    (kept : work.emptiesLedger = false) {committed result : Database}
    (success : work.publish committed = some result) : KeepsLedger committed result := by
  apply KeepsLedger.of_subset
  rw [Tables.toTables_of_check (eq_ok_of_toOption success)]
  exact Change.subset_apply (harmless kept) committed.transactions

def OpenTransaction.Harmless (transaction : OpenTransaction) : Prop :=
  transaction.work.Harmless ∧ forall work, work ∈ transaction.savepoints -> work.Harmless

theorem OpenTransaction.Harmless.goOn {transaction : OpenTransaction} (harmless : transaction.Harmless)
    {outcome : Option Work} (executed : forall work, outcome = some work -> work.Harmless) :
    (transaction.goOn outcome).Harmless := by
  cases outcome with
  | none => exact harmless
  | some work => exact ⟨executed work rfl, harmless.2⟩

namespace Sessions

variable {Session : Type*} [DecidableEq Session]

/-- All open transactions are harmless, unless they have emptied the ledger. -/
def Harmless (sessions : Sessions Session) : Prop :=
  forall session transaction, sessions.transaction session = some transaction -> transaction.Harmless

omit [DecidableEq Session] in
theorem harmless_opening (database : Database) : (opening database : Sessions Session).Harmless := by
  intro session transaction impossible
  cases impossible

theorem Harmless.set {sessions : Sessions Session} (harmless : sessions.Harmless) (session : Session)
    {transaction : Option OpenTransaction}
    (fits : forall kept, transaction = some kept -> kept.Harmless) :
    (sessions.set session transaction).Harmless := by
  intro other kept present
  by_cases same : other = session
  · subst same
    simp only [Sessions.set, Function.update_self] at present
    exact fits kept present
  · simp only [Sessions.set, Function.update_of_ne same] at present
    exact harmless other kept present

theorem Harmless.end {sessions : Sessions Session} (harmless : sessions.Harmless) (session : Session) :
    (sessions.set session none).Harmless := by
  apply harmless.set session
  intro kept impossible
  cases impossible

theorem Harmless.proceed {sessions : Sessions Session} (harmless : sessions.Harmless)
    {session : Session} {transaction : OpenTransaction}
    (running : sessions.transaction session = some transaction) (command : TransactionCommand) :
    (sessions.proceed session transaction command).Harmless := by
  have present := harmless session transaction running
  cases command with
  | begin => exact harmless
  | execute change =>
      rw [Sessions.proceed]
      split_ifs with failed
      · exact harmless
      · apply harmless.set session
        rintro kept ⟨⟩
        exact present.goOn fun work executed => present.1.execute executed
  | savepoint =>
      rw [Sessions.proceed]
      split_ifs with failed
      · exact harmless
      · apply harmless.set session
        rintro kept ⟨⟩
        refine ⟨present.1, ?_⟩
        intro work member
        rcases List.mem_cons.mp member with rfl | earlier
        · exact present.1
        · exact present.2 work earlier
  | rollbackTo savepoint =>
      rw [Sessions.proceed]
      cases dropped : transaction.savepoints.drop savepoint with
      | nil =>
          apply harmless.set session
          rintro kept ⟨⟩
          exact present
      | cons work earlier =>
          have harmlessAt : forall kept, kept ∈ work :: earlier -> kept.Harmless := by
            intro kept member
            rw [← dropped] at member
            exact present.2 kept (List.mem_of_mem_drop member)
          apply harmless.set session
          rintro kept ⟨⟩
          exact ⟨harmlessAt work List.mem_cons_self, harmlessAt⟩
  | commit =>
      rw [Sessions.proceed]
      split_ifs with failed
      · exact harmless.end session
      · cases transaction.work.publish sessions.committed with
        | none => exact harmless.end session
        | some committed => exact harmless.end session
  | rollback => exact harmless.end session

theorem Harmless.step {sessions : Sessions Session} (harmless : sessions.Harmless)
    (input : Session × TransactionCommand) : (sessions.step input).Harmless := by
  unfold Sessions.step
  cases running : sessions.transaction input.1 with
  | some transaction => exact harmless.proceed running input.2
  | none =>
      cases input.2 with
      | begin =>
          apply harmless.set
          rintro kept ⟨⟩
          exact ⟨Work.harmless_nothing, fun work impossible => by cases impossible⟩
      | _ => exact harmless

/-- Only a commit changes the committed tables, and it keeps the ledger unless
its transaction has emptied it. -/
theorem Harmless.keep_step {sessions : Sessions Session} (harmless : sessions.Harmless)
    {input : Session × TransactionCommand} (admitted : CommitsNoTruncation sessions input) :
    sessions.Keep (sessions.step input) := by
  unfold Sessions.step
  cases running : sessions.transaction input.1 with
  | none =>
      cases input.2 with
      | begin => exact KeepsLedger.refl _
      | _ => exact KeepsLedger.refl _
  | some transaction =>
      cases command : input.2 with
      | begin => exact KeepsLedger.refl _
      | execute change =>
          dsimp only [Sessions.proceed]
          split_ifs with failed
          · exact KeepsLedger.refl _
          · exact KeepsLedger.refl _
      | savepoint =>
          dsimp only [Sessions.proceed]
          split_ifs with failed
          · exact KeepsLedger.refl _
          · exact KeepsLedger.refl _
      | rollbackTo savepoint =>
          dsimp only [Sessions.proceed]
          cases transaction.savepoints.drop savepoint with
          | nil => exact KeepsLedger.refl _
          | cons work earlier => exact KeepsLedger.refl _
      | commit =>
          dsimp only [Sessions.proceed]
          split_ifs with failed
          · exact KeepsLedger.refl _
          · cases published : transaction.work.publish sessions.committed with
            | none => exact KeepsLedger.refl _
            | some committed =>
                have kept := admitted command transaction running (Bool.eq_false_iff.mpr failed)
                exact (harmless input.1 transaction running).1.publish kept published
      | rollback => exact KeepsLedger.refl _

end Sessions

/-- In every run in which no transaction commits that has emptied the ledger
with a `TRUNCATE`, the ledger is append-only. -/
theorem appendOnly_of_run {Session : Type*} [DecidableEq Session] (database : Database)
    (inputs : List (Session × TransactionCommand))
    (admitted : Along Sessions.step CommitsNoTruncation (Sessions.opening database) inputs) :
    AppendOnly database inputs := by
  rintro earlier between later rfl
  have parts := (along_append _ earlier between).mp ((along_append _ (earlier ++ between) later).mp
    admitted).1
  have harmless : (run Sessions.step (Sessions.opening database) earlier).Harmless :=
    invariant_of_step Sessions.Harmless (fun _ input holds => holds.step input)
      (Sessions.harmless_opening database) earlier
  have harmlessAlong := Along.of_invariant Sessions.Harmless (fun _ input holds => holds.step input)
    harmless between
  have refl : forall sessions : Sessions Session, sessions.Keep sessions :=
    fun sessions => KeepsLedger.refl sessions.committed
  have trans : forall first second third : Sessions Session, first.Keep second ->
      second.Keep third -> first.Keep third :=
    fun _ _ _ before after => KeepsLedger.trans before after
  rw [run_append]
  exact run_related refl trans (fun _ _ guarded => guarded.2.keep_step guarded.1)
    (parts.2.and harmlessAlong)

theorem commitsNoTruncation_of_map {Session : Type*} {sessions : Sessions Session} {session : Session}
    (kept : (sessions.transaction session).map (fun transaction => transaction.work.emptiesLedger) =
      some false) : CommitsNoTruncation sessions (session, .commit) := by
  intro _ transaction running _
  rw [running] at kept
  exact Option.some.inj kept

theorem commitsNoTruncation_of_ne {Session : Type*} {sessions : Sessions Session}
    {input : Session × TransactionCommand} (other : input.2 ≠ .commit) :
    CommitsNoTruncation sessions input :=
  fun commits => absurd commits other

/-- Thirty cents are transferred and committed. -/
def transferAndCommit : List (ℕ × TransactionCommand) :=
  [(0, .begin), (0, .execute (.transferMoney none thirtyCents.call thirtyCents.generated)), (0, .commit)]

/-- Another session tries to delete the row, and its commit ends the failed
transaction; then it truncates the ledger, and goes back behind that. -/
def deleteAndTruncate : List (ℕ × TransactionCommand) :=
  [(1, .begin), (1, .execute (.sql none (.deleteTransactions fun _ => true))), (1, .commit),
    (1, .begin), (1, .savepoint), (1, .execute (.truncate [.transactions] false)), (1, .rollbackTo 0),
    (1, .commit)]

theorem appendOnly_of_run_deleteAndTruncate :
    AppendOnly (twoAccounts (.cents ⟨100, by decide⟩) .zero) (transferAndCommit ++ deleteAndTruncate) := by
  apply appendOnly_of_run
  have other {sessions : Sessions ℕ} {session : ℕ} {command : TransactionCommand}
      (differs : command ≠ .commit) : CommitsNoTruncation sessions (session, command) :=
    commitsNoTruncation_of_ne differs
  refine ⟨other ?_, other ?_, commitsNoTruncation_of_map (by decide +kernel), other ?_, other ?_,
    commitsNoTruncation_of_map (by decide +kernel), other ?_, other ?_, other ?_, other ?_,
    commitsNoTruncation_of_map (by decide +kernel), trivial⟩
  all_goals simp

/-- Another session truncates the ledger and commits. -/
def truncateAndCommit : List (ℕ × TransactionCommand) :=
  [(1, .begin), (1, .execute (.truncate [.transactions] false)), (1, .commit)]

theorem not_appendOnly_of_every_run :
    ¬ forall (database : Database) (inputs : List (ℕ × TransactionCommand)),
      AppendOnly database inputs := by
  intro always
  have kept := (always (twoAccounts (.cents ⟨100, by decide⟩) .zero)
    (transferAndCommit ++ truncateAndCommit) transferAndCommit truncateAndCommit []
    (List.append_nil _).symm).rows
  exact absurd kept (by decide +kernel)

end CoreBank
