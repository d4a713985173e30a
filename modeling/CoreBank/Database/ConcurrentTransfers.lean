import CoreBank.Database.LedgerAgreement
import CoreBank.Foundation.Locking
import Mathlib.Data.Multiset.Defs

namespace CoreBank

open Foundation

/-!
# Concurrent transfers

Any number of sessions run `transferMoney`, each call in a transaction of its
own at `READ COMMITTED`.  A statement sees the committed tables under the row
versions and ledger rows that its own transaction has written.  `FOR UPDATE`
and `UPDATE` lock the account rows they find, and an insertion locks the entry
of its key in the index of the ledger; all locks last until the transaction
ends.

`isolated_call` compares a call whose statements run one by one with the
procedure as one step, and the locking rules do the rest.
-/

/-- What a transaction locks. -/
inductive Lock where
  | accountRow (id : ℤ)
  | ledgerEntry (id : ℤ)
  deriving DecidableEq

/-- A call on its way: the rows that `SELECT INTO` has read, the rows it has
locked, and the row versions and ledger rows it has written, latest first. -/
structure InFlight where
  request : Attempt
  point : Point
  allowBalanceUpdate : Option String
  source : Option Account
  destination : Option Account
  locked : List ℤ
  versions : List Account
  recorded : List Transaction

namespace Tables

def account? (tables : Tables) (id : ℤ) : Option Account :=
  tables.accounts.find? fun account => decide (account.accountId = id)

def select (tables : Tables) (id : Option ℤ) : Option Account :=
  id.bind tables.account?

def ledgerIds (tables : Tables) : List ℤ :=
  tables.transactions.map Transaction.transactionId

end Tables

namespace InFlight

/-- A call before its first statement. -/
def start (request : Attempt) : InFlight where
  request := request
  point := .checkAmount
  allowBalanceUpdate := none
  source := none
  destination := none
  locked := []
  versions := []
  recorded := []

/-- The version of a committed row that the transaction sees. -/
def version (progress : InFlight) (row : Account) : Account :=
  (progress.versions.find? fun version => decide (version.accountId = row.accountId)).getD row

/-- The tables as the transaction sees them. -/
def view (progress : InFlight) (committed : Tables) : Tables where
  customers := committed.customers
  accounts := committed.accounts.map progress.version
  transactions := committed.transactions ++ progress.recorded

/-- `SELECT ... FOR UPDATE` of the row with the given key. -/
def lock (progress : InFlight) (committed : Tables) (id : Option ℤ) : Option Account × List ℤ :=
  match (progress.view committed).select id with
  | none => (none, progress.locked)
  | some row => (some row, row.accountId :: progress.locked)

/-- `UPDATE accounts SET balance = ...` of the row with the given key. -/
def update (progress : InFlight) (committed : Tables) (id : Option ℤ)
    (expression : Account -> Option Numeric) : Except SqlError (List Account) :=
  match (progress.view committed).select id with
  | none => .ok progress.versions
  | some row => do
      let version <- (setBalanceTo expression).assign progress.allowBalanceUpdate row
      pure (version :: progress.versions)

/-- The checks of the schema on one new ledger row. -/
def checkLedgerRow (tables : Tables) (row : Transaction) : Except SqlError Unit :=
  if row.transactionId ∈ tables.ledgerIds then .error (.constraintViolation .transactionsPkey)
  else if ¬ tables.Refers row.fromAccount then
    .error (.constraintViolation .transactionsFromAccountFkey)
  else if ¬ tables.Refers row.toAccount then
    .error (.constraintViolation .transactionsToAccountFkey)
  else .ok ()

/-- `INSERT INTO transactions`. -/
def insert (progress : InFlight) (committed : Tables) : Except SqlError (List Transaction) := do
  let transactionId <- nextTransactionId progress.request.generated
  let row <- (ledgerInput progress.request.call progress.request.generated transactionId).row
  checkLedgerRow (progress.view committed) row
  pure (progress.recorded ++ [row])

/-- Execute the next statement of the procedure. -/
def step (committed : Tables) (progress : InFlight) : Except SqlError InFlight :=
  match progress.point with
  | .checkAmount => do
      checkAmount progress.request.call
      pure { progress with point := .lockSource }
  | .lockSource =>
      let selected := progress.lock committed progress.request.call.fromAccount
      .ok { progress with point := .lockDestination, source := selected.1, locked := selected.2 }
  | .lockDestination =>
      let selected := progress.lock committed progress.request.call.toAccount
      .ok { progress with point := .checkAccounts, destination := selected.1, locked := selected.2 }
  | .checkAccounts => do
      checkAccounts progress.request.call
        (progress.source.map fun account => account.balance.toNumeric)
        (progress.source.bind Account.currency) (progress.destination.bind Account.currency)
      pure { progress with point := .allowUpdate }
  | .allowUpdate => .ok { progress with point := .debit, allowBalanceUpdate := some "on" }
  | .debit => do
      let versions <- progress.update committed progress.request.call.fromAccount
        (debitExpression progress.request.call)
      pure { progress with point := .credit, versions }
  | .credit => do
      let versions <- progress.update committed progress.request.call.toAccount
        (creditExpression progress.request.call)
      pure { progress with point := .recordTransaction, versions }
  | .recordTransaction => do
      let recorded <- progress.insert committed
      pure { progress with point := .forbidUpdate, recorded }
  | .forbidUpdate => .ok { progress with point := .finished, allowBalanceUpdate := some "off" }
  | .finished => .ok progress

/-- The locks of a transaction: the rows it has selected for update and
everything it has written. -/
def Holds (progress : InFlight) : Lock -> Prop
  | .accountRow id => id ∈ progress.locked ∨ id ∈ progress.versions.map Account.accountId
  | .ledgerEntry id => id ∈ progress.recorded.map Transaction.transactionId

def held (progress : InFlight) : Set Lock :=
  { lock | progress.Holds lock }

theorem held_start (request : Attempt) : (start request).held = ∅ := by
  ext lock
  cases lock with
  | accountRow id => simp [held, Holds, start]
  | ledgerEntry id => simp [held, Holds, start]

end InFlight

/-- Tables in which a transaction with the given locks cannot see a
difference. -/
structure SameUnder (keys : Set Lock) (left right : Tables) : Prop where
  accountIds : left.accountIds = right.accountIds
  accountRow : forall id, Lock.accountRow id ∈ keys -> left.account? id = right.account? id
  ledgerEntry : forall id, Lock.ledgerEntry id ∈ keys ->
    (id ∈ left.ledgerIds ↔ id ∈ right.ledgerIds)

/-! ## What a transaction sees -/

namespace Tables

theorem accountId_of_account? {tables : Tables} {id : ℤ} {account : Account}
    (found : tables.account? id = some account) : account.accountId = id := by
  simpa only [decide_eq_true_eq] using List.find?_some found

theorem account?_eq_none_iff (tables : Tables) (id : ℤ) :
    tables.account? id = none ↔ id ∉ tables.accountIds := by
  rw [account?, List.find?_eq_none, accountIds, List.mem_map]
  simp only [decide_eq_true_eq, not_exists, not_and]

theorem select_eq_some {tables : Tables} {id : Option ℤ} {account : Account}
    (found : tables.select id = some account) :
    id = some account.accountId ∧ tables.account? account.accountId = some account := by
  cases id with
  | none => cases found
  | some id =>
      have same := accountId_of_account? found
      subst same
      exact ⟨rfl, found⟩

end Tables

namespace InFlight

@[simp] theorem version_accountId (progress : InFlight) (row : Account) :
    (progress.version row).accountId = row.accountId := by
  unfold version
  cases found : progress.versions.find? fun version => decide (version.accountId = row.accountId) with
  | none => rfl
  | some written =>
      have same : written.accountId = row.accountId := by
        simpa only [decide_eq_true_eq] using List.find?_some found
      exact same

@[simp] theorem view_accountIds (progress : InFlight) (committed : Tables) :
    (progress.view committed).accountIds = committed.accountIds := by
  rw [Tables.accountIds, view, List.map_map]
  apply List.map_congr_left
  intro row _
  exact progress.version_accountId row

theorem view_ledgerIds (progress : InFlight) (committed : Tables) :
    (progress.view committed).ledgerIds =
      committed.ledgerIds ++ progress.recorded.map Transaction.transactionId := by
  rw [Tables.ledgerIds, view, List.map_append, Tables.ledgerIds]

theorem view_account? (progress : InFlight) (committed : Tables) (id : ℤ) :
    (progress.view committed).account? id = (committed.account? id).map progress.version := by
  unfold Tables.account? view
  rw [List.find?_map]
  apply congrArg (Option.map progress.version)
  apply congrArg (fun test => committed.accounts.find? test)
  funext row
  simp only [Function.comp_apply, version_accountId]

/-- A transaction that has written nothing sees the committed tables. -/
theorem view_unwritten {progress : InFlight} (committed : Tables) (versions : progress.versions = [])
    (recorded : progress.recorded = []) : progress.view committed = committed := by
  have unchanged : progress.version = id := by
    funext row
    rw [version, versions]
    rfl
  unfold view
  rw [unchanged, List.map_id, recorded, List.append_nil]

/-- A row that the transaction locks looks the same in both tables. -/
theorem view_select_eq {progress : InFlight} {keys : Set Lock} {left right : Tables}
    (same : SameUnder keys left right) {id : Option ℤ}
    (locked : forall row, (progress.view left).select id = some row ->
      Lock.accountRow row.accountId ∈ keys) :
    (progress.view right).select id = (progress.view left).select id := by
  cases id with
  | none => rfl
  | some id =>
      change (progress.view right).account? id = (progress.view left).account? id
      cases found : (progress.view left).account? id with
      | none =>
          rw [Tables.account?_eq_none_iff, view_accountIds] at found ⊢
          rw [← same.accountIds]
          exact found
      | some row =>
          have atId := Tables.accountId_of_account? found
          have member := locked row found
          rw [atId] at member
          rw [view_account?, ← same.accountRow id member, ← view_account?, found]

/-! ## What a statement locks and reads -/

theorem lock_cases (progress : InFlight) (committed : Tables) (id : Option ℤ) :
    ((progress.view committed).select id = none ∧
        progress.lock committed id = (none, progress.locked)) ∨
      Exists fun row => (progress.view committed).select id = some row ∧
        progress.lock committed id = (some row, row.accountId :: progress.locked) := by
  unfold lock
  cases found : (progress.view committed).select id with
  | none => exact Or.inl ⟨rfl, rfl⟩
  | some row => exact Or.inr ⟨row, rfl, rfl⟩

theorem locked_lock (progress : InFlight) (committed : Tables) (id : Option ℤ) :
    progress.locked ⊆ (progress.lock committed id).2 := by
  rcases progress.lock_cases committed id with ⟨_, same⟩ | ⟨row, _, same⟩
  · rw [same]
    exact List.Subset.refl _
  · rw [same]
    exact List.subset_cons_self _ _

/-- With the rows it locks unchanged, a `SELECT ... FOR UPDATE` has the same
outcome. -/
theorem lock_sameUnder {progress : InFlight} {keys : Set Lock} {left right : Tables}
    (same : SameUnder keys left right) {id : Option ℤ}
    (locks : forall locked, locked ∈ (progress.lock left id).2 -> Lock.accountRow locked ∈ keys) :
    progress.lock right id = progress.lock left id := by
  have selected : (progress.view right).select id = (progress.view left).select id := by
    apply view_select_eq same
    intro row found
    apply locks
    rw [lock, found]
    exact List.mem_cons_self
  unfold lock
  rw [selected]

theorem update_eq_ok_iff {progress : InFlight} {committed : Tables} {id : Option ℤ}
    {expression : Account -> Option Numeric} {versions : List Account} :
    progress.update committed id expression = .ok versions ↔
      ((progress.view committed).select id = none ∧ versions = progress.versions) ∨
        Exists fun row => Exists fun version => (progress.view committed).select id = some row ∧
          (setBalanceTo expression).assign progress.allowBalanceUpdate row = .ok version ∧
          versions = version :: progress.versions := by
  unfold update
  cases found : (progress.view committed).select id with
  | none => simp [eq_comm]
  | some row =>
      constructor
      · intro success
        rcases bind_eq_ok_iff.mp success with ⟨version, assignedRow, final⟩
        cases final
        exact Or.inr ⟨row, version, rfl, assignedRow, rfl⟩
      · rintro (⟨absent, _⟩ | ⟨other, version, sameRow, assignedRow, rfl⟩)
        · cases absent
        · cases sameRow
          exact bind_eq_ok_iff.mpr ⟨version, assignedRow, rfl⟩

theorem versions_update {progress : InFlight} {committed : Tables} {id : Option ℤ}
    {expression : Account -> Option Numeric} {versions : List Account}
    (success : progress.update committed id expression = .ok versions) :
    progress.versions ⊆ versions := by
  rcases update_eq_ok_iff.mp success with ⟨_, rfl⟩ | ⟨row, version, _, _, rfl⟩
  · exact List.Subset.refl _
  · exact List.subset_cons_self _ _

theorem assign_accountId {expression : Account -> Option Numeric} {allowUpdate : Option String}
    {row version : Account} (success : (setBalanceTo expression).assign allowUpdate row = .ok version) :
    version.accountId = row.accountId := by
  rw [AccountSet.assign] at success
  rcases bind_eq_ok_iff.mp success with ⟨currency, _, success⟩
  rcases bind_eq_ok_iff.mp success with ⟨balance, _, success⟩
  rcases bind_eq_ok_iff.mp success with ⟨accountId, kept, success⟩
  rcases bind_eq_ok_iff.mp success with ⟨customerId, _, success⟩
  rcases bind_eq_ok_iff.mp success with ⟨accountType, _, success⟩
  cases success
  cases kept
  rfl

theorem update_sameUnder {progress : InFlight} {keys : Set Lock} {left right : Tables}
    (same : SameUnder keys left right) {id : Option ℤ} {expression : Account -> Option Numeric}
    {versions : List Account} (success : progress.update left id expression = .ok versions)
    (locks : forall locked, locked ∈ versions.map Account.accountId ->
      Lock.accountRow locked ∈ keys) :
    progress.update right id expression = .ok versions := by
  have selected : (progress.view right).select id = (progress.view left).select id := by
    apply view_select_eq same
    intro row found
    rcases update_eq_ok_iff.mp success with ⟨absent, _⟩ | ⟨other, version, foundOther, assignedRow, rfl⟩
    · cases found.symm.trans absent
    · cases found.symm.trans foundOther
      apply locks
      rw [← assign_accountId assignedRow]
      exact List.mem_cons_self
  rw [update, selected]
  exact success

theorem checkLedgerRow_eq_ok_iff {tables : Tables} {row : Transaction} :
    checkLedgerRow tables row = .ok () ↔
      row.transactionId ∉ tables.ledgerIds ∧ tables.Refers row.fromAccount ∧
        tables.Refers row.toAccount := by
  unfold checkLedgerRow
  split_ifs with stored source destination <;> simp_all

theorem insert_eq_ok_iff {progress : InFlight} {committed : Tables} {recorded : List Transaction} :
    progress.insert committed = .ok recorded ↔
      Exists fun transactionId => Exists fun row =>
        nextTransactionId progress.request.generated = .ok transactionId ∧
        (ledgerInput progress.request.call progress.request.generated transactionId).row = .ok row ∧
        checkLedgerRow (progress.view committed) row = .ok () ∧
        recorded = progress.recorded ++ [row] := by
  constructor
  · intro success
    rcases bind_eq_ok_iff.mp success with ⟨transactionId, next, success⟩
    rcases bind_eq_ok_iff.mp success with ⟨row, converted, success⟩
    rcases bind_eq_ok_iff.mp success with ⟨_, checked, final⟩
    cases final
    exact ⟨transactionId, row, next, converted, checked, rfl⟩
  · rintro ⟨transactionId, row, next, converted, checked, rfl⟩
    refine bind_eq_ok_iff.mpr ⟨transactionId, next, ?_⟩
    refine bind_eq_ok_iff.mpr ⟨row, converted, ?_⟩
    exact bind_eq_ok_iff.mpr ⟨(), checked, rfl⟩

theorem insert_sameUnder {progress : InFlight} {keys : Set Lock} {left right : Tables}
    (same : SameUnder keys left right) {recorded : List Transaction}
    (success : progress.insert left = .ok recorded)
    (locks : forall locked, locked ∈ recorded.map Transaction.transactionId ->
      Lock.ledgerEntry locked ∈ keys) :
    progress.insert right = .ok recorded := by
  rcases insert_eq_ok_iff.mp success with ⟨transactionId, row, next, converted, checked, rfl⟩
  rw [checkLedgerRow_eq_ok_iff] at checked
  rcases checked with ⟨fresh, source, destination⟩
  have refers : forall reference, (progress.view left).Refers reference ->
      (progress.view right).Refers reference := by
    intro reference resolves account named
    rw [view_accountIds, ← same.accountIds, ← progress.view_accountIds left]
    exact resolves account named
  refine insert_eq_ok_iff.mpr ⟨transactionId, row, next, converted, ?_, rfl⟩
  rw [checkLedgerRow_eq_ok_iff]
  refine ⟨?_, refers _ source, refers _ destination⟩
  have entry : Lock.ledgerEntry row.transactionId ∈ keys := by
    apply locks
    exact List.mem_map_of_mem (List.mem_append_right _ (List.mem_singleton.mpr rfl))
  rw [view_ledgerIds, List.mem_append] at fresh ⊢
  rw [← same.ledgerEntry _ entry]
  exact fresh

/-! ## One statement -/

/-- The statements, each with what it has checked or computed and with what it
leaves. -/
inductive Executes (committed : Tables) (progress : InFlight) : InFlight -> Prop where
  | checkAmount (before : progress.point = .checkAmount)
      (passes : CoreBank.checkAmount progress.request.call = .ok ()) :
      Executes committed progress { progress with point := .lockSource }
  | lockSource (before : progress.point = .lockSource) :
      Executes committed progress { progress with
        point := .lockDestination
        source := (progress.lock committed progress.request.call.fromAccount).1
        locked := (progress.lock committed progress.request.call.fromAccount).2 }
  | lockDestination (before : progress.point = .lockDestination) :
      Executes committed progress { progress with
        point := .checkAccounts
        destination := (progress.lock committed progress.request.call.toAccount).1
        locked := (progress.lock committed progress.request.call.toAccount).2 }
  | checkAccounts (before : progress.point = .checkAccounts)
      (passes : CoreBank.checkAccounts progress.request.call
        (progress.source.map fun account => account.balance.toNumeric)
        (progress.source.bind Account.currency) (progress.destination.bind Account.currency) = .ok ()) :
      Executes committed progress { progress with point := .allowUpdate }
  | allowUpdate (before : progress.point = .allowUpdate) :
      Executes committed progress { progress with point := .debit, allowBalanceUpdate := some "on" }
  | debit (before : progress.point = .debit) {versions : List Account}
      (updated : progress.update committed progress.request.call.fromAccount
        (debitExpression progress.request.call) = .ok versions) :
      Executes committed progress { progress with point := .credit, versions }
  | credit (before : progress.point = .credit) {versions : List Account}
      (updated : progress.update committed progress.request.call.toAccount
        (creditExpression progress.request.call) = .ok versions) :
      Executes committed progress { progress with point := .recordTransaction, versions }
  | recordTransaction (before : progress.point = .recordTransaction) {recorded : List Transaction}
      (inserted : progress.insert committed = .ok recorded) :
      Executes committed progress { progress with point := .forbidUpdate, recorded }
  | forbidUpdate (before : progress.point = .forbidUpdate) :
      Executes committed progress
        { progress with point := .finished, allowBalanceUpdate := some "off" }
  | finished (before : progress.point = .finished) : Executes committed progress progress

theorem step_eq_ok_iff {committed : Tables} {progress next : InFlight} :
    progress.step committed = .ok next ↔ Executes committed progress next := by
  constructor
  · intro success
    unfold step at success
    split at success <;> rename_i before
    · rcases bind_eq_ok_iff.mp success with ⟨_, passes, final⟩
      cases final
      exact .checkAmount before passes
    · cases success
      exact .lockSource before
    · cases success
      exact .lockDestination before
    · rcases bind_eq_ok_iff.mp success with ⟨_, passes, final⟩
      cases final
      exact .checkAccounts before passes
    · cases success
      exact .allowUpdate before
    · rcases bind_eq_ok_iff.mp success with ⟨_, updated, final⟩
      cases final
      exact .debit before updated
    · rcases bind_eq_ok_iff.mp success with ⟨_, updated, final⟩
      cases final
      exact .credit before updated
    · rcases bind_eq_ok_iff.mp success with ⟨_, inserted, final⟩
      cases final
      exact .recordTransaction before inserted
    · cases success
      exact .forbidUpdate before
    · cases success
      exact .finished before
  · intro executes
    unfold step
    cases executes with
    | checkAmount before passes =>
        rw [before]
        exact bind_eq_ok_iff.mpr ⟨(), passes, rfl⟩
    | checkAccounts before passes =>
        rw [before]
        exact bind_eq_ok_iff.mpr ⟨(), passes, rfl⟩
    | debit before updated =>
        rw [before]
        exact bind_eq_ok_iff.mpr ⟨_, updated, rfl⟩
    | credit before updated =>
        rw [before]
        exact bind_eq_ok_iff.mpr ⟨_, updated, rfl⟩
    | recordTransaction before inserted =>
        rw [before]
        exact bind_eq_ok_iff.mpr ⟨_, inserted, rfl⟩
    | _ before => rw [before]

/-- Statements only add locks. -/
theorem held_step {committed : Tables} {progress next : InFlight}
    (success : progress.step committed = .ok next) : progress.held ⊆ next.held := by
  have grows : progress.locked ⊆ next.locked ∧ progress.versions ⊆ next.versions ∧
      progress.recorded ⊆ next.recorded := by
    cases step_eq_ok_iff.mp success with
    | lockSource before =>
        exact ⟨locked_lock _ _ _, List.Subset.refl _, List.Subset.refl _⟩
    | lockDestination before =>
        exact ⟨locked_lock _ _ _, List.Subset.refl _, List.Subset.refl _⟩
    | debit before updated =>
        exact ⟨List.Subset.refl _, versions_update updated, List.Subset.refl _⟩
    | credit before updated =>
        exact ⟨List.Subset.refl _, versions_update updated, List.Subset.refl _⟩
    | recordTransaction before inserted =>
        rcases insert_eq_ok_iff.mp inserted with ⟨transactionId, row, _, _, _, rfl⟩
        exact ⟨List.Subset.refl _, List.Subset.refl _, List.subset_append_left _ _⟩
    | _ => exact ⟨List.Subset.refl _, List.Subset.refl _, List.Subset.refl _⟩
  rcases grows with ⟨locked, versions, recorded⟩
  rintro (id | id) member
  · exact member.imp (fun inLocked => locked inLocked) fun inVersions => List.map_subset _ versions inVersions
  · exact List.map_subset _ recorded member

/-- A statement has the same outcome on tables that look the same under the
locks it ends with. -/
theorem step_sameUnder {left right : Tables} {progress next : InFlight}
    (success : progress.step left = .ok next) (same : SameUnder next.held left right) :
    progress.step right = .ok next := by
  rw [step_eq_ok_iff] at success ⊢
  cases success with
  | checkAmount before passes => exact .checkAmount before passes
  | lockSource before =>
      rw [← lock_sameUnder same fun locked member => Or.inl member]
      exact .lockSource before
  | lockDestination before =>
      rw [← lock_sameUnder same fun locked member => Or.inl member]
      exact .lockDestination before
  | checkAccounts before passes => exact .checkAccounts before passes
  | allowUpdate before => exact .allowUpdate before
  | debit before updated =>
      exact .debit before (update_sameUnder same updated fun locked member => Or.inr member)
  | credit before updated =>
      exact .credit before (update_sameUnder same updated fun locked member => Or.inr member)
  | recordTransaction before inserted =>
      exact .recordTransaction before (insert_sameUnder same inserted fun locked member => member)
  | forbidUpdate before => exact .forbidUpdate before
  | finished before => exact .finished before

/-- A commit changes nothing outside the locks of its transaction. -/
theorem view_sameUnder {progress : InFlight} {keys : Set Lock} (committed : Tables)
    (disjoint : Disjoint keys progress.held) : SameUnder keys committed (progress.view committed) where
  accountIds := (progress.view_accountIds committed).symm
  accountRow := by
    intro id member
    have unwritten : id ∉ progress.versions.map Account.accountId := fun written =>
      Set.disjoint_left.mp disjoint member (Or.inr written)
    rw [view_account?]
    cases found : committed.account? id with
    | none => rfl
    | some row =>
        have atId := Tables.accountId_of_account? found
        have absent : (progress.versions.find? fun version =>
            decide (version.accountId = row.accountId)) = none := by
          rw [List.find?_eq_none]
          intro version inVersions same
          apply unwritten
          rw [← atId, ← of_decide_eq_true same]
          exact List.mem_map_of_mem inVersions
        rw [Option.map_some, version, absent]
        rfl
  ledgerEntry := by
    intro id member
    have unwritten : id ∉ progress.recorded.map Transaction.transactionId := fun written =>
      Set.disjoint_left.mp disjoint member written
    rw [view_ledgerIds, List.mem_append, or_iff_left unwritten]

end InFlight

/-- Calls of `transferMoney` under the locks of the database. -/
def concurrentTransfers : LockingProtocol Tables Lock Attempt InFlight SqlError where
  start := InFlight.start
  step := fun committed progress => progress.step committed
  Finished := fun progress => progress.point = .finished
  held := InFlight.held
  publish := InFlight.view
  Agree := SameUnder
  held_start := InFlight.held_start
  held_mono := InFlight.held_step
  step_agree := InFlight.step_sameUnder
  publish_frame := InFlight.view_sameUnder

/-- The protocol can be carried out step by step. -/
def executableTransfers : concurrentTransfers.Executable where
  locks progress :=
    progress.locked.map Lock.accountRow ++
      ((progress.versions.map fun version => Lock.accountRow version.accountId) ++
        progress.recorded.map fun row => Lock.ledgerEntry row.transactionId)
  finished progress := decide (progress.point = .finished)
  mem_held_iff progress key := by
    cases key with
    | accountRow id => simp [concurrentTransfers, InFlight.held, InFlight.Holds]
    | ledgerEntry id => simp [concurrentTransfers, InFlight.held, InFlight.Holds]
  finished_iff _ := decide_eq_true_iff

/-! ## A call that runs alone -/

/-- The number of statements still to come. -/
def Point.remaining : Point -> ℕ
  | .checkAmount => 9
  | .lockSource => 8
  | .lockDestination => 7
  | .checkAccounts => 6
  | .allowUpdate => 5
  | .debit => 4
  | .credit => 3
  | .recordTransaction => 2
  | .forbidUpdate => 1
  | .finished => 0

namespace InFlight

/-- Execute a number of statements in a row. -/
def steps (committed : Tables) : ℕ -> InFlight -> Except SqlError InFlight
  | 0, progress => .ok progress
  | count + 1, progress => do
      let next <- progress.step committed
      steps committed count next

/-- Execute all statements still to come. -/
def complete (committed : Tables) (progress : InFlight) : Except SqlError InFlight :=
  steps committed progress.point.remaining progress

theorem remaining_step {committed : Tables} {progress next : InFlight}
    (success : progress.step committed = .ok next) :
    (progress.point = .finished ∧ next = progress) ∨
      progress.point.remaining = next.point.remaining + 1 := by
  cases step_eq_ok_iff.mp success with
  | finished before => exact Or.inl ⟨before, rfl⟩
  | _ before =>
      rw [before]
      exact Or.inr rfl

theorem complete_step {committed : Tables} {progress next : InFlight}
    (success : progress.step committed = .ok next) :
    progress.complete committed = next.complete committed := by
  rcases remaining_step success with ⟨_, rfl⟩ | fewer
  · rfl
  · rw [complete, fewer, steps, success]
    rfl

theorem complete_of_isolated {committed : Tables} {request : Attempt} {final : InFlight}
    (isolated : concurrentTransfers.Isolated committed (start request) final)
    (finished : final.point = .finished) : (start request).complete committed = .ok final := by
  have same : (start request).complete committed = final.complete committed := by
    clear finished
    induction isolated with
    | refl => rfl
    | tail _ success inductionHypothesis =>
        exact inductionHypothesis.trans (complete_step success)
  rw [same, complete, finished]
  rfl

/-- Writing a new balance of a row changes the view as an update of the table
would. -/
theorem view_update {progress : InFlight} {committed : Tables}
    (unique : committed.accountIds.Nodup) {row : Account}
    (found : (progress.view committed).account? row.accountId = some row) (balance : Money) :
    { progress with versions := { row with balance } :: progress.versions }.view committed =
      (progress.view committed).setBalance row.accountId balance := by
  have accounts : committed.accounts.map
        (version { progress with versions := { row with balance } :: progress.versions }) =
      RowTable.replaceAt Account.accountId row.accountId (fun account => { account with balance })
        (committed.accounts.map progress.version) := by
    rw [RowTable.replaceAt, List.map_map]
    apply List.map_congr_left
    intro stored member
    rw [Function.comp_apply, version_accountId]
    by_cases same : stored.accountId = row.accountId
    · rw [view_account?] at found
      rcases Option.map_eq_some_iff.mp found with ⟨original, foundOriginal, versionOriginal⟩
      have originalMember : original ∈ committed.accounts := List.mem_of_find?_eq_some foundOriginal
      have sameId := (Tables.accountId_of_account? foundOriginal).trans same.symm
      have sameRow := List.inj_on_of_nodup_map unique originalMember member sameId
      rw [if_pos same, ← sameRow, versionOriginal]
      simp only [version, List.find?_cons, Tables.accountId_of_account? foundOriginal, decide_true,
        Option.getD_some]
    · simp only [version, List.find?_cons, Ne.symm same, decide_false, if_neg same]
  unfold view Tables.setBalance
  rw [accounts]

theorem lock_unwritten {progress : InFlight} (committed : Tables) (id : Option ℤ)
    (versions : progress.versions = []) (recorded : progress.recorded = []) :
    (progress.lock committed id).1 = committed.select id := by
  rcases progress.lock_cases committed id with ⟨found, same⟩ | ⟨row, found, same⟩
  · rw [same, ← found, view_unwritten committed versions recorded]
  · rw [same, ← found, view_unwritten committed versions recorded]

/-- The statements before the inner block check what the procedure checks. -/
theorem checks_of_complete {database : Database} {request : Attempt} {final : InFlight}
    (success : (start request).complete database.toTables = .ok final) :
    Exists fun progress : InFlight => steps database.toTables 4 progress = .ok final ∧
      progress.request = request ∧ progress.point = .debit ∧
      progress.allowBalanceUpdate = some "on" ∧
      progress.view database.toTables = database.toTables ∧
      checkAmount request.call = .ok () ∧
      checkAccounts request.call
        ((database.select request.call.fromAccount).map fun account => account.balance.toNumeric)
        ((database.select request.call.fromAccount).bind Account.currency)
        ((database.select request.call.toAccount).bind Account.currency) = .ok () := by
  rcases bind_eq_ok_iff.mp success with ⟨_, amountStep, success⟩
  rcases bind_eq_ok_iff.mp amountStep with ⟨_, amountChecked, next⟩
  cases next
  rcases bind_eq_ok_iff.mp success with ⟨_, next, success⟩
  cases next
  rcases bind_eq_ok_iff.mp success with ⟨_, next, success⟩
  cases next
  rcases bind_eq_ok_iff.mp success with ⟨_, accountsStep, success⟩
  rcases bind_eq_ok_iff.mp accountsStep with ⟨_, accountsChecked, next⟩
  cases next
  rcases bind_eq_ok_iff.mp success with ⟨_, next, success⟩
  cases next
  refine ⟨_, success, rfl, rfl, rfl, view_unwritten database.toTables rfl rfl, amountChecked, ?_⟩
  rw [lock_unwritten, lock_unwritten] at accountsChecked
  · exact accountsChecked
  all_goals rfl

theorem block_of_complete {committed : Tables} {progress final : InFlight}
    (atDebit : progress.point = .debit) (success : steps committed 4 progress = .ok final) :
    Exists fun debited => Exists fun credited => Exists fun recorded =>
      progress.update committed progress.request.call.fromAccount
        (debitExpression progress.request.call) = .ok debited ∧
      { progress with versions := debited }.update committed progress.request.call.toAccount
        (creditExpression progress.request.call) = .ok credited ∧
      { progress with versions := credited }.insert committed = .ok recorded ∧
      final.view committed = { progress with versions := credited, recorded }.view committed := by
  rcases bind_eq_ok_iff.mp success with ⟨_, debitStep, success⟩
  rw [step, atDebit] at debitStep
  rcases bind_eq_ok_iff.mp debitStep with ⟨debited, debits, next⟩
  cases next
  rcases bind_eq_ok_iff.mp success with ⟨_, creditStep, success⟩
  rcases bind_eq_ok_iff.mp creditStep with ⟨credited, credits, next⟩
  cases next
  rcases bind_eq_ok_iff.mp success with ⟨_, recordStep, success⟩
  rcases bind_eq_ok_iff.mp recordStep with ⟨recorded, inserted, next⟩
  cases next
  rcases bind_eq_ok_iff.mp success with ⟨_, next, success⟩
  cases next
  cases success
  exact ⟨debited, credited, recorded, debits, credits, inserted, rfl⟩

theorem view_insert (progress : InFlight) (committed : Tables) (row : Transaction) :
    { progress with recorded := progress.recorded ++ [row] }.view committed =
      (progress.view committed).record row := by
  unfold view Tables.record
  rw [List.append_assoc]
  rfl

/-- An update that the transaction writes on top of a database it sees. -/
theorem update_seen {database current : Database} (progress : InFlight)
    (on : progress.allowBalanceUpdate = some "on")
    (seen : progress.view database.toTables = current.toTables) {id : Option ℤ}
    {expression : Account -> Option Numeric} {versions : List Account} {row : Account}
    (found : current.select id = some row)
    (success : progress.update database.toTables id expression = .ok versions) :
    Exists fun balance => Stores (expression row) balance ∧
      { progress with versions }.view database.toTables =
        (current.setBalance row.accountId balance).toTables := by
  have selected : (progress.view database.toTables).select id = some row := by
    rw [seen]
    exact found
  rcases update_eq_ok_iff.mp success with ⟨absent, _⟩ | ⟨other, version, foundOther, assignedRow, rfl⟩
  · cases selected.symm.trans absent
  · cases selected.symm.trans foundOther
    rw [on, assign_setBalanceTo] at assignedRow
    cases stored : storeRequired "balance" (expression row) with
    | error problem =>
        rw [stored] at assignedRow
        cases assignedRow
    | ok balance =>
        rw [stored] at assignedRow
        cases assignedRow
        refine ⟨balance, (storeRequired_eq_ok_iff "balance").mp stored, ?_⟩
        rw [view_update database.satisfies.accountsPkey (Tables.select_eq_some selected).2, seen]
        rfl

/-- A call whose statements run one by one without interruption does what the
procedure does. -/
theorem callTransferMoney_of_complete {database : Database} {request : Attempt} {final : InFlight}
    (success : (start request).complete database.toTables = .ok final) :
    Exists fun result : Database =>
      callTransferMoney request.call request.generated database = .ok result ∧
        final.view database.toTables = result.toTables := by
  rcases checks_of_complete success with
    ⟨progress, block, rfl, atDebit, on, seen, amountChecked, accountsChecked⟩
  rcases block_of_complete atDebit block with
    ⟨debited, credited, recorded, debits, credits, inserts, finalView⟩
  rcases checkAccounts_eq_ok_iff.mp accountsChecked with ⟨_, _, sourceHolds, destinationHolds, _, _⟩
  rcases Option.bind_eq_some_iff.mp sourceHolds with ⟨source, foundSource, _⟩
  rcases Option.bind_eq_some_iff.mp destinationHolds with ⟨destination, foundDestination, _⟩
  rcases update_seen progress on seen foundSource debits with ⟨debitedBalance, debitStores, seenDebited⟩
  have foundCredited := select_afterDebit foundSource foundDestination debitedBalance
  rcases update_seen { progress with versions := debited } on seenDebited foundCredited credits with
    ⟨creditedBalance, creditStores, seenCredited⟩
  rcases insert_eq_ok_iff.mp inserts with ⟨transactionId, row, next, converted, checked, rfl⟩
  rcases ledgerInput_row_eq_ok_iff.mp converted with ⟨amount, recordStores, rfl⟩
  rw [seenCredited, checkLedgerRow_eq_ok_iff] at checked
  rcases checked with ⟨fresh, refersSource, refersDestination⟩
  let result := Database.record _ _ fresh refersSource refersDestination
  have tables : final.view database.toTables = result.toTables := by
    rw [finalView]
    exact (view_insert { progress with versions := credited } database.toTables _).trans
      (congrArg (Tables.record · _) seenCredited)
  have block : transferBlock progress.request.call progress.request.generated ⟨database, none⟩ =
      .ok ((), ⟨result, some "off"⟩) := by
    apply transferBlock_eq_ok_iff.mpr
    refine ⟨⟨database.setBalance source.accountId debitedBalance, some "on"⟩,
      ⟨(database.setBalance source.accountId debitedBalance).setBalance
        (afterDebit source destination debitedBalance).accountId creditedBalance, some "on"⟩,
      ⟨result, some "on"⟩, ?_, ?_, ?_, rfl⟩
    · exact (perform_setBalance_eq_ok_iff foundSource).mpr ⟨debitedBalance, debitStores, rfl⟩
    · exact (perform_setBalance_eq_ok_iff foundCredited).mpr ⟨creditedBalance, creditStores, rfl⟩
    · apply recordTransaction_eq_ok_iff.mpr
      exact ⟨transactionId, amount, nextTransactionId_eq_ok_iff.mp next, recordStores, rfl, rfl⟩
  have success : transferMoney progress.request.call progress.request.generated ⟨database, none⟩ =
      .ok ((), ⟨result, some "off"⟩) :=
    transferMoney_eq_ok_iff.mpr ⟨amountChecked, accountsChecked, block⟩
  refine ⟨result, ?_, tables⟩
  rw [callTransferMoney, StateT.run, success]
  rfl

end InFlight

/-! ## Every interleaving -/

/-- Calls one after another, each of which succeeds. -/
def callInOrder (opening : Database) (requests : List Attempt) : Except SqlError Database :=
  requests.foldlM (fun database request =>
    callTransferMoney request.call request.generated database) opening

theorem callInOrder_of_serial {opening : Database} {requests : List Attempt} {tables : Tables}
    (serial : concurrentTransfers.Serial opening.toTables requests tables) :
    Exists fun final : Database =>
      callInOrder opening requests = .ok final ∧ tables = final.toTables := by
  induction serial with
  | nil => exact ⟨opening, rfl, rfl⟩
  | snoc earlier executes inductionHypothesis =>
      rcases inductionHypothesis with ⟨database, inOrder, rfl⟩
      rcases executes with ⟨final, isolated, finished, rfl⟩
      have complete := InFlight.complete_of_isolated isolated finished
      rcases InFlight.callTransferMoney_of_complete complete with ⟨result, success, same⟩
      refine ⟨result, ?_, same⟩
      rw [callInOrder, List.foldlM_append]
      refine bind_eq_ok_iff.mpr ⟨database, inOrder, ?_⟩
      exact bind_eq_ok_iff.mpr ⟨result, success, rfl⟩

/-- Whatever the sessions do, the committed calls succeed one after another, in
the order of their commits and each on its own, and they then leave the same
balances and the same ledger rows. -/
theorem callInOrder_of_reachable {Session : Type} [DecidableEq Session] (opening : Database)
    {system : LockingProtocol.System Tables Attempt InFlight Session}
    (reachable : concurrentTransfers.Reachable opening.toTables system) :
    Exists fun final : Database => callInOrder opening system.history = .ok final ∧
      (forall id, (system.store.account? id).map Account.balance = final.balance? id) ∧
      (system.store.transactions : Multiset Transaction) = final.transactions := by
  rcases callInOrder_of_serial reachable.serial with ⟨final, inOrder, same⟩
  rw [same]
  exact ⟨final, inOrder, fun _ => rfl, rfl⟩

/-! Two calls go opposite ways between the accounts.  The first waits for the
second, which is aborted, and then the first goes on while a third one, with the
same source, begins and has to wait for its commit. -/

def fiftyCents : Attempt where
  call := { fromAccount := some 1, toAccount := some 2, amount := some (.finite ⟨50, 2⟩) }
  generated := ⟨some 3, none⟩

def twentyReturned : Attempt where
  call := { fromAccount := some 2, toAccount := some 1, amount := some (.finite ⟨20, 2⟩) }
  generated := ⟨some 2, none⟩

def sessionOne : Fin 3 := 0

def sessionTwo : Fin 3 := 1

def sessionThree : Fin 3 := 2

/-- Both calls have locked their source. -/
def meeting : List (Fin 3 × LockingProtocol.Action Attempt) :=
  [(sessionOne, .begin thirtyCents), (sessionTwo, .begin twentyReturned), (sessionOne, .statement),
    (sessionTwo, .statement), (sessionOne, .statement), (sessionTwo, .statement)]

/-- The second is aborted, and the third begins before the first commits. -/
def overtaken : List (Fin 3 × LockingProtocol.Action Attempt) :=
  meeting ++ [(sessionTwo, .abort), (sessionOne, .statement), (sessionThree, .begin fiftyCents),
    (sessionThree, .statement)]

def remainder (session : Fin 3) (statements : ℕ) : List (Fin 3 × LockingProtocol.Action Attempt) :=
  List.replicate statements (session, .statement) ++ [(session, .commit)]

/-- The tables before the first call, and no call in flight. -/
def idleSystem (opening : Database) : LockingProtocol.System Tables Attempt InFlight (Fin 3) :=
  ⟨opening.toTables, fun _ => none, []⟩

theorem callInOrder_of_reachable_sharedAccounts :
    (executableTransfers.execute (idleSystem (twoAccounts (.cents ⟨100, by decide⟩) .zero))
      (meeting ++ [(sessionOne, .statement)])).isNone = true ∧
    (executableTransfers.execute (idleSystem (twoAccounts (.cents ⟨100, by decide⟩) .zero))
      (overtaken ++ [(sessionThree, .statement)])).isNone = true ∧
    Exists fun system =>
      executableTransfers.execute (idleSystem (twoAccounts (.cents ⟨100, by decide⟩) .zero))
        (overtaken ++ remainder sessionOne 6 ++ remainder sessionThree 8) = some system ∧
      system.history = [thirtyCents, fiftyCents] ∧
      Exists fun final : Database =>
        callInOrder (twoAccounts (.cents ⟨100, by decide⟩) .zero) system.history = .ok final ∧
        (forall id, (system.store.account? id).map Account.balance = final.balance? id) ∧
        (system.store.transactions : Multiset Transaction) = final.transactions := by
  refine ⟨by decide +kernel, by decide +kernel, ?_⟩
  have history : (executableTransfers.execute
      (idleSystem (twoAccounts (.cents ⟨100, by decide⟩) .zero))
        (overtaken ++ remainder sessionOne 6 ++ remainder sessionThree 8)).map
          (fun system => system.history) = some [thirtyCents, fiftyCents] := by
    decide +kernel
  rcases Option.map_eq_some_iff.mp history with ⟨system, executed, calls⟩
  have reachable := LockingProtocol.Executable.reachable_of_execute Relation.ReflTransGen.refl executed
  exact ⟨system, executed, calls, callInOrder_of_reachable _ reachable⟩

end CoreBank
