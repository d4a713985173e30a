import CoreBank.Database.Schema

namespace CoreBank

open Foundation

/-!
# Data-changing statements and the row triggers

A statement is executed under the value of `database1.allow_balance_update`
that its transaction sees.  Every selected row passes through the assignment of
its columns, the row triggers and the constraints on single columns; the
constraints across rows are checked on the resulting tables.  Any error ends
the statement, which then has no effect.

The column expressions of an `UPDATE` are arbitrary functions of the row, so a
statement here stands for every text with the same listed columns.
-/

/-! ## The trigger functions -/

/-- `prevent_direct_balance_update`, on the value that `current_setting`
returns; an unset parameter is null. -/
def preventDirectBalanceUpdate (allowUpdate : Option String) : Except SqlError Unit :=
  if allowUpdate ≠ some "on" then .error (.trigger .directBalanceUpdate) else .ok ()

/-- `prevent_transaction_modifications`. -/
def preventTransactionModifications : Except SqlError Unit :=
  .error (.trigger .transactionModified)

/-- `prevent_delete_nonzero_balance`, on the row to be deleted. -/
def preventDeleteNonzeroBalance (old : Account) : Except SqlError Unit :=
  if old.balance.toNumeric.less Numeric.zero || Numeric.zero.less old.balance.toNumeric then
    .error (.trigger (.deleteNonzeroBalance old.accountId old.balance))
  else .ok ()

theorem preventDirectBalanceUpdate_eq_ok_iff (allowUpdate : Option String) :
    preventDirectBalanceUpdate allowUpdate = .ok () ↔ allowUpdate = some "on" := by
  rw [preventDirectBalanceUpdate, raise_if_eq_ok_iff, not_not]

/-- An account is let go only at a balance of exactly zero; `NaN` is not. -/
theorem measure_of_preventDeleteNonzeroBalance {old : Account}
    (released : preventDeleteNonzeroBalance old = .ok ()) : old.balance.measure = 0 := by
  rw [preventDeleteNonzeroBalance, raise_if_eq_ok_iff] at released
  cases balance : old.balance with
  | nan => exact False.elim (released (by rw [balance]; decide))
  | cents amount =>
      rw [balance, Bool.or_eq_true, not_or] at released
      simp only [Money.toNumeric, Numeric.finite_less_zero, Numeric.zero_less_finite,
        Decimal.value_cents, not_lt] at released
      have above : (0 : ℚ) ≤ amount.value := by linarith [released.1]
      have below : (amount.value : ℚ) ≤ 0 := by linarith [released.2]
      have zero : amount.value = 0 := by exact_mod_cast le_antisymm below above
      rw [Money.measure_cents, zero]
      rfl

/-! ## Column values -/

def required {A : Type} (column : String) : Option A -> Except SqlError A
  | none => .error (.notNullViolation column)
  | some value => .ok value

/-- Assignment to a `VARCHAR(n)` column; blanks beyond the limit are cut off. -/
def Varchar.store (limit : ℕ) (text : String) : Except SqlError (Varchar limit) :=
  if fits : text.length ≤ limit then .ok ⟨text, fits⟩
  else if (text.toList.drop limit).all (· = ' ') then
    .ok ⟨String.ofList (text.toList.take limit), by simp⟩
  else .error (.stringTooLong limit)

/-- Assignment to a NUMERIC(14,2) column that may be null. -/
def storeMoney : Option Numeric -> Except SqlError (Option Money)
  | none => .ok none
  | some value =>
      match Money.store value with
      | none => .error .numericFieldOverflow
      | some stored => .ok (some stored)

def storeText (limit : ℕ) : Option String -> Except SqlError (Option (Varchar limit))
  | none => .ok none
  | some text => (Varchar.store limit text).map some

def AccountType.store : String -> Except SqlError AccountType
  | "checking" => .ok .checking
  | "savings" => .ok .savings
  | "credit" => .ok .credit
  | _ => .error (.checkViolation "accounts_account_type_check")

def LedgerAmount.store (money : Money) : Except SqlError LedgerAmount :=
  if positive : Numeric.zero.less money.toNumeric = true then .ok ⟨money, positive⟩
  else .error (.checkViolation "transactions_amount_check")

/-! ## Proposed rows -/

/-- The values of a new `customers` row, defaults filled in. -/
structure CustomerInput where
  customerId : Option ℤ
  fullName : Option String
  email : Option String

/-- The values of a new `accounts` row, defaults filled in. -/
structure AccountInput where
  accountId : Option ℤ
  customerId : Option ℤ
  accountType : Option String
  balance : Option Numeric
  currency : Option String

/-- The values of a new `transactions` row, defaults filled in. -/
structure TransactionInput where
  transactionId : Option ℤ
  fromAccount : Option ℤ
  toAccount : Option ℤ
  amount : Option Numeric
  description : Option String
  timestamp : Option ℤ
  status : Option String

def CustomerInput.row (input : CustomerInput) : Except SqlError Customer := do
  let fullName <- storeText 120 input.fullName
  let email <- storeText 200 input.email
  let customerId <- required "customer_id" input.customerId
  let fullName <- required "full_name" fullName
  let email <- required "email" email
  pure { customerId, fullName, email }

def AccountInput.row (input : AccountInput) : Except SqlError Account := do
  let balance <- storeMoney input.balance
  let currency <- storeText 3 input.currency
  let accountId <- required "account_id" input.accountId
  let customerId <- required "customer_id" input.customerId
  let accountType <- required "account_type" input.accountType
  let balance <- required "balance" balance
  let accountType <- AccountType.store accountType
  pure { accountId, customerId, accountType, balance, currency }

def TransactionInput.row (input : TransactionInput) : Except SqlError Transaction := do
  let amount <- storeMoney input.amount
  let status <- storeText 20 input.status
  let transactionId <- required "transaction_id" input.transactionId
  let amount <- required "amount" amount
  let amount <- LedgerAmount.store amount
  pure {
    transactionId
    fromAccount := input.fromAccount
    toAccount := input.toAccount
    amount
    description := input.description
    timestamp := input.timestamp
    status }

/-! ## Assignments -/

/-- The value of a column after the assignments: its expression when the
column is listed, and its present value otherwise. -/
def assigned {Row A : Type} (listed : Option (Row -> Option A)) (present : A) (row : Row) : Option A :=
  match listed with
  | none => some present
  | some expression => expression row

/-- The listed columns of an update of `customers`. -/
structure CustomerSet where
  customerId : Option (Customer -> Option ℤ)
  fullName : Option (Customer -> Option String)
  email : Option (Customer -> Option String)

/-- The listed columns of an update of `accounts`. -/
structure AccountSet where
  accountId : Option (Account -> Option ℤ)
  customerId : Option (Account -> Option ℤ)
  accountType : Option (Account -> Option String)
  balance : Option (Account -> Option Numeric)
  currency : Option (Account -> Option String)

def CustomerSet.assign (set : CustomerSet) (row : Customer) : Except SqlError Customer := do
  let fullName <- storeText 120 (assigned set.fullName row.fullName.text row)
  let email <- storeText 200 (assigned set.email row.email.text row)
  let customerId <- required "customer_id" (assigned set.customerId row.customerId row)
  let fullName <- required "full_name" fullName
  let email <- required "email" email
  pure { customerId, fullName, email }

/-- The new balance; a listed balance passes the trigger
`trg_prevent_direct_balance_update`. -/
def AccountSet.assignBalance (set : AccountSet) (allowUpdate : Option String) (row : Account) :
    Except SqlError Money :=
  match set.balance with
  | none => .ok row.balance
  | some expression => do
      let balance <- storeMoney (expression row)
      preventDirectBalanceUpdate allowUpdate
      required "balance" balance

def AccountSet.assignType (set : AccountSet) (row : Account) : Except SqlError AccountType :=
  match set.accountType with
  | none => .ok row.accountType
  | some expression => do
      let accountType <- required "account_type" (expression row)
      AccountType.store accountType

def AccountSet.assignCurrency (set : AccountSet) (row : Account) :
    Except SqlError (Option (Varchar 3)) :=
  match set.currency with
  | none => .ok row.currency
  | some expression => storeText 3 (expression row)

def AccountSet.assign (set : AccountSet) (allowUpdate : Option String) (row : Account) :
    Except SqlError Account := do
  let currency <- set.assignCurrency row
  let balance <- set.assignBalance allowUpdate row
  let accountId <- required "account_id" (assigned set.accountId row.accountId row)
  let customerId <- required "customer_id" (assigned set.customerId row.customerId row)
  let accountType <- set.assignType row
  pure { accountId, customerId, accountType, balance, currency }

/-- A listed balance needs the permission; otherwise the balance is kept. -/
theorem AccountSet.assign_balance {set : AccountSet} {allowUpdate : Option String}
    {row changed : Account} (success : set.assign allowUpdate row = .ok changed) :
    (set.balance.isSome = true ∧ allowUpdate = some "on") ∨
      (set.balance = none ∧ changed.balance = row.balance) := by
  rw [assign] at success
  rcases bind_eq_ok_iff.mp success with ⟨currency, _, success⟩
  rcases bind_eq_ok_iff.mp success with ⟨balance, assignedBalance, success⟩
  rcases bind_eq_ok_iff.mp success with ⟨accountId, _, success⟩
  rcases bind_eq_ok_iff.mp success with ⟨customerId, _, success⟩
  rcases bind_eq_ok_iff.mp success with ⟨accountType, _, success⟩
  cases success
  unfold assignBalance at assignedBalance
  cases listed : set.balance with
  | none =>
      rw [listed] at assignedBalance
      exact Or.inr ⟨rfl, (Except.ok.inj assignedBalance).symm⟩
  | some expression =>
      rw [listed] at assignedBalance
      rcases bind_eq_ok_iff.mp assignedBalance with ⟨stored, _, guarded⟩
      rcases bind_eq_ok_iff.mp guarded with ⟨_, permitted, _⟩
      exact Or.inl ⟨rfl, (preventDirectBalanceUpdate_eq_ok_iff allowUpdate).mp permitted⟩

/-! ## Statements -/

/-- The unique columns of `customers` that a conflict can be about. -/
inductive CustomerKey where
  | customerId
  | email

def CustomerKey.conflicts : CustomerKey -> Customer -> Customer -> Bool
  | .customerId, row, candidate => decide (row.customerId = candidate.customerId)
  | .email, row, candidate => decide (row.email.text = candidate.email.text)

/-- The row-level statements.  In an `INSERT ... ON CONFLICT DO UPDATE` the
assignments and the `WHERE` may read the stored and the proposed row. -/
inductive Statement where
  | insertCustomers (rows : List CustomerInput)
  | upsertCustomers (rows : List CustomerInput) (key : CustomerKey)
      (selected : Customer -> Customer -> Bool) (set : Customer -> Customer -> CustomerSet)
  | updateCustomers (selected : Customer -> Bool) (set : CustomerSet)
  | deleteCustomers (selected : Customer -> Bool)
  | insertAccounts (rows : List AccountInput)
  | upsertAccounts (rows : List AccountInput) (selected : Account -> Account -> Bool)
      (set : Account -> Account -> AccountSet)
  | updateAccounts (selected : Account -> Bool) (set : AccountSet)
  | deleteAccounts (selected : Account -> Bool)
  | insertTransactions (rows : List TransactionInput)
  | upsertTransactions (rows : List TransactionInput) (selected : Transaction -> Transaction -> Bool)
  | updateTransactions (selected : Transaction -> Bool)
  | deleteTransactions (selected : Transaction -> Bool)

/-- An update of a ledger row never gets past its trigger. -/
def Transaction.modify (_row : Transaction) : Except SqlError Transaction := do
  preventTransactionModifications
  pure _row

/-- Mark the stored rows as not yet affected by the command. -/
def untouched {Row : Type} (rows : List Row) : List (Row × Bool) :=
  rows.map fun row => (row, false)

/-- Execute a statement: the new tables, and the rows it inserted into
`accounts`. -/
def Statement.execute (statement : Statement) (allowUpdate : Option String) (database : Database) :
    Except SqlError (Database × List Account) :=
  match statement with
  | .insertCustomers inputs => do
      let rows <- inputs.mapM CustomerInput.row
      let result <- Tables.check { database.toTables with customers := database.customers ++ rows }
      pure (result, [])
  | .upsertCustomers inputs key selected set => do
      let rows <- inputs.mapM CustomerInput.row
      let (customers, _) <- RowTable.upsertRows key.conflicts selected .cardinalityViolation
        (fun row excluded => (set row excluded).assign row) rows (untouched database.customers)
      let result <- Tables.check { database.toTables with customers := customers.map Prod.fst }
      pure (result, [])
  | .updateCustomers selected set => do
      let customers <- RowTable.updateRows selected set.assign database.customers
      let result <- Tables.check { database.toTables with customers }
      pure (result, [])
  | .deleteCustomers selected => do
      let customers <- RowTable.deleteRows selected (fun _ => .ok ()) database.customers
      let result <- Tables.check { database.toTables with customers }
      pure (result, [])
  | .insertAccounts inputs => do
      let rows <- inputs.mapM AccountInput.row
      let result <- Tables.check { database.toTables with accounts := database.accounts ++ rows }
      pure (result, rows)
  | .upsertAccounts inputs selected set => do
      let rows <- inputs.mapM AccountInput.row
      let (accounts, inserted) <- RowTable.upsertRows
        (fun row candidate => decide (row.accountId = candidate.accountId)) selected
        .cardinalityViolation (fun row excluded => (set row excluded).assign allowUpdate row) rows
        (untouched database.accounts)
      let result <- Tables.check { database.toTables with accounts := accounts.map Prod.fst }
      pure (result, inserted)
  | .updateAccounts selected set => do
      let accounts <- RowTable.updateRows selected (set.assign allowUpdate) database.accounts
      let result <- Tables.check { database.toTables with accounts }
      pure (result, [])
  | .deleteAccounts selected => do
      let accounts <- RowTable.deleteRows selected preventDeleteNonzeroBalance database.accounts
      let result <- Tables.check { database.toTables with accounts }
      pure (result, [])
  | .insertTransactions inputs => do
      let rows <- inputs.mapM TransactionInput.row
      let result <- Tables.check
        { database.toTables with transactions := database.transactions ++ rows }
      pure (result, [])
  | .upsertTransactions inputs selected => do
      let rows <- inputs.mapM TransactionInput.row
      let (transactions, _) <- RowTable.upsertRows
        (fun row candidate => decide (row.transactionId = candidate.transactionId)) selected
        .cardinalityViolation (fun row _ => row.modify) rows (untouched database.transactions)
      let result <- Tables.check { database.toTables with transactions := transactions.map Prod.fst }
      pure (result, [])
  | .updateTransactions selected => do
      let transactions <- RowTable.updateRows selected Transaction.modify database.transactions
      let result <- Tables.check { database.toTables with transactions }
      pure (result, [])
  | .deleteTransactions selected => do
      let transactions <- RowTable.deleteRows selected (fun _ => preventTransactionModifications)
        database.transactions
      let result <- Tables.check { database.toTables with transactions }
      pure (result, [])

/-- Without the permission an update that lists `balance` and touches a row
raises. -/
theorem updateAccounts_raises {selected : Account -> Bool} {set : AccountSet}
    {allowUpdate : Option String} {database : Database}
    (withoutPermission : allowUpdate ≠ some "on") (listed : set.balance.isSome = true)
    {account : Account} (member : account ∈ database.accounts) (touched : selected account = true) :
    Exists fun problem =>
      (Statement.updateAccounts selected set).execute allowUpdate database = .error problem := by
  cases outcome : (Statement.updateAccounts selected set).execute allowUpdate database with
  | error problem => exact ⟨problem, rfl⟩
  | ok result =>
      rcases bind_eq_ok_iff.mp outcome with ⟨rows, updated, _⟩
      rcases RowTable.update_of_updateRows updated member touched with ⟨changed, assignedRow⟩
      rcases set.assign_balance assignedRow with ⟨_, permitted⟩ | ⟨unlisted, _⟩
      · exact False.elim (withoutPermission permitted)
      · rw [unlisted] at listed
        cases listed

/-! ## Procedures -/

/-- What a procedure sees and changes: the tables and the setting
`database1.allow_balance_update` of its transaction. -/
structure Backend where
  database : Database
  allowBalanceUpdate : Option String

/-- A procedure.  An error carries no state: the subtransaction or the
statement that it leaves is rolled back with its settings. -/
abbrev Sql (A : Type) : Type :=
  StateT Backend (Except SqlError) A

def perform (statement : Statement) : Sql Unit := fun backend => do
  let (database, _) <- statement.execute backend.allowBalanceUpdate backend.database
  pure ((), { backend with database })

/-- `PERFORM set_config('database1.allow_balance_update', value, true)`. -/
def setConfig (value : String) : Sql Unit :=
  modify fun backend => { backend with allowBalanceUpdate := some value }

theorem off_ne_on : some "off" ≠ some "on" := by
  decide

end CoreBank
