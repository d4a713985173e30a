import CoreBank.Database.Numeric
import CoreBank.Foundation.RowStatements

namespace CoreBank

open Foundation

/-!
# The tables of the bank and their constraints

The rows carry the constraints on single columns: a bounded text, an account
type from the allowed list, a ledger amount above zero, and a plain type for a
column that is `NOT NULL`.  The constraints across rows are the keys and the
references; a `Database` is a set of tables together with the proof that they
hold, so no operation can return tables that break them.
-/

/-- A value of a `VARCHAR(n)` column. -/
structure Varchar (limit : ℕ) where
  text : String
  fits : text.length ≤ limit
  deriving DecidableEq, Repr

/-- `CHECK (account_type IN ('checking', 'savings', 'credit'))`. -/
inductive AccountType where
  | checking
  | savings
  | credit
  deriving DecidableEq, Repr

structure Customer where
  customerId : ℤ
  fullName : Varchar 120
  email : Varchar 200
  deriving DecidableEq, Repr

structure Account where
  accountId : ℤ
  customerId : ℤ
  accountType : AccountType
  balance : Money
  currency : Option (Varchar 3)
  deriving DecidableEq, Repr

/-- A stored amount that satisfies `CHECK (amount > 0)`. -/
structure LedgerAmount where
  money : Money
  positive : Numeric.zero.less money.toNumeric = true
  deriving DecidableEq, Repr

structure Transaction where
  transactionId : ℤ
  fromAccount : Option ℤ
  toAccount : Option ℤ
  amount : LedgerAmount
  description : Option String
  timestamp : Option ℤ
  status : Option (Varchar 20)
  deriving DecidableEq, Repr

/-- The constraints by the names PostgreSQL gives them. -/
inductive Constraint where
  | customersPkey
  | customersEmailKey
  | accountsPkey
  | accountsCustomerIdFkey
  | transactionsPkey
  | transactionsFromAccountFkey
  | transactionsToAccountFkey
  deriving DecidableEq, Repr

/-- What `transferMoney` raises by itself. -/
inductive TransferError where
  | amountNotPositive
  | sourceMissing (account : Option ℤ)
  | destinationMissing (account : Option ℤ)
  | currencyMismatch (source destination : Varchar 3)
  | insufficientFunds (account : Option ℤ) (balance : Option Numeric) (attempted : Option Numeric)
  deriving DecidableEq, Repr

/-- What the triggers raise. -/
inductive TriggerError where
  | directBalanceUpdate
  | transactionModified
  | deleteNonzeroBalance (account : ℤ) (balance : Money)
  deriving DecidableEq, Repr

/-- Everything that can end a statement. -/
inductive SqlError where
  | transfer (raised : TransferError)
  | trigger (raised : TriggerError)
  | notNullViolation (column : String)
  | checkViolation (constraint : String)
  | numericFieldOverflow
  | stringTooLong (limit : ℕ)
  | constraintViolation (constraint : Constraint)
  | cardinalityViolation
  | sequenceLimitExceeded
  | queryCanceled
  deriving DecidableEq, Repr

/-- An argument of `RAISE` in the place of `%`; a null argument prints as
`<NULL>`. -/
def argumentText {A : Type} (text : A -> String) : Option A -> String
  | none => "<NULL>"
  | some value => text value

def TransferError.message : TransferError -> String
  | .amountNotPositive => "Transfer amount must be positive"
  | .sourceMissing account => "Source account " ++ argumentText toString account ++ " does not exist"
  | .destinationMissing account =>
      "Destination account " ++ argumentText toString account ++ " does not exist"
  | .currencyMismatch source destination =>
      "Currency mismatch: " ++ source.text ++ " vs " ++ destination.text
  | .insufficientFunds account balance attempted =>
      "Insufficient funds in account " ++ argumentText toString account ++ ", balance: " ++
        argumentText Numeric.text balance ++ ", attempted: " ++ argumentText Numeric.text attempted

def TriggerError.message : TriggerError -> String
  | .directBalanceUpdate =>
      "Direct balance updates are not allowed. Use transferMoney() instead."
  | .transactionModified => "Transactions cannot be modified or deleted."
  | .deleteNonzeroBalance account balance =>
      "Cannot delete account " ++ toString account ++
        ". Balance must be zero. Current balance: " ++ balance.toNumeric.text

/-- `EXCEPTION WHEN OTHERS` catches every error except a cancelled query. -/
def SqlError.caughtByOthers : SqlError -> Bool
  | .queryCanceled => false
  | _ => true

/-- The contents of the three base tables. -/
structure Tables where
  customers : List Customer
  accounts : List Account
  transactions : List Transaction
  deriving DecidableEq, Repr

namespace Tables

def accountIds (tables : Tables) : List ℤ :=
  tables.accounts.map Account.accountId

def customerIds (tables : Tables) : List ℤ :=
  tables.customers.map Customer.customerId

/-- A reference is null or names a stored account. -/
def Refers (tables : Tables) (reference : Option ℤ) : Prop :=
  forall account, account ∈ reference -> account ∈ tables.accountIds

instance (tables : Tables) (reference : Option ℤ) : Decidable (tables.Refers reference) :=
  match reference with
  | none => isTrue fun _ impossible => by cases impossible
  | some account =>
      if member : account ∈ tables.accountIds then
        isTrue fun _ same => by cases same; exact member
      else
        isFalse fun refers => member (refers account rfl)

/-- The keys are unique and the references resolve. -/
structure Satisfies (tables : Tables) : Prop where
  customersPkey : tables.customerIds.Nodup
  customersEmailKey : (tables.customers.map fun customer => customer.email.text).Nodup
  accountsPkey : tables.accountIds.Nodup
  accountsCustomerIdFkey : forall account, account ∈ tables.accounts ->
    account.customerId ∈ tables.customerIds
  transactionsPkey : (tables.transactions.map Transaction.transactionId).Nodup
  transactionsFromAccountFkey : forall row, row ∈ tables.transactions -> tables.Refers row.fromAccount
  transactionsToAccountFkey : forall row, row ∈ tables.transactions -> tables.Refers row.toAccount

def setBalance (tables : Tables) (id : ℤ) (balance : Money) : Tables where
  customers := tables.customers
  accounts := RowTable.replaceAt Account.accountId id (fun account => { account with balance })
    tables.accounts
  transactions := tables.transactions

theorem setBalance_accountIds (tables : Tables) (id : ℤ) (balance : Money) :
    (tables.setBalance id balance).accountIds = tables.accountIds := by
  unfold accountIds setBalance
  simp only [RowTable.replaceAt, List.map_map]
  refine List.map_congr_left fun account _member => ?_
  by_cases same : account.accountId = id <;> simp only [Function.comp, same, if_true, if_false]

theorem Satisfies.setBalance {tables : Tables} (satisfies : tables.Satisfies) (id : ℤ)
    (balance : Money) : (tables.setBalance id balance).Satisfies where
  customersPkey := satisfies.customersPkey
  customersEmailKey := satisfies.customersEmailKey
  accountsPkey := by
    rw [setBalance_accountIds]
    exact satisfies.accountsPkey
  accountsCustomerIdFkey := by
    intro account member
    rcases List.mem_map.mp member with ⟨old, oldMember, rfl⟩
    have owner := satisfies.accountsCustomerIdFkey old oldMember
    split_ifs
    · exact owner
    · exact owner
  transactionsPkey := satisfies.transactionsPkey
  transactionsFromAccountFkey := by
    intro row member account named
    rw [setBalance_accountIds]
    exact satisfies.transactionsFromAccountFkey row member account named
  transactionsToAccountFkey := by
    intro row member account named
    rw [setBalance_accountIds]
    exact satisfies.transactionsToAccountFkey row member account named

def record (tables : Tables) (row : Transaction) : Tables where
  customers := tables.customers
  accounts := tables.accounts
  transactions := tables.transactions ++ [row]

theorem Satisfies.record {tables : Tables} (satisfies : tables.Satisfies) {row : Transaction}
    (fresh : row.transactionId ∉ tables.transactions.map Transaction.transactionId)
    (source : tables.Refers row.fromAccount) (destination : tables.Refers row.toAccount) :
    (tables.record row).Satisfies where
  customersPkey := satisfies.customersPkey
  customersEmailKey := satisfies.customersEmailKey
  accountsPkey := satisfies.accountsPkey
  accountsCustomerIdFkey := satisfies.accountsCustomerIdFkey
  transactionsPkey := by
    rw [Tables.record, List.map_append, List.map_singleton, List.nodup_append]
    refine ⟨satisfies.transactionsPkey, List.nodup_singleton _, ?_⟩
    intro old member new same
    rw [List.mem_singleton.mp same]
    exact fun equal => fresh (equal ▸ member)
  transactionsFromAccountFkey := by
    intro entry member
    rcases List.mem_append.mp member with old | new
    · exact satisfies.transactionsFromAccountFkey entry old
    · rw [List.mem_singleton.mp new]
      exact source
  transactionsToAccountFkey := by
    intro entry member
    rcases List.mem_append.mp member with old | new
    · exact satisfies.transactionsToAccountFkey entry old
    · rw [List.mem_singleton.mp new]
      exact destination

end Tables

/-- Tables that satisfy the schema. -/
structure Database extends Tables where
  satisfies : toTables.Satisfies

theorem Database.ext_tables {left right : Database} (same : left.toTables = right.toTables) :
    left = right := by
  cases left
  cases right
  cases same
  rfl

instance : DecidableEq Database := fun left right =>
  if same : left.toTables = right.toTables then isTrue (Database.ext_tables same)
  else isFalse fun equal => same (congrArg Database.toTables equal)

/-- The constraint checks at the end of a statement. -/
def Tables.check (tables : Tables) : Except SqlError Database :=
  if customersPkey : tables.customerIds.Nodup then
  if customersEmailKey : (tables.customers.map fun customer => customer.email.text).Nodup then
  if accountsPkey : tables.accountIds.Nodup then
  if accountsCustomerIdFkey : forall account, account ∈ tables.accounts ->
      account.customerId ∈ tables.customerIds then
  if transactionsPkey : (tables.transactions.map Transaction.transactionId).Nodup then
  if transactionsFromAccountFkey : forall row, row ∈ tables.transactions ->
      tables.Refers row.fromAccount then
  if transactionsToAccountFkey : forall row, row ∈ tables.transactions ->
      tables.Refers row.toAccount then
    .ok ⟨tables, customersPkey, customersEmailKey, accountsPkey, accountsCustomerIdFkey,
      transactionsPkey, transactionsFromAccountFkey, transactionsToAccountFkey⟩
  else .error (.constraintViolation .transactionsToAccountFkey)
  else .error (.constraintViolation .transactionsFromAccountFkey)
  else .error (.constraintViolation .transactionsPkey)
  else .error (.constraintViolation .accountsCustomerIdFkey)
  else .error (.constraintViolation .accountsPkey)
  else .error (.constraintViolation .customersEmailKey)
  else .error (.constraintViolation .customersPkey)

/-- The check succeeds exactly on tables that satisfy the schema, and returns
them as they are. -/
theorem Tables.check_of_satisfies {tables : Tables} (satisfies : tables.Satisfies) :
    tables.check = .ok ⟨tables, satisfies⟩ := by
  rw [check, dif_pos satisfies.customersPkey, dif_pos satisfies.customersEmailKey,
    dif_pos satisfies.accountsPkey, dif_pos satisfies.accountsCustomerIdFkey,
    dif_pos satisfies.transactionsPkey, dif_pos satisfies.transactionsFromAccountFkey,
    dif_pos satisfies.transactionsToAccountFkey]

theorem Tables.toTables_of_check {tables : Tables} {database : Database}
    (success : tables.check = .ok database) : database.toTables = tables := by
  simp only [check] at success
  split_ifs at success
  cases success
  rfl

theorem Tables.check_eq_ok_iff {tables : Tables} {database : Database} :
    tables.check = .ok database ↔ database.toTables = tables := by
  constructor
  · exact toTables_of_check
  · intro same
    subst same
    exact check_of_satisfies database.satisfies

namespace Database

/-- The row of an account, as `WHERE account_id = id` finds it. -/
def account? (database : Database) (id : ℤ) : Option Account :=
  database.accounts.find? fun account => decide (account.accountId = id)

/-- `WHERE account_id = id` with an argument that may be null. -/
def select (database : Database) (id : Option ℤ) : Option Account :=
  id.bind database.account?

def balance? (database : Database) (id : ℤ) : Option Money :=
  (database.account? id).map Account.balance

/-- The sum of all balances in cents. -/
def total (database : Database) : WithTop ℤ :=
  (database.accounts.map fun account => account.balance.measure).sum

theorem accountId_of_account? (database : Database) {id : ℤ} {account : Account}
    (found : database.account? id = some account) : account.accountId = id := by
  simpa only [decide_eq_true_eq] using List.find?_some found

theorem mem_of_account? {database : Database} {id : ℤ} {account : Account}
    (found : database.account? id = some account) : account ∈ database.accounts :=
  List.mem_of_find?_eq_some found

theorem account?_isSome_iff (database : Database) (id : ℤ) :
    (database.account? id).isSome = true ↔ id ∈ database.accountIds := by
  rw [account?, List.find?_isSome, Tables.accountIds, List.mem_map]
  simp only [decide_eq_true_eq]

theorem account?_of_mem {database : Database} {account : Account}
    (member : account ∈ database.accounts) :
    database.account? account.accountId = some account := by
  have present : (database.account? account.accountId).isSome = true := by
    rw [account?_isSome_iff]
    exact List.mem_map_of_mem member
  rcases Option.isSome_iff_exists.mp present with ⟨found, foundAt⟩
  have sameId := accountId_of_account? database foundAt
  have same := List.inj_on_of_nodup_map database.satisfies.accountsPkey (mem_of_account? foundAt)
    member sameId
  rw [foundAt, same]

/-- Replace the balance of one account. -/
def setBalance (database : Database) (id : ℤ) (balance : Money) : Database :=
  ⟨database.toTables.setBalance id balance, database.satisfies.setBalance id balance⟩

@[simp] theorem setBalance_customers (database : Database) (id : ℤ) (balance : Money) :
    (database.setBalance id balance).customers = database.customers := rfl

@[simp] theorem setBalance_transactions (database : Database) (id : ℤ) (balance : Money) :
    (database.setBalance id balance).transactions = database.transactions := rfl

@[simp] theorem setBalance_accountIds (database : Database) (id : ℤ) (balance : Money) :
    (database.setBalance id balance).accountIds = database.accountIds :=
  database.toTables.setBalance_accountIds id balance

/-- Only the row of the named account changes, and only in its balance. -/
theorem setBalance_account? (database : Database) (id : ℤ) (balance : Money) (other : ℤ) :
    (database.setBalance id balance).account? other =
      if other = id then (database.account? id).map fun account => { account with balance }
      else database.account? other := by
  have keepsId : forall account : Account,
      (if account.accountId = id then { account with balance } else account).accountId =
        account.accountId := by
    intro account
    by_cases same : account.accountId = id <;> simp only [same, if_true, if_false]
  unfold account? setBalance Tables.setBalance
  simp only [RowTable.replaceAt, List.find?_map, Function.comp_def, keepsId]
  by_cases same : other = id
  · subst other
    rw [if_pos rfl]
    cases found : database.accounts.find? fun account => decide (account.accountId = id) with
    | none => rfl
    | some account =>
        have atId := accountId_of_account? database found
        simp only [Option.map_some, atId, if_true]
  · rw [if_neg same]
    cases found : database.accounts.find? fun account => decide (account.accountId = other) with
    | none => rfl
    | some account =>
        have atOther := accountId_of_account? database found
        simp only [Option.map_some, atOther, same, if_false]

/-- The total splits into the balance of one account and the rest, and setting
that balance leaves the rest. -/
theorem setBalance_total {database : Database} {id : ℤ} {account : Account}
    (found : database.account? id = some account) :
    Exists fun others : WithTop ℤ => database.total = account.balance.measure + others ∧
      forall balance, (database.setBalance id balance).total = balance.measure + others := by
  rcases RowTable.replaceAt_total Account.accountId (fun row => row.balance.measure)
    database.satisfies.accountsPkey found with ⟨others, before, after⟩
  exact ⟨others, before, fun balance => after fun row => { row with balance }⟩

/-- Append one ledger row. -/
def record (database : Database) (row : Transaction)
    (fresh : row.transactionId ∉ database.transactions.map Transaction.transactionId)
    (source : database.Refers row.fromAccount) (destination : database.Refers row.toAccount) :
    Database :=
  ⟨database.toTables.record row, database.satisfies.record fresh source destination⟩

end Database

def Money.oneDollar : Money :=
  .cents ⟨100, by decide⟩

/-- One customer with two dollar accounts and an empty ledger, the smallest
tables on which a transfer can move money. -/
def twoAccounts (first second : Money) : Database where
  customers := [⟨1, ⟨"Alice Johnson", by decide⟩, ⟨"alice.j@bank1.com", by decide⟩⟩]
  accounts := [⟨1, 1, .checking, first, some ⟨"USD", by decide⟩⟩,
    ⟨2, 1, .savings, second, some ⟨"USD", by decide⟩⟩]
  transactions := []
  satisfies := {
    customersPkey := List.nodup_singleton _
    customersEmailKey := List.nodup_singleton _
    accountsPkey := by
      change [(1 : ℤ), 2].Nodup
      decide
    accountsCustomerIdFkey := by
      intro account member
      have owner : account.customerId = 1 := by
        rcases List.mem_cons.mp member with same | member
        · rw [same]
        · rw [List.mem_singleton.mp member]
      rw [owner]
      exact List.mem_singleton.mpr rfl
    transactionsPkey := List.nodup_nil
    transactionsFromAccountFkey := fun _row impossible => by cases impossible
    transactionsToAccountFkey := fun _row impossible => by cases impossible }

end CoreBank
