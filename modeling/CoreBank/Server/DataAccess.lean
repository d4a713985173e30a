import CoreBank.Database.TransferMoney
import CoreBank.Server.Protocol

namespace CoreBank

open Foundation

/-!
# The data access layer

`AccountService` and `TransactionService` reach the tables through libpqxx.
Its conversions between C++ and SQL values, and the texts of its exceptions,
are parameters.  What becomes of the calls to the database is given apart from
them: each of begin, exec and commit may fail on its own, besides the refusals
that the procedure itself decides on.

A transaction object that is destroyed before its commit is rolled back, so a
failed call before that point leaves the tables as they were.  The log output
does not throw.
-/

/-- The conversions of libpqxx, and the texts of its exceptions. -/
structure Driver (Double : Type) where
  parameter : Double -> Numeric
  readBalance : Money -> Double
  what : SqlError -> String
  whatNull : String

/-- A driver for values that are the decimals themselves. -/
def numericDriver : Driver Numeric where
  parameter := id
  readBalance := Money.toNumeric
  what
    | .transfer raised => "ERROR:  " ++ raised.message ++ "\n"
    | .trigger raised => "ERROR:  " ++ raised.message ++ "\n"
    | _ => "ERROR:  statement refused\n"
  whatNull := "Attempt to convert SQL null to std::string."

/-- `strtod` for plain decimals, which are kept as they are written. -/
def readDecimal (text : List Byte) : Option Numeric :=
  let whole := text.takeWhile isDigit
  match text.dropWhile isDigit with
  | [] => some (.finite ⟨digitsValue whole, 0⟩)
  | _ :: fraction => some (.finite ⟨digitsValue (whole ++ fraction), fraction.length⟩)

/-- What becomes of `COMMIT`.  When the connection is lost, the exception does
not say whether the transaction is durable. -/
inductive CommitOutcome where
  | committed
  | refused (what : String)
  | inDoubt (what : String) (durable : Bool)
  deriving DecidableEq, Repr

/-- What becomes of the calls to the database in one transaction: the exception
of begin, an exception of exec other than the refusals of the procedure, and
the outcome of committing some tables. -/
structure DatabaseWork where
  beginFails : Option String
  execFails : Option String
  commit : Database -> CommitOutcome

namespace CommitOutcome

/-- What `commit()` reports. -/
def reported : CommitOutcome -> Except String Unit
  | .committed => .ok ()
  | .refused what => .error what
  | .inDoubt what _ => .error what

/-- The tables that are left once the transaction object is gone. -/
def durable (outcome : CommitOutcome) (uncommitted database : Database) : Database :=
  match outcome with
  | .committed => uncommitted
  | .refused _ => database
  | .inDoubt _ true => uncommitted
  | .inDoubt _ false => database

end CommitOutcome

/-- The calls to the database when nothing fails but the procedure and a
`COMMIT` that refuses its tables. -/
def dependable (refusal : Database -> Option String) : DatabaseWork where
  beginFails := none
  execFails := none
  commit tables :=
    match refusal tables with
    | none => .committed
    | some what => .refused what

/-- A failed call to the database throws its text. -/
def unlessFails : Option String -> Except String Unit
  | none => .ok ()
  | some what => .error what

/-! ## AccountService -/

def AccountType.text : AccountType -> String
  | .checking => "checking"
  | .savings => "savings"
  | .credit => "credit"

/-- The rows of `accounts a JOIN customers c ON a.customer_id = c.customer_id
WHERE a.account_id = $1`. -/
def Database.joinAccount (database : Database) (accountID : ℤ) : List (Account × Customer) :=
  (database.accounts.filter fun account => decide (account.accountId = accountID)).flatMap
    fun account =>
      (database.customers.filter fun customer => decide (account.customerId = customer.customerId)).map
        fun customer => (account, customer)

/-- The owner of an account, as the join finds it. -/
def Database.customer? (database : Database) (id : ℤ) : Option Customer :=
  database.customers.find? fun customer => decide (customer.customerId = id)

/-- Both keys are unique, so the join has one row at most. -/
theorem Database.joinAccount_eq (database : Database) (accountID : ℤ) :
    database.joinAccount accountID =
      ((database.account? accountID).bind fun account =>
        (database.customer? account.customerId).map fun customer => (account, customer)).toList := by
  have accounts := RowTable.filter_key Account.accountId accountID database.satisfies.accountsPkey
  have customers := fun id => RowTable.filter_key Customer.customerId id database.satisfies.customersPkey
  unfold joinAccount account? customer?
  simp only [eq_comm (a := Account.customerId _)]
  rw [accounts]
  cases database.accounts.find? fun account => decide (account.accountId = accountID) with
  | none => rfl
  | some account =>
      rw [Option.toList_some, List.flatMap_singleton, customers, Option.bind_some]
      cases database.customers.find? fun customer =>
        decide (customer.customerId = account.customerId) with
      | none => rfl
      | some customer => rfl

/-- The owner of a stored account is a stored customer. -/
theorem Database.customer?_of_account? {database : Database} {accountID : ℤ} {account : Account}
    (found : database.account? accountID = some account) :
    Exists fun customer => database.customer? account.customerId = some customer := by
  apply Option.isSome_iff_exists.mp
  rw [customer?, List.find?_isSome]
  rcases List.mem_map.mp (database.satisfies.accountsCustomerIdFkey account
    (Database.mem_of_account? found)) with ⟨customer, member, owner⟩
  exact ⟨customer, member, decide_eq_true owner⟩

namespace AccountService

/-- The account as `getAccount` returns it. -/
structure Account (Double : Type) where
  accountID : ℤ
  customerID : ℤ
  customerName : String
  customerEmail : String
  accountType : String
  balance : Double
  currency : String
  deriving DecidableEq, Repr

variable {Double : Type} (driver : Driver Double) (work : DatabaseWork)

/-- The conversion of the first row; a missing currency has no text. -/
def build (rows : List (CoreBank.Account × Customer)) : Except String (Option (Account Double)) :=
  match rows with
  | [] => .ok none
  | (account, customer) :: _ =>
      match account.currency with
      | none => .error driver.whatNull
      | some currency => .ok (some {
          accountID := account.accountId
          customerID := account.customerId
          customerName := customer.fullName.text
          customerEmail := customer.email.text
          accountType := account.accountType.text
          balance := driver.readBalance account.balance
          currency := currency.text })

def getAccount (accountID : ℤ) (database : Database) : Except String (Option (Account Double)) := do
  unlessFails work.beginFails
  unlessFails work.execFails
  let rows := database.joinAccount accountID
  (work.commit database).reported
  build driver rows

/-- What `getBalance` makes of the account. -/
def balanceOf (accountId : ℤ) : Option (Account Double) -> Except String Double
  | none => .error ("Account not found: " ++ toString accountId)
  | some account => .ok account.balance

def getBalance (accountId : ℤ) (database : Database) : Except String Double := do
  let account <- getAccount driver work accountId database
  balanceOf accountId account

def accountExist (accountID : ℤ) (database : Database) : Except String Bool := do
  let account <- getAccount driver work accountID database
  pure account.isSome

section Undisturbed

variable {driver work} {database : Database} {accountId : ℤ}

/-- Without failures of the connection, `getAccount` converts the row with the
id and its owner. -/
theorem getAccount_eq (undisturbed : work.beginFails = none ∧ work.execFails = none)
    (commits : work.commit database = .committed) :
    getAccount driver work accountId database =
      build driver ((database.account? accountId).bind fun account =>
        (database.customer? account.customerId).map fun customer => (account, customer)).toList := by
  unfold getAccount
  rw [undisturbed.1, undisturbed.2, commits, Database.joinAccount_eq]
  rfl

theorem getAccount_of_absent (undisturbed : work.beginFails = none ∧ work.execFails = none)
    (commits : work.commit database = .committed) (absent : database.account? accountId = none) :
    getAccount driver work accountId database = .ok none := by
  rw [getAccount_eq undisturbed commits, absent]
  rfl

/-- A missing currency cannot be converted. -/
theorem getAccount_of_null (undisturbed : work.beginFails = none ∧ work.execFails = none)
    (commits : work.commit database = .committed) {account : CoreBank.Account}
    (found : database.account? accountId = some account) (null : account.currency = none) :
    getAccount driver work accountId database = .error driver.whatNull := by
  rcases Database.customer?_of_account? found with ⟨customer, owner⟩
  rw [getAccount_eq undisturbed commits, found, Option.bind_some, owner]
  simp only [Option.map_some, Option.toList_some, build, null]

theorem getAccount_of_currency (undisturbed : work.beginFails = none ∧ work.execFails = none)
    (commits : work.commit database = .committed) {account : CoreBank.Account}
    (found : database.account? accountId = some account) {currency : Varchar 3}
    (present : account.currency = some currency) :
    Exists fun built => getAccount driver work accountId database = .ok (some built) ∧
      built.balance = driver.readBalance account.balance := by
  rcases Database.customer?_of_account? found with ⟨customer, owner⟩
  rw [getAccount_eq undisturbed commits, found, Option.bind_some, owner]
  simp only [Option.map_some, Option.toList_some, build, present]
  exact ⟨_, rfl, rfl⟩

/-- Without failures `getAccount` finds nothing, fails on a missing currency, or
returns the account. -/
theorem getAccount_cases (undisturbed : work.beginFails = none ∧ work.execFails = none)
    (commits : work.commit database = .committed) :
    (database.account? accountId = none ∧ getAccount driver work accountId database = .ok none) ∨
    (Exists fun account => database.account? accountId = some account ∧ account.currency = none ∧
      getAccount driver work accountId database = .error driver.whatNull) ∨
    Exists fun account => Exists fun built => database.account? accountId = some account ∧
      account.currency ≠ none ∧ getAccount driver work accountId database = .ok (some built) ∧
      built.balance = driver.readBalance account.balance := by
  cases found : database.account? accountId with
  | none => exact Or.inl ⟨rfl, getAccount_of_absent undisturbed commits found⟩
  | some account =>
      cases currency : account.currency with
      | none =>
          exact Or.inr (Or.inl ⟨account, rfl, currency,
            getAccount_of_null undisturbed commits found currency⟩)
      | some text =>
          rcases getAccount_of_currency undisturbed commits found currency with ⟨built, reads, balance⟩
          have present : account.currency ≠ none := by
            rw [currency]
            exact Option.some_ne_none text
          exact Or.inr (Or.inr ⟨account, built, rfl, present, reads, balance⟩)

/-- Without failures, `getBalance` reads the stored balance of an account that
has a currency. -/
theorem getBalance_eq (undisturbed : work.beginFails = none ∧ work.execFails = none)
    (commits : work.commit database = .committed) :
    getBalance driver work accountId database =
      match database.account? accountId with
      | none => .error ("Account not found: " ++ toString accountId)
      | some account =>
          if account.currency = none then .error driver.whatNull
          else .ok (driver.readBalance account.balance) := by
  unfold getBalance
  rcases getAccount_cases undisturbed commits with ⟨absent, reads⟩ |
    ⟨account, found, null, reads⟩ | ⟨account, built, found, present, reads, balance⟩
  · rw [reads, absent]
    rfl
  · rw [reads, found]
    exact (if_pos null).symm
  · rw [reads, found]
    dsimp only
    rw [if_neg present, ← balance]
    rfl

theorem accountExist_eq (undisturbed : work.beginFails = none ∧ work.execFails = none)
    (commits : work.commit database = .committed) :
    accountExist driver work accountId database =
      match database.account? accountId with
      | none => .ok false
      | some account => if account.currency = none then .error driver.whatNull else .ok true := by
  unfold accountExist
  rcases getAccount_cases undisturbed commits with ⟨absent, reads⟩ |
    ⟨account, found, null, reads⟩ | ⟨account, built, found, present, reads, _⟩
  · rw [reads, absent]
    rfl
  · rw [reads, found]
    exact (if_pos null).symm
  · rw [reads, found]
    exact (if_neg present).symm

end Undisturbed

end AccountService

/-! ## TransactionService -/

namespace TransactionService

variable {Double : Type} (driver : Driver Double) (work : DatabaseWork) (generated : Generated)

/-- The call in `SELECT transferMoney($1, $2, $3, $4)`. -/
def transferCall (fromAccountID toAccountID : ℤ) (amount : Double) (description : String) :
    TransferCall where
  fromAccount := some fromAccountID
  toAccount := some toAccountID
  amount := some (driver.parameter amount)
  description := some description

/-- `tx->exec(...)`: the tables inside the transaction. -/
def exec (call : TransferCall) (database : Database) : Except String Database :=
  match work.execFails with
  | some what => .error what
  | none => (callTransferMoney call generated database).mapError driver.what

/-- The exception that leaves the catch block. -/
def transferFailed (what : String) : String :=
  "Transfer failed: " ++ what

def transfer (fromAccountID toAccountID : ℤ) (amount : Double) (description : String)
    (database : Database) : Except String Unit × Database :=
  match work.beginFails with
  | some what => (.error what, database)
  | none =>
      let call := transferCall driver fromAccountID toAccountID amount description
      match exec driver work generated call database with
      | .error what => (.error (transferFailed what), database)
      | .ok uncommitted =>
          let outcome := work.commit uncommitted
          (outcome.reported.mapError transferFailed, outcome.durable uncommitted database)

end TransactionService

/-- The services behind a handler. -/
def bankServices {Double : Type} (driver : Driver Double) (showDouble : Double -> String)
    (work : DatabaseWork) (generated : Generated) : Services Database Double where
  getBalance accId database := (AccountService.getBalance driver work accId database, database)
  transfer fromId toId amount :=
    TransactionService.transfer driver work generated fromId toId amount "Server transfer"
  showDouble := showDouble

end CoreBank
