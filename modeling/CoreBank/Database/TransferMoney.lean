import CoreBank.Database.Statements

namespace CoreBank

open Foundation

/-!
# The procedure transferMoney

The definition follows the body statement by statement.  The parameter
`transf_amount` is an unconstrained `numeric`, because `CREATE FUNCTION` drops
the modifier of `NUMERIC(12,2)`; the two updates and the insertion each round
on their own when they store.

`Acceptance` gathers everything a successful call has checked and stored, and
`callTransferMoney_eq_ok_iff` says that a call succeeds exactly when there is
one.  No later argument unfolds the procedure.
-/

/-- The arguments of a call, each of which may be null. -/
structure TransferCall where
  fromAccount : Option ℤ
  toAccount : Option ℤ
  amount : Option Numeric
  description : Option String := some "Transfer"
  deriving DecidableEq, Repr

/-- What the column defaults of `transactions` produce for one row: the next
value of the sequence, absent when it is exhausted, and the current time. -/
structure Generated where
  transactionId : Option ℤ
  timestamp : Option ℤ
  deriving DecidableEq, Repr

/-- One call together with the column defaults it would be given. -/
structure Attempt where
  call : TransferCall
  generated : Generated
  deriving DecidableEq, Repr

/-- `IF transf_amount <= 0`. -/
def checkAmount (call : TransferCall) : Except SqlError Unit :=
  if holds Numeric.lessOrEqual call.amount (some Numeric.zero) then
    .error (.transfer .amountNotPositive)
  else .ok ()

/-- `SELECT ... WHERE account_id = id FOR UPDATE`, which finds at most one row. -/
def lockAccount (id : Option ℤ) : Sql (Option Account) := fun backend =>
  .ok (backend.database.select id, backend)

/-- The checks between the two locks and the updates. -/
def checkAccounts (call : TransferCall) (verFromBalance : Option Numeric)
    (verFromCurrency verToCurrency : Option (Varchar 3)) : Except SqlError Unit :=
  match verFromCurrency, verToCurrency with
  | none, _ => .error (.transfer (.sourceMissing call.fromAccount))
  | some _, none => .error (.transfer (.destinationMissing call.toAccount))
  | some source, some destination =>
      if source.text ≠ destination.text then
        .error (.transfer (.currencyMismatch source destination))
      else if holds Numeric.less verFromBalance call.amount then
        .error (.transfer (.insufficientFunds call.fromAccount verFromBalance call.amount))
      else .ok ()

/-- `WHERE account_id = id`. -/
def whereAccount (id : Option ℤ) (account : Account) : Bool :=
  match id with
  | none => false
  | some id => decide (account.accountId = id)

/-- `SET balance = ...` as the only assignment. -/
def setBalanceTo (expression : Account -> Option Numeric) : AccountSet where
  accountId := none
  customerId := none
  accountType := none
  balance := some expression
  currency := none

/-- `balance - transf_amount`. -/
def debitExpression (call : TransferCall) (account : Account) : Option Numeric :=
  call.amount.map account.balance.toNumeric.sub

/-- `balance + transf_amount`. -/
def creditExpression (call : TransferCall) (account : Account) : Option Numeric :=
  call.amount.map account.balance.toNumeric.add

/-- The default of `transaction_id`. -/
def nextTransactionId (generated : Generated) : Except SqlError ℤ :=
  match generated.transactionId with
  | none => .error .sequenceLimitExceeded
  | some id => .ok id

/-- The row of the `INSERT INTO transactions`, with the default status. -/
def ledgerInput (call : TransferCall) (generated : Generated) (transactionId : ℤ) : TransactionInput where
  transactionId := some transactionId
  fromAccount := call.fromAccount
  toAccount := call.toAccount
  amount := call.amount
  description := call.description
  timestamp := generated.timestamp
  status := some "completed"

def debit (call : TransferCall) : Sql Unit :=
  perform (.updateAccounts (whereAccount call.fromAccount) (setBalanceTo (debitExpression call)))

def credit (call : TransferCall) : Sql Unit :=
  perform (.updateAccounts (whereAccount call.toAccount) (setBalanceTo (creditExpression call)))

def recordTransaction (call : TransferCall) (generated : Generated) : Sql Unit := do
  let transactionId <- nextTransactionId generated
  perform (.insertTransactions [ledgerInput call generated transactionId])

/-- The statements of the inner block. -/
def transferBlock (call : TransferCall) (generated : Generated) : Sql Unit := do
  setConfig "on"
  debit call
  credit call
  recordTransaction call generated
  setConfig "off"

/-- `BEGIN ... EXCEPTION ... END`: on an error the body is undone before the
handler runs. -/
def exceptionBlock (body : Sql Unit) (handler : SqlError -> Sql Unit) : Sql Unit := fun backend =>
  match body backend with
  | .ok result => .ok result
  | .error problem => handler problem backend

/-- `EXCEPTION WHEN OTHERS THEN PERFORM set_config(..., 'off', true); RAISE;`. -/
def transferHandler (problem : SqlError) : Sql Unit := do
  if problem.caughtByOthers then
    setConfig "off"
  throw problem

def transferMoney (call : TransferCall) (generated : Generated) : Sql Unit := do
  checkAmount call
  let source <- lockAccount call.fromAccount
  let destination <- lockAccount call.toAccount
  checkAccounts call (source.map fun account => account.balance.toNumeric)
    (source.bind Account.currency) (destination.bind Account.currency)
  exceptionBlock (transferBlock call generated) transferHandler

/-- The statements of the procedure, each named by what it does; `finished` is
the end of the inner block. -/
inductive Point where
  | checkAmount
  | lockSource
  | lockDestination
  | checkAccounts
  | allowUpdate
  | debit
  | credit
  | recordTransaction
  | forbidUpdate
  | finished
  deriving DecidableEq, Repr

/-- `SELECT transferMoney(...)` as a statement of a session that has not set
the parameter: an error leaves the tables as they were. -/
def callTransferMoney (call : TransferCall) (generated : Generated) (database : Database) :
    Except SqlError Database :=
  ((transferMoney call generated).run ⟨database, none⟩).map fun result => result.2.database

/-! ## The statements of the block -/

theorem select_eq_some {database : Database} {id : Option ℤ} {account : Account}
    (found : database.select id = some account) :
    id = some account.accountId ∧ database.account? account.accountId = some account := by
  cases id with
  | none => cases found
  | some id =>
      have same := Database.accountId_of_account? database found
      subst same
      exact ⟨rfl, found⟩

/-- What is stored in a numeric column that may not be null. -/
def storeRequired (column : String) (value : Option Numeric) : Except SqlError Money := do
  let stored <- storeMoney value
  required column stored

/-- A value is present and its rounding fits the column. -/
def Stores (value : Option Numeric) (money : Money) : Prop :=
  Exists fun amount => value = some amount ∧ Money.store amount = some money

theorem storeRequired_eq_ok_iff (column : String) {value : Option Numeric} {money : Money} :
    storeRequired column value = .ok money ↔ Stores value money := by
  cases value with
  | none =>
      constructor
      · intro impossible
        cases impossible
      · rintro ⟨amount, impossible, _⟩
        cases impossible
  | some amount =>
      cases result : Money.store amount with
      | none => simp [storeRequired, storeMoney, Stores, result, bind, Except.bind]
      | some stored => simp [storeRequired, storeMoney, Stores, required, result, bind, Except.bind]

theorem stores_debitExpression_iff {call : TransferCall} {amount : Numeric} {account : Account}
    {money : Money} (given : call.amount = some amount) :
    Stores (debitExpression call account) money ↔
      Money.store (account.balance.toNumeric.sub amount) = some money := by
  unfold Stores debitExpression
  simp only [given, Option.map_some, Option.some.injEq, exists_eq_left']

theorem stores_creditExpression_iff {call : TransferCall} {amount : Numeric} {account : Account}
    {money : Money} (given : call.amount = some amount) :
    Stores (creditExpression call account) money ↔
      Money.store (account.balance.toNumeric.add amount) = some money := by
  unfold Stores creditExpression
  simp only [given, Option.map_some, Option.some.injEq, exists_eq_left']

theorem assign_setBalanceTo (expression : Account -> Option Numeric) (account : Account) :
    (setBalanceTo expression).assign (some "on") account =
      (storeRequired "balance" (expression account)).map fun balance => { account with balance } := by
  have permitted : preventDirectBalanceUpdate (some "on") = .ok () :=
    (preventDirectBalanceUpdate_eq_ok_iff _).mpr rfl
  cases stored : storeMoney (expression account) with
  | error problem =>
      simp only [AccountSet.assign, AccountSet.assignCurrency, AccountSet.assignBalance,
        setBalanceTo, storeRequired, stored, bind, Except.bind, Except.map]
  | ok balance =>
      cases balance with
      | none =>
          simp only [AccountSet.assign, AccountSet.assignCurrency, AccountSet.assignBalance,
            setBalanceTo, storeRequired, stored, permitted, bind, Except.bind, Except.map, required]
      | some balance =>
          simp only [AccountSet.assign, AccountSet.assignCurrency, AccountSet.assignBalance,
            AccountSet.assignType, setBalanceTo, storeRequired, stored, permitted, bind, Except.bind,
            Except.map, required, assigned, pure, Except.pure]

theorem execute_updateAccounts (selected : Account -> Bool) (set : AccountSet)
    (allowUpdate : Option String) (database : Database) :
    (Statement.updateAccounts selected set).execute allowUpdate database =
      (RowTable.updateRows selected (set.assign allowUpdate) database.accounts).bind fun accounts =>
        (Tables.check { database.toTables with accounts }).map fun result => (result, []) := rfl

/-- With the permission on, an update of one balance changes that row alone. -/
theorem execute_setBalance (database : Database) (id : Option ℤ)
    (expression : Account -> Option Numeric) :
    (Statement.updateAccounts (whereAccount id) (setBalanceTo expression)).execute (some "on") database =
      match database.select id with
      | none => .ok (database, [])
      | some account => (storeRequired "balance" (expression account)).map fun balance =>
          (database.setBalance account.accountId balance, []) := by
  rw [execute_updateAccounts]
  cases id with
  | none =>
      have unchanged : forall rows : List Account,
          RowTable.updateRows (whereAccount none) ((setBalanceTo expression).assign (some "on")) rows =
            .ok rows := by
        intro rows
        induction rows with
        | nil => rfl
        | cons row rows inductionHypothesis =>
            rw [RowTable.updateRows, inductionHypothesis]
            rfl
      rw [unchanged, Except.bind, Tables.check_of_satisfies database.satisfies]
      rfl
  | some id =>
      have step := RowTable.updateRows_at Account.accountId id
        ((setBalanceTo expression).assign (some "on")) database.satisfies.accountsPkey
      rw [show whereAccount (some id) = fun account => decide (account.accountId = id) from rfl, step]
      cases found : database.accounts.find? fun account => decide (account.accountId = id) with
      | none =>
          rw [show database.select (some id) = none from found, Except.bind,
            Tables.check_of_satisfies database.satisfies]
          rfl
      | some account =>
          have atId := Database.accountId_of_account? database found
          subst atId
          rw [show database.select (some account.accountId) = some account from found]
          simp only [assign_setBalanceTo]
          cases storeRequired "balance" (expression account) with
          | error problem => rfl
          | ok balance =>
              have image := RowTable.replaceAt_found Account.accountId
                database.satisfies.accountsPkey found (fun row => { row with balance })
              have checked := Tables.check_of_satisfies (database.satisfies.setBalance account.accountId balance)
              simp only [Tables.setBalance] at checked
              simp only [Except.map, Except.bind, image, checked]
              rfl

theorem perform_eq_ok_iff {statement : Statement} {before after : Backend} :
    perform statement before = .ok ((), after) ↔
      Exists fun result => statement.execute before.allowBalanceUpdate before.database = .ok result ∧
        after = { before with database := result.1 } := by
  constructor
  · intro success
    rcases bind_eq_ok_iff.mp success with ⟨result, executed, final⟩
    cases final
    exact ⟨result, executed, rfl⟩
  · rintro ⟨result, executed, rfl⟩
    exact bind_eq_ok_iff.mpr ⟨result, executed, rfl⟩

/-- The update of the balance of a stored account, as one of the two updates of
the block performs it. -/
theorem perform_setBalance_eq_ok_iff {database : Database} {id : Option ℤ}
    {expression : Account -> Option Numeric} {account : Account} {after : Backend}
    (found : database.select id = some account) :
    perform (.updateAccounts (whereAccount id) (setBalanceTo expression)) ⟨database, some "on"⟩ =
        .ok ((), after) ↔
      Exists fun balance => Stores (expression account) balance ∧
        after = ⟨database.setBalance account.accountId balance, some "on"⟩ := by
  rw [perform_eq_ok_iff]
  simp only [← storeRequired_eq_ok_iff "balance"]
  simp only [execute_setBalance, found]
  cases storeRequired "balance" (expression account) with
  | error problem => simp [Except.map]
  | ok balance => simp [Except.map]

/-- The row that a call adds to the ledger. -/
def ledgerRow (call : TransferCall) (generated : Generated) (transactionId : ℤ)
    (amount : LedgerAmount) : Transaction where
  transactionId := transactionId
  fromAccount := call.fromAccount
  toAccount := call.toAccount
  amount := amount
  description := call.description
  timestamp := generated.timestamp
  status := some ⟨"completed", by decide⟩

theorem LedgerAmount.store_eq_ok_iff {money : Money} {amount : LedgerAmount} :
    LedgerAmount.store money = .ok amount ↔ amount.money = money := by
  constructor
  · intro success
    rw [LedgerAmount.store] at success
    split_ifs at success
    cases success
    rfl
  · intro same
    subst same
    rw [LedgerAmount.store, dif_pos amount.positive]

theorem ledgerInput_row_eq_ok_iff {call : TransferCall} {generated : Generated} {transactionId : ℤ}
    {row : Transaction} :
    (ledgerInput call generated transactionId).row = .ok row ↔
      Exists fun amount : LedgerAmount => Stores call.amount amount.money ∧
        row = ledgerRow call generated transactionId amount := by
  have status : storeText 20 (some "completed") = .ok (some ⟨"completed", by decide⟩) := by
    rw [storeText, Varchar.store, dif_pos (by decide)]
    rfl
  constructor
  · intro success
    rw [TransactionInput.row] at success
    rcases bind_eq_ok_iff.mp success with ⟨stored, storedAmount, success⟩
    rcases bind_eq_ok_iff.mp success with ⟨text, storedStatus, success⟩
    rcases bind_eq_ok_iff.mp success with ⟨id, givenId, success⟩
    rcases bind_eq_ok_iff.mp success with ⟨money, present, success⟩
    rcases bind_eq_ok_iff.mp success with ⟨amount, positive, success⟩
    cases success
    cases givenId
    cases status.symm.trans storedStatus
    have same := LedgerAmount.store_eq_ok_iff.mp positive
    refine ⟨amount, ?_, rfl⟩
    rw [same]
    exact (storeRequired_eq_ok_iff _).mp (bind_eq_ok_iff.mpr ⟨stored, storedAmount, present⟩)
  · rintro ⟨amount, stores, rfl⟩
    rcases bind_eq_ok_iff.mp ((storeRequired_eq_ok_iff "amount").mpr stores) with
      ⟨stored, storedAmount, present⟩
    rw [TransactionInput.row]
    refine bind_eq_ok_iff.mpr ⟨stored, storedAmount, ?_⟩
    refine bind_eq_ok_iff.mpr ⟨_, status, ?_⟩
    refine bind_eq_ok_iff.mpr ⟨transactionId, rfl, ?_⟩
    refine bind_eq_ok_iff.mpr ⟨amount.money, present, ?_⟩
    exact bind_eq_ok_iff.mpr ⟨amount, LedgerAmount.store_eq_ok_iff.mpr rfl, rfl⟩

theorem nextTransactionId_eq_ok_iff {generated : Generated} {transactionId : ℤ} :
    nextTransactionId generated = .ok transactionId ↔
      generated.transactionId = some transactionId := by
  cases given : generated.transactionId <;> simp [nextTransactionId, given]

theorem recordTransaction_eq (call : TransferCall) (generated : Generated) (before : Backend) :
    recordTransaction call generated before =
      nextTransactionId generated >>= fun transactionId =>
        perform (.insertTransactions [ledgerInput call generated transactionId]) before := by
  unfold recordTransaction
  cases nextTransactionId generated <;> rfl

theorem recordTransaction_eq_ok_iff {call : TransferCall} {generated : Generated}
    {before after : Backend} :
    recordTransaction call generated before = .ok ((), after) ↔
      Exists fun transactionId => Exists fun amount : LedgerAmount =>
        generated.transactionId = some transactionId ∧
        Stores call.amount amount.money ∧
        after.allowBalanceUpdate = before.allowBalanceUpdate ∧
        after.database.toTables =
          before.database.toTables.record (ledgerRow call generated transactionId amount) := by
  rw [recordTransaction_eq, bind_eq_ok_iff]
  refine exists_congr fun transactionId => ?_
  rw [nextTransactionId_eq_ok_iff, perform_eq_ok_iff]
  constructor
  · rintro ⟨given, result, executed, rfl⟩
    rcases bind_eq_ok_iff.mp executed with ⟨rows, converted, executed⟩
    rcases bind_eq_ok_iff.mp executed with ⟨checked, satisfied, final⟩
    cases final
    rcases bind_eq_ok_iff.mp converted with ⟨row, rowOk, converted⟩
    cases converted
    rcases ledgerInput_row_eq_ok_iff.mp rowOk with ⟨amount, stored, rfl⟩
    exact ⟨amount, given, stored, rfl, Tables.toTables_of_check satisfied⟩
  · rintro ⟨amount, given, stored, sameSetting, sameTables⟩
    refine ⟨given, (after.database, []), ?_, ?_⟩
    · refine bind_eq_ok_iff.mpr ⟨[ledgerRow call generated transactionId amount], ?_, ?_⟩
      · refine bind_eq_ok_iff.mpr ⟨_, ledgerInput_row_eq_ok_iff.mpr ⟨amount, stored, rfl⟩, rfl⟩
      · exact bind_eq_ok_iff.mpr ⟨after.database, Tables.check_eq_ok_iff.mpr sameTables, rfl⟩
    · rcases after with ⟨database, setting⟩
      cases sameSetting
      rfl

/-! ## What a successful call has done -/

/-- The destination row as the second update finds it: the first update has
already changed it when both ids are the same. -/
def afterDebit (source destination : Account) (debited : Money) : Account :=
  if destination.accountId = source.accountId then { destination with balance := debited }
  else destination

@[simp] theorem afterDebit_accountId (source destination : Account) (debited : Money) :
    (afterDebit source destination debited).accountId = destination.accountId := by
  unfold afterDebit
  split_ifs <;> rfl

theorem select_afterDebit {database : Database} {fromId toId : Option ℤ} {source destination : Account}
    (foundSource : database.select fromId = some source)
    (foundDestination : database.select toId = some destination) (debited : Money) :
    (database.setBalance source.accountId debited).select toId =
      some (afterDebit source destination debited) := by
  rcases select_eq_some foundSource with ⟨_, sourceRow⟩
  rcases select_eq_some foundDestination with ⟨rfl, destinationRow⟩
  have selected : forall database : Database, database.select (some destination.accountId) =
      database.account? destination.accountId := fun _ => rfl
  rw [selected, Database.setBalance_account?, afterDebit]
  by_cases same : destination.accountId = source.accountId
  · rw [same, sourceRow] at destinationRow
    cases destinationRow
    rw [if_pos rfl, if_pos rfl, sourceRow]
    rfl
  · rw [if_neg same, if_neg same, destinationRow]

/-- The checks a call has passed and the values it has stored. -/
structure Acceptance (database : Database) (call : TransferCall) (generated : Generated) where
  amount : Numeric
  source : Account
  destination : Account
  sourceCurrency : Varchar 3
  destinationCurrency : Varchar 3
  debited : Money
  credited : Money
  recorded : LedgerAmount
  transactionId : ℤ
  amountGiven : call.amount = some amount
  positive : Numeric.zero.less amount = true
  foundSource : database.select call.fromAccount = some source
  foundDestination : database.select call.toAccount = some destination
  sourceHolds : source.currency = some sourceCurrency
  destinationHolds : destination.currency = some destinationCurrency
  sameCurrency : sourceCurrency.text = destinationCurrency.text
  covered : source.balance.toNumeric.less amount = false
  debits : Money.store (source.balance.toNumeric.sub amount) = some debited
  credits : Money.store ((afterDebit source destination debited).balance.toNumeric.add amount) =
    some credited
  records : Money.store amount = some recorded.money
  generates : generated.transactionId = some transactionId
  fresh : transactionId ∉ database.transactions.map Transaction.transactionId

namespace Acceptance

variable {database : Database} {call : TransferCall} {generated : Generated}

theorem fromAccount (accepted : Acceptance database call generated) :
    call.fromAccount = some accepted.source.accountId :=
  (select_eq_some accepted.foundSource).1

theorem toAccount (accepted : Acceptance database call generated) :
    call.toAccount = some accepted.destination.accountId :=
  (select_eq_some accepted.foundDestination).1

theorem sourceRow (accepted : Acceptance database call generated) :
    database.account? accepted.source.accountId = some accepted.source :=
  (select_eq_some accepted.foundSource).2

theorem destinationRow (accepted : Acceptance database call generated) :
    database.account? accepted.destination.accountId = some accepted.destination :=
  (select_eq_some accepted.foundDestination).2

def row (accepted : Acceptance database call generated) : Transaction :=
  ledgerRow call generated accepted.transactionId accepted.recorded

/-- The tables after both updates. -/
def moved (accepted : Acceptance database call generated) : Database :=
  (database.setBalance accepted.source.accountId accepted.debited).setBalance
    accepted.destination.accountId accepted.credited

theorem moved_accountIds (accepted : Acceptance database call generated) :
    accepted.moved.accountIds = database.accountIds := by
  rw [moved, Database.setBalance_accountIds, Database.setBalance_accountIds]

theorem moved_refers (accepted : Acceptance database call generated) {reference : Option ℤ}
    {account : Account} (named : reference = some account.accountId)
    (row : database.account? account.accountId = some account) : accepted.moved.Refers reference := by
  intro id member
  rw [accepted.moved_accountIds]
  have same : account.accountId = id := Option.some.inj (named.symm.trans member)
  subst same
  exact (Database.account?_isSome_iff database _).mp (by rw [row]; rfl)

/-- The tables after the call. -/
def result (accepted : Acceptance database call generated) : Database :=
  accepted.moved.record accepted.row accepted.fresh
    (accepted.moved_refers accepted.fromAccount accepted.sourceRow)
    (accepted.moved_refers accepted.toAccount accepted.destinationRow)

@[simp] theorem result_customers (accepted : Acceptance database call generated) :
    accepted.result.customers = database.customers := rfl

@[simp] theorem result_transactions (accepted : Acceptance database call generated) :
    accepted.result.transactions = database.transactions ++ [accepted.row] := rfl

@[simp] theorem result_accountIds (accepted : Acceptance database call generated) :
    accepted.result.accountIds = database.accountIds :=
  accepted.moved_accountIds

theorem result_account? (accepted : Acceptance database call generated) (id : ℤ) :
    accepted.result.account? id = accepted.moved.account? id := rfl

theorem result_total (accepted : Acceptance database call generated) :
    accepted.result.total = accepted.moved.total := rfl

end Acceptance

theorem checkAmount_eq_ok_iff (call : TransferCall) :
    checkAmount call = .ok () ↔
      forall amount, call.amount = some amount -> Numeric.zero.less amount = true := by
  rw [checkAmount, raise_if_eq_ok_iff]
  cases call.amount with
  | none => simp [holds]
  | some amount => simp [holds, Numeric.lessOrEqual]

theorem checkAccounts_eq_ok_iff {call : TransferCall} {balance : Option Numeric}
    {fromCurrency toCurrency : Option (Varchar 3)} :
    checkAccounts call balance fromCurrency toCurrency = .ok () ↔
      Exists fun source => Exists fun destination =>
        fromCurrency = some source ∧ toCurrency = some destination ∧
        source.text = destination.text ∧ holds Numeric.less balance call.amount = false := by
  cases fromCurrency with
  | none => simp [checkAccounts]
  | some source =>
      cases toCurrency with
      | none => simp [checkAccounts]
      | some destination =>
          by_cases same : source.text = destination.text
          · simp [checkAccounts, same]
          · simp [checkAccounts, same]

theorem transferHandler_error (problem : SqlError) (backend : Backend) :
    transferHandler problem backend = .error problem := by
  unfold transferHandler
  cases problem.caughtByOthers <;> rfl

theorem exceptionBlock_eq_ok_iff {body : Sql Unit} {before : Backend} {result : Unit × Backend} :
    exceptionBlock body transferHandler before = .ok result ↔ body before = .ok result := by
  unfold exceptionBlock
  cases body before with
  | error problem => simp [transferHandler_error]
  | ok final => simp

theorem transferBlock_eq (call : TransferCall) (generated : Generated) (before : Backend) :
    transferBlock call generated before =
      debit call { before with allowBalanceUpdate := some "on" } >>= fun debited =>
        credit call debited.2 >>= fun credited =>
          recordTransaction call generated credited.2 >>= fun recorded =>
            .ok ((), { recorded.2 with allowBalanceUpdate := some "off" }) := rfl

theorem transferBlock_eq_ok_iff {call : TransferCall} {generated : Generated}
    {before after : Backend} :
    transferBlock call generated before = .ok ((), after) ↔
      Exists fun debited => Exists fun credited => Exists fun recorded =>
        debit call { before with allowBalanceUpdate := some "on" } = .ok ((), debited) ∧
        credit call debited = .ok ((), credited) ∧
        recordTransaction call generated credited = .ok ((), recorded) ∧
        after = { recorded with allowBalanceUpdate := some "off" } := by
  rw [transferBlock_eq, bind_eq_ok_iff]
  constructor
  · rintro ⟨debited, first, rest⟩
    rcases bind_eq_ok_iff.mp rest with ⟨credited, second, rest⟩
    rcases bind_eq_ok_iff.mp rest with ⟨recorded, third, final⟩
    cases final
    exact ⟨debited.2, credited.2, recorded.2, first, second, third, rfl⟩
  · rintro ⟨debited, credited, recorded, first, second, third, rfl⟩
    refine ⟨((), debited), first, bind_eq_ok_iff.mpr ⟨((), credited), second, ?_⟩⟩
    exact bind_eq_ok_iff.mpr ⟨((), recorded), third, rfl⟩

/-- The checks of a call, on the rows that its two locks return. -/
def checkSelected (call : TransferCall) (database : Database) : Except SqlError Unit :=
  checkAccounts call
    ((database.select call.fromAccount).map fun account => account.balance.toNumeric)
    ((database.select call.fromAccount).bind Account.currency)
    ((database.select call.toAccount).bind Account.currency)

theorem transferMoney_eq (call : TransferCall) (generated : Generated) (before : Backend) :
    transferMoney call generated before =
      checkAmount call >>= fun _ =>
        checkSelected call before.database >>= fun _ =>
          exceptionBlock (transferBlock call generated) transferHandler before := by
  unfold transferMoney checkSelected
  cases amount : checkAmount call with
  | error problem => rfl
  | ok _ =>
      cases accounts : checkAccounts call
        ((before.database.select call.fromAccount).map fun account => account.balance.toNumeric)
        ((before.database.select call.fromAccount).bind Account.currency)
        ((before.database.select call.toAccount).bind Account.currency) with
      | error problem =>
          simp only [bind, StateT.bind, lockAccount, Except.bind, liftM, monadLift, MonadLift.monadLift,
            StateT.lift, pure, Except.pure, accounts]
      | ok _ =>
          simp only [bind, StateT.bind, lockAccount, Except.bind, liftM, monadLift, MonadLift.monadLift,
            StateT.lift, pure, Except.pure, accounts]

theorem transferMoney_eq_ok_iff {call : TransferCall} {generated : Generated}
    {before after : Backend} :
    transferMoney call generated before = .ok ((), after) ↔
      checkAmount call = .ok () ∧
      checkAccounts call
        ((before.database.select call.fromAccount).map fun account => account.balance.toNumeric)
        ((before.database.select call.fromAccount).bind Account.currency)
        ((before.database.select call.toAccount).bind Account.currency) = .ok () ∧
      transferBlock call generated before = .ok ((), after) := by
  rw [transferMoney_eq, bind_eq_ok_iff]
  constructor
  · rintro ⟨_, amount, rest⟩
    rcases bind_eq_ok_iff.mp rest with ⟨_, accounts, block⟩
    exact ⟨amount, accounts, exceptionBlock_eq_ok_iff.mp block⟩
  · rintro ⟨amount, accounts, block⟩
    exact ⟨(), amount, bind_eq_ok_iff.mpr ⟨(), accounts, exceptionBlock_eq_ok_iff.mpr block⟩⟩

/-- A call succeeds exactly when it is accepted; it then leaves the tables of
the acceptance, and the parameter switched off. -/
theorem transferMoney_iff_acceptance {call : TransferCall} {generated : Generated}
    {before after : Backend} :
    transferMoney call generated before = .ok ((), after) ↔
      Exists fun accepted : Acceptance before.database call generated =>
        after = ⟨accepted.result, some "off"⟩ := by
  rw [transferMoney_eq_ok_iff, checkAmount_eq_ok_iff, checkAccounts_eq_ok_iff,
    transferBlock_eq_ok_iff]
  constructor
  · rintro ⟨positive, ⟨sourceCurrency, destinationCurrency, sourceHolds, destinationHolds,
      sameCurrency, covered⟩, first, second, third, debits, credits, records, rfl⟩
    rcases Option.bind_eq_some_iff.mp sourceHolds with ⟨source, foundSource, sourceHolds⟩
    rcases Option.bind_eq_some_iff.mp destinationHolds with
      ⟨destination, foundDestination, destinationHolds⟩
    rcases (perform_setBalance_eq_ok_iff foundSource).mp debits with ⟨debited, debitStores, rfl⟩
    have foundCredited := select_afterDebit foundSource foundDestination debited
    rcases (perform_setBalance_eq_ok_iff foundCredited).mp credits with
      ⟨credited, creditStores, rfl⟩
    rcases recordTransaction_eq_ok_iff.mp records with
      ⟨transactionId, recorded, generates, ⟨amount, amountGiven, recordStores⟩, _, tables⟩
    rw [stores_debitExpression_iff amountGiven] at debitStores
    rw [stores_creditExpression_iff amountGiven] at creditStores
    rw [foundSource, amountGiven] at covered
    rw [afterDebit_accountId] at tables
    have fresh : transactionId ∉ before.database.transactions.map Transaction.transactionId := by
      have unique := third.database.satisfies.transactionsPkey
      rw [tables, Tables.record, List.map_append, List.map_singleton, List.nodup_append] at unique
      exact fun member => unique.2.2 transactionId member transactionId
        (List.mem_singleton.mpr rfl) rfl
    let accepted : Acceptance before.database call generated := {
      amount, source, destination, sourceCurrency, destinationCurrency, debited, credited, recorded
      transactionId, amountGiven, foundSource, foundDestination, sourceHolds, destinationHolds
      sameCurrency, covered, generates, fresh
      positive := positive amount amountGiven
      debits := debitStores
      credits := creditStores
      records := recordStores }
    have sameDatabase : third.database = accepted.result := Database.ext_tables tables
    exact ⟨accepted, congrArg (fun database => (⟨database, some "off"⟩ : Backend)) sameDatabase⟩
  · rintro ⟨accepted, rfl⟩
    have foundCredited :=
      select_afterDebit accepted.foundSource accepted.foundDestination accepted.debited
    refine ⟨?_, ⟨accepted.sourceCurrency, accepted.destinationCurrency, ?_, ?_,
      accepted.sameCurrency, ?_⟩,
      ⟨before.database.setBalance accepted.source.accountId accepted.debited, some "on"⟩,
      ⟨accepted.moved, some "on"⟩, ⟨accepted.result, some "on"⟩, ?_, ?_, ?_, rfl⟩
    · intro amount given
      rw [accepted.amountGiven] at given
      cases given
      exact accepted.positive
    · rw [accepted.foundSource]
      exact accepted.sourceHolds
    · rw [accepted.foundDestination]
      exact accepted.destinationHolds
    · rw [accepted.foundSource, accepted.amountGiven]
      exact accepted.covered
    · refine (perform_setBalance_eq_ok_iff accepted.foundSource).mpr ⟨accepted.debited, ?_, rfl⟩
      exact (stores_debitExpression_iff accepted.amountGiven).mpr accepted.debits
    · refine (perform_setBalance_eq_ok_iff foundCredited).mpr ⟨accepted.credited, ?_, ?_⟩
      · exact (stores_creditExpression_iff accepted.amountGiven).mpr accepted.credits
      · rw [afterDebit_accountId]
        rfl
    · refine recordTransaction_eq_ok_iff.mpr
        ⟨accepted.transactionId, accepted.recorded, accepted.generates, ?_, rfl, rfl⟩
      exact ⟨accepted.amount, accepted.amountGiven, accepted.records⟩

/-- The same statement in a transaction that sees some value of the parameter. -/
def callTransferMoneyUnder (allowUpdate : Option String) (call : TransferCall) (generated : Generated)
    (database : Database) : Except SqlError Database :=
  ((transferMoney call generated).run ⟨database, allowUpdate⟩).map fun result => result.2.database

/-- The value of the parameter does not matter. -/
theorem callTransferMoneyUnder_eq_ok_iff {allowUpdate : Option String} {call : TransferCall}
    {generated : Generated} {before after : Database} :
    callTransferMoneyUnder allowUpdate call generated before = .ok after ↔
      Exists fun accepted : Acceptance before call generated => after = accepted.result := by
  unfold callTransferMoneyUnder
  cases outcome : (transferMoney call generated).run ⟨before, allowUpdate⟩ with
  | error problem =>
      constructor
      · intro impossible
        cases impossible
      · rintro ⟨accepted, rfl⟩
        have success : transferMoney call generated ⟨before, allowUpdate⟩ = .ok ((), _) :=
          transferMoney_iff_acceptance.mpr ⟨accepted, rfl⟩
        cases outcome.symm.trans success
  | ok final =>
      have success : transferMoney call generated ⟨before, allowUpdate⟩ = .ok ((), final.2) := outcome
      rcases transferMoney_iff_acceptance.mp success with ⟨accepted, same⟩
      constructor
      · intro success
        cases success
        exact ⟨accepted, congrArg Backend.database same⟩
      · rintro ⟨other, rfl⟩
        have success : transferMoney call generated ⟨before, allowUpdate⟩ = .ok ((), _) :=
          transferMoney_iff_acceptance.mpr ⟨other, rfl⟩
        cases outcome.symm.trans success
        rfl

theorem callTransferMoney_eq_ok_iff {call : TransferCall} {generated : Generated}
    {before after : Database} :
    callTransferMoney call generated before = .ok after ↔
      Exists fun accepted : Acceptance before call generated => after = accepted.result :=
  callTransferMoneyUnder_eq_ok_iff

/-! ## What a failed call has raised -/

/-- An exception of the procedure itself says what it has found in the call and
in the tables; every other error comes from one of its statements. -/
def Justified (call : TransferCall) (database : Database) : SqlError -> Prop
  | .transfer .amountNotPositive =>
      holds Numeric.lessOrEqual call.amount (some Numeric.zero) = true
  | .transfer (.sourceMissing account) =>
      account = call.fromAccount ∧ (database.select call.fromAccount).bind Account.currency = none
  | .transfer (.destinationMissing account) =>
      account = call.toAccount ∧ (database.select call.toAccount).bind Account.currency = none
  | .transfer (.currencyMismatch source destination) =>
      (database.select call.fromAccount).bind Account.currency = some source ∧
        (database.select call.toAccount).bind Account.currency = some destination ∧
        source.text ≠ destination.text
  | .transfer (.insufficientFunds account balance attempted) =>
      account = call.fromAccount ∧ attempted = call.amount ∧
        (database.select call.fromAccount).map (fun row => row.balance.toNumeric) = balance ∧
        holds Numeric.less balance attempted = true
  | _ => True

section Raised

variable {call : TransferCall} {database : Database}

theorem required_raises {A : Type} (column : String) (value : Option A) :
    RaisesOnly (Justified call database) (required column value) := by
  cases value with
  | none => exact RaisesOnly.error trivial
  | some value => exact RaisesOnly.ok value

theorem storeMoney_raises (value : Option Numeric) :
    RaisesOnly (Justified call database) (storeMoney value) := by
  cases value with
  | none => exact RaisesOnly.ok none
  | some amount =>
      rw [storeMoney]
      cases Money.store amount with
      | none => exact RaisesOnly.error trivial
      | some stored => exact RaisesOnly.ok (some stored)

theorem storeText_raises (limit : ℕ) (text : Option String) :
    RaisesOnly (Justified call database) (storeText limit text) := by
  cases text with
  | none => exact RaisesOnly.ok none
  | some text =>
      apply RaisesOnly.map
      unfold Varchar.store
      split_ifs
      · exact RaisesOnly.ok _
      · exact RaisesOnly.ok _
      · exact RaisesOnly.error trivial

theorem check_raises (tables : Tables) : RaisesOnly (Justified call database) tables.check := by
  unfold Tables.check
  split_ifs
  · exact RaisesOnly.ok _
  all_goals exact RaisesOnly.error trivial

theorem perform_raises {statement : Statement} {backend : Backend}
    (raises : RaisesOnly (Justified call database)
      (statement.execute backend.allowBalanceUpdate backend.database)) :
    RaisesOnly (Justified call database) (perform statement backend) :=
  raises.bind fun _ _ => RaisesOnly.ok _

theorem perform_setBalance_raises (id : Option ℤ) (expression : Account -> Option Numeric)
    {backend : Backend} (permitted : backend.allowBalanceUpdate = some "on") :
    RaisesOnly (Justified call database)
      (perform (.updateAccounts (whereAccount id) (setBalanceTo expression)) backend) := by
  apply perform_raises
  rw [permitted, execute_setBalance]
  cases backend.database.select id with
  | none => exact RaisesOnly.ok _
  | some account =>
      apply RaisesOnly.map
      exact (storeMoney_raises _).bind fun stored _ => required_raises "balance" stored

theorem ledgerInput_raises (generated : Generated) (transactionId : ℤ) :
    RaisesOnly (Justified call database) (ledgerInput call generated transactionId).row := by
  refine (storeMoney_raises _).bind fun stored _ => ?_
  refine (storeText_raises 20 _).bind fun status _ => ?_
  refine (required_raises _ _).bind fun id _ => ?_
  refine (required_raises _ stored).bind fun money _ => ?_
  refine RaisesOnly.bind ?_ fun amount _ => RaisesOnly.ok _
  unfold LedgerAmount.store
  split_ifs
  · exact RaisesOnly.ok _
  · exact RaisesOnly.error trivial

theorem recordTransaction_raises (generated : Generated) (backend : Backend) :
    RaisesOnly (Justified call database) (recordTransaction call generated backend) := by
  rw [recordTransaction_eq]
  refine RaisesOnly.bind ?_ fun transactionId _ => perform_raises ?_
  · unfold nextTransactionId
    cases generated.transactionId with
    | none => exact RaisesOnly.error trivial
    | some id => exact RaisesOnly.ok id
  · refine RaisesOnly.bind ?_ fun rows _ => (check_raises _).bind fun result _ => RaisesOnly.ok _
    exact (ledgerInput_raises generated transactionId).bind fun row _ => RaisesOnly.ok _

theorem transferBlock_raises (generated : Generated) (backend : Backend) :
    RaisesOnly (Justified call database) (transferBlock call generated backend) := by
  rw [transferBlock_eq]
  refine (perform_setBalance_raises _ _ rfl).bind fun debited first => ?_
  have permitted : debited.2.allowBalanceUpdate = some "on" := by
    rcases perform_eq_ok_iff.mp first with ⟨result, _, same⟩
    rw [same]
  refine (perform_setBalance_raises _ _ permitted).bind fun credited _ => ?_
  exact (recordTransaction_raises generated credited.2).bind fun recorded _ => RaisesOnly.ok _

theorem checkSelected_raises : RaisesOnly (Justified call database) (checkSelected call database) := by
  unfold checkSelected checkAccounts
  cases source : (database.select call.fromAccount).bind Account.currency with
  | none => exact RaisesOnly.error ⟨rfl, source⟩
  | some sourceCurrency =>
      cases destination : (database.select call.toAccount).bind Account.currency with
      | none => exact RaisesOnly.error ⟨rfl, destination⟩
      | some destinationCurrency =>
          dsimp only
          split_ifs with differ short
          · exact RaisesOnly.error ⟨source, destination, differ⟩
          · exact RaisesOnly.error ⟨rfl, rfl, rfl, short⟩
          · exact RaisesOnly.ok ()

/-- Every error of a call is justified by the call and the tables it was made
on. -/
theorem transferMoney_raises (generated : Generated) (before : Backend) :
    RaisesOnly (Justified call before.database) (transferMoney call generated before) := by
  rw [transferMoney_eq]
  refine RaisesOnly.bind ?_ fun _ _ => checkSelected_raises.bind fun _ _ => ?_
  · unfold checkAmount
    split_ifs with failing
    · exact RaisesOnly.error failing
    · exact RaisesOnly.ok ()
  · intro problem raised
    unfold exceptionBlock at raised
    cases outcome : transferBlock call generated before with
    | ok result =>
        rw [outcome] at raised
        cases raised
    | error other =>
        rw [outcome] at raised
        dsimp only at raised
        rw [transferHandler_error] at raised
        cases raised
        exact transferBlock_raises generated before _ outcome

theorem callTransferMoneyUnder_raises (allowUpdate : Option String) (call : TransferCall)
    (generated : Generated) (database : Database) :
    RaisesOnly (Justified call database)
      (callTransferMoneyUnder allowUpdate call generated database) :=
  (transferMoney_raises generated ⟨database, allowUpdate⟩).map _

end Raised

/-- A transfer of thirty cents from the first account to the second. -/
def thirtyCents : Attempt where
  call := { fromAccount := some 1, toAccount := some 2, amount := some (.finite ⟨30, 2⟩) }
  generated := ⟨some 1, none⟩

end CoreBank
