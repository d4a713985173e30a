import CoreBank.Database.Overdraft

namespace CoreBank

open Foundation

/-!
# What a transfer of whole cents means

On whole cents nothing is rounded, so a call can be described without the
stores: which transfers are permitted, and what a permitted one moves.  Every
balance is a number here and every account has a currency.

The setting `database1.allow_balance_update` may have any value before the
call, because the procedure switches it on by itself.  The only thing left
outside the tables is the next value of the sequence behind `transaction_id`.
-/

/-! ## Stores of whole cents -/

namespace Decimal

variable {decimal : Decimal} {cents : ℤ}

theorem roundAway_add_inCents (whole : decimal.inCents = cents) (value : ℤ) :
    roundAway ((value : ℚ) + decimal.inCents) = value + cents := by
  rw [whole, ← Int.cast_add, roundAway_intCast]

theorem roundAway_sub_inCents (whole : decimal.inCents = cents) (value : ℤ) :
    roundAway ((value : ℚ) - decimal.inCents) = value - cents := by
  rw [whole, ← Int.cast_sub, roundAway_intCast]

end Decimal

namespace Money

variable {decimal : Decimal} {cents : ℤ}

theorem store_whole (whole : decimal.inCents = cents) (inRange : |cents| < 10 ^ 14) :
    store (.finite decimal) = some (.cents ⟨cents, inRange⟩) := by
  have rounded : roundAway (decimal.value * 100) = cents := by
    rw [← Decimal.inCents, whole, roundAway_intCast]
  simp only [store, rounded, inRange, dif_pos]

theorem store_add_whole (whole : decimal.inCents = cents) (amount : Cents)
    (inRange : |amount.value + cents| < 10 ^ 14) :
    store ((Money.cents amount).toNumeric.add (.finite decimal)) =
      some (.cents ⟨amount.value + cents, inRange⟩) := by
  have rounded := Decimal.roundAway_add_inCents whole amount.value
  simp only [store_add, rounded, inRange, dif_pos]

theorem store_sub_whole (whole : decimal.inCents = cents) (amount : Cents)
    (inRange : |amount.value - cents| < 10 ^ 14) :
    store ((Money.cents amount).toNumeric.sub (.finite decimal)) =
      some (.cents ⟨amount.value - cents, inRange⟩) := by
  have rounded := Decimal.roundAway_sub_inCents whole amount.value
  simp only [store_sub, rounded, inRange, dif_pos]

end Money

/-! ## Permitted transfers -/

/-- No account has a null currency, and every balance is a number. -/
structure Regular (database : Database) : Prop where
  currency : forall account, account ∈ database.accounts -> account.currency ≠ none
  ordinary : Ordinary database

/-- The same for one account, if it is there. -/
structure RegularAt (database : Database) (id : ℤ) : Prop where
  currency : forall account, database.account? id = some account -> account.currency ≠ none
  ordinary : forall account, database.account? id = some account -> account.balance.IsOrdinary

theorem Regular.at {database : Database} (regular : Regular database) (id : ℤ) :
    RegularAt database id where
  currency account found := regular.currency account (Database.mem_of_account? found)
  ordinary account found :=
    regular.ordinary id account.balance (by rw [Database.balance?, found, Option.map_some])

/-- What a transfer of so many cents needs of the two accounts; the bound on
the destination is 10^12 currency units. -/
def Permits (database : Database) (fromId toId amount : ℤ) : Prop :=
  0 < amount ∧ Exists fun source => Exists fun destination =>
    database.account? fromId = some source ∧ database.account? toId = some destination ∧
    source.currency = destination.currency ∧ (amount : WithTop ℤ) ≤ source.balance.measure ∧
    (fromId ≠ toId -> destination.balance.measure + amount < ((10 ^ 14 : ℤ) : WithTop ℤ))

/-- The sequence behind `transaction_id` is not exhausted, and its next value
is not the key of a ledger row. -/
def Generated.IsFresh (generated : Generated) (database : Database) : Prop :=
  Exists fun transactionId => generated.transactionId = some transactionId ∧
    transactionId ∉ database.transactions.map Transaction.transactionId

/-- Everything that a transfer of so many cents changes, and that it changes
nothing else. -/
structure Moves (before after : Database) (fromId toId amount : ℤ) (description : Option String)
    (generated : Generated) : Prop where
  customers : after.customers = before.customers
  accountIds : after.accountIds = before.accountIds
  entry : Exists fun row => after.transactions = before.transactions ++ [row] ∧
    row.fromAccount = some fromId ∧ row.toAccount = some toId ∧
    row.amount.money.measure = (amount : WithTop ℤ) ∧ row.description = description ∧
    generated.transactionId = some row.transactionId ∧ row.timestamp = generated.timestamp ∧
    row.status.map Varchar.text = some "completed"
  others : forall id, id ≠ fromId -> id ≠ toId -> after.account? id = before.account? id
  onlyAccount : fromId = toId -> after.accounts = before.accounts
  source : fromId ≠ toId -> Exists fun account => Exists fun balance =>
    before.account? fromId = some account ∧
    after.account? fromId = some { account with balance } ∧
    balance.measure + amount = account.balance.measure
  destination : fromId ≠ toId -> Exists fun account => Exists fun balance =>
    before.account? toId = some account ∧
    after.account? toId = some { account with balance } ∧
    balance.measure = account.balance.measure + amount

/-! ## Accepted calls -/

theorem Database.setBalance_setBalance_accounts {database : Database} {id : ℤ} {account : Account}
    (found : database.account? id = some account) (between : Money) :
    ((database.setBalance id between).setBalance id account.balance).accounts = database.accounts := by
  have accountKey := database.accountId_of_account? found
  subst accountKey
  simp only [setBalance, Tables.setBalance, RowTable.replaceAt, List.map_map]
  conv_rhs => rw [← List.map_id database.accounts]
  apply List.map_congr_left
  intro row member
  by_cases same : row.accountId = account.accountId
  · have equal : row = account := List.inj_on_of_nodup_map database.satisfies.accountsPkey member
      (mem_of_account? found) same
    simp only [Function.comp_apply, equal, if_true, id_eq]
  · simp only [Function.comp_apply, same, if_false, id_eq]

namespace Acceptance

variable {database : Database} {call : TransferCall} {generated : Generated} {decimal : Decimal}
  {cents : ℤ}

theorem positive_whole (accepted : Acceptance database call generated)
    (finite : accepted.amount = .finite decimal) (whole : decimal.inCents = cents) : 0 < cents := by
  have positive := accepted.positive
  rw [finite, Numeric.zero_less_finite] at positive
  have above := inCents_pos positive
  rw [whole] at above
  exact_mod_cast above

theorem covered_whole (accepted : Acceptance database call generated)
    (finite : accepted.amount = .finite decimal) (whole : decimal.inCents = cents) {source : Cents}
    (number : accepted.source.balance = .cents source) : cents ≤ source.value := by
  have covered := accepted.covered_of_finite finite number
  rw [whole] at covered
  exact_mod_cast covered

theorem recorded_whole (accepted : Acceptance database call generated)
    (finite : accepted.amount = .finite decimal) (whole : decimal.inCents = cents) :
    accepted.recorded.money.measure = (cents : WithTop ℤ) := by
  rcases accepted.recorded_of_finite finite with ⟨inRange, recorded⟩
  rw [recorded, Money.measure_cents]
  simp only [whole, roundAway_intCast]

theorem debited_whole (accepted : Acceptance database call generated)
    (finite : accepted.amount = .finite decimal) (whole : decimal.inCents = cents) {source : Cents}
    (number : accepted.source.balance = .cents source) :
    Exists fun inRange => accepted.debited = .cents ⟨source.value - cents, inRange⟩ := by
  rcases accepted.debited_of_finite finite number with ⟨inRange, debited⟩
  have rounded := Decimal.roundAway_sub_inCents whole source.value
  simp only [rounded] at inRange debited
  exact ⟨inRange, debited⟩

theorem credited_whole (accepted : Acceptance database call generated)
    (finite : accepted.amount = .finite decimal) (whole : decimal.inCents = cents)
    {destination : Cents}
    (number : (afterDebit accepted.source accepted.destination accepted.debited).balance =
      .cents destination) :
    Exists fun inRange => accepted.credited = .cents ⟨destination.value + cents, inRange⟩ := by
  rcases accepted.credited_of_finite finite number with ⟨inRange, credited⟩
  have rounded := Decimal.roundAway_add_inCents whole destination.value
  simp only [rounded] at inRange credited
  exact ⟨inRange, credited⟩

/-- Both updates of a transfer between two accounts. -/
theorem result_account?_of_ne (accepted : Acceptance database call generated)
    (different : accepted.source.accountId ≠ accepted.destination.accountId) (id : ℤ) :
    accepted.result.account? id =
      if id = accepted.destination.accountId then
        some { accepted.destination with balance := accepted.credited }
      else if id = accepted.source.accountId then
        some { accepted.source with balance := accepted.debited }
      else database.account? id := by
  rw [accepted.result_account?, moved, Database.setBalance_account?, Database.setBalance_account?,
    Database.setBalance_account?, if_neg different.symm, accepted.destinationRow,
    accepted.sourceRow]
  rfl

/-- A transfer from an account to itself gives back what it took. -/
theorem credited_of_same (accepted : Acceptance database call generated)
    (finite : accepted.amount = .finite decimal) (whole : decimal.inCents = cents)
    (same : accepted.source.accountId = accepted.destination.accountId) {source : Cents}
    (number : accepted.source.balance = .cents source) :
    accepted.credited = accepted.source.balance := by
  rcases accepted.debited_whole finite whole number with ⟨debitRange, debited⟩
  have between : (afterDebit accepted.source accepted.destination accepted.debited).balance =
      .cents ⟨source.value - cents, debitRange⟩ := by
    rw [afterDebit, if_pos same.symm]
    exact debited
  rcases accepted.credited_whole finite whole between with ⟨creditRange, credited⟩
  rw [credited, number]
  simp only [sub_add_cancel]

theorem result_accounts_of_same (accepted : Acceptance database call generated)
    (finite : accepted.amount = .finite decimal) (whole : decimal.inCents = cents)
    (same : accepted.source.accountId = accepted.destination.accountId) {source : Cents}
    (number : accepted.source.balance = .cents source) :
    accepted.result.accounts = database.accounts := by
  have credited := accepted.credited_of_same finite whole same number
  change accepted.moved.accounts = database.accounts
  rw [moved, ← same, credited]
  exact Database.setBalance_setBalance_accounts accepted.sourceRow accepted.debited

/-- What an accepted call of whole cents changes. -/
theorem moves (accepted : Acceptance database call generated)
    (regularSource : RegularAt database accepted.source.accountId)
    (regularDestination : RegularAt database accepted.destination.accountId)
    (finite : accepted.amount = .finite decimal) (whole : decimal.inCents = cents) :
    Moves database accepted.result accepted.source.accountId accepted.destination.accountId cents
      call.description generated where
  customers := accepted.result_customers
  accountIds := accepted.result_accountIds
  entry := ⟨accepted.row, accepted.result_transactions, accepted.fromAccount, accepted.toAccount,
    accepted.recorded_whole finite whole, rfl, accepted.generates, rfl, rfl⟩
  others := by
    intro id notSource notDestination
    rw [accepted.result_account?, moved, Database.setBalance_account?, if_neg notDestination,
      Database.setBalance_account?, if_neg notSource]
  onlyAccount := by
    intro same
    rcases regularSource.ordinary _ accepted.sourceRow with ⟨source, number⟩
    exact accepted.result_accounts_of_same finite whole same number
  source := by
    intro different
    rcases regularSource.ordinary _ accepted.sourceRow with ⟨source, number⟩
    rcases accepted.debited_whole finite whole number with ⟨inRange, debited⟩
    refine ⟨accepted.source, accepted.debited, accepted.sourceRow, ?_, ?_⟩
    · rw [accepted.result_account?_of_ne different, if_neg different, if_pos rfl]
    · rw [debited, number, Money.measure_cents, Money.measure_cents, ← WithTop.coe_add,
        sub_add_cancel]
  destination := by
    intro different
    rcases regularDestination.ordinary _ accepted.destinationRow with ⟨destination, number⟩
    have stays : (afterDebit accepted.source accepted.destination accepted.debited).balance =
        .cents destination := by
      rw [afterDebit, if_neg different.symm]
      exact number
    rcases accepted.credited_whole finite whole stays with ⟨inRange, credited⟩
    refine ⟨accepted.destination, accepted.credited, accepted.destinationRow, ?_, ?_⟩
    · rw [accepted.result_account?_of_ne different, if_pos rfl]
    · rw [credited, number, Money.measure_cents, Money.measure_cents, ← WithTop.coe_add]

theorem permits (accepted : Acceptance database call generated)
    (regularSource : RegularAt database accepted.source.accountId)
    (regularDestination : RegularAt database accepted.destination.accountId)
    (finite : accepted.amount = .finite decimal) (whole : decimal.inCents = cents) :
    Permits database accepted.source.accountId accepted.destination.accountId cents := by
  rcases regularSource.ordinary _ accepted.sourceRow with ⟨source, sourceNumber⟩
  rcases regularDestination.ordinary _ accepted.destinationRow with ⟨destination, destinationNumber⟩
  refine ⟨accepted.positive_whole finite whole, accepted.source, accepted.destination,
    accepted.sourceRow, accepted.destinationRow, ?_, ?_, ?_⟩
  · have same := accepted.sameCurrency
    rw [accepted.sourceHolds, accepted.destinationHolds]
    rcases sourceCurrency : accepted.sourceCurrency with ⟨text, fits⟩
    rcases destinationCurrency : accepted.destinationCurrency with ⟨otherText, otherFits⟩
    rw [sourceCurrency, destinationCurrency] at same
    cases same
    rfl
  · rw [sourceNumber, Money.measure_cents, WithTop.coe_le_coe]
    exact accepted.covered_whole finite whole sourceNumber
  · intro different
    have stays : (afterDebit accepted.source accepted.destination accepted.debited).balance =
        .cents destination := by
      rw [afterDebit, if_neg different.symm]
      exact destinationNumber
    rcases accepted.credited_whole finite whole stays with ⟨inRange, _⟩
    rw [destinationNumber, Money.measure_cents, ← WithTop.coe_add, WithTop.coe_lt_coe]
    exact (abs_lt.mp inRange).2

end Acceptance

/-- The credit of whole cents can be stored: it takes a self-transfer back to
where it was, and it stays below the bound of the column otherwise. -/
theorem exists_credited {database : Database} {fromId toId cents : ℤ} {source destination : Account}
    {sourceCents destinationCents : Cents} (positive : 0 < cents)
    (sourceRow : database.account? fromId = some source)
    (destinationRow : database.account? toId = some destination)
    (destinationNumber : destination.balance = .cents destinationCents)
    (below : fromId ≠ toId -> destination.balance.measure + cents < ((10 ^ 14 : ℤ) : WithTop ℤ))
    {decimal : Decimal} (whole : decimal.inCents = cents)
    (debitRange : |sourceCents.value - cents| < 10 ^ 14) :
    Exists fun credited =>
      Money.store ((afterDebit source destination
        (.cents ⟨sourceCents.value - cents, debitRange⟩)).balance.toNumeric.add (.finite decimal)) =
          some credited := by
  have sourceKey := database.accountId_of_account? sourceRow
  have destinationKey := database.accountId_of_account? destinationRow
  by_cases same : destination.accountId = source.accountId
  · have creditRange : |(sourceCents.value - cents) + cents| < 10 ^ 14 := by
      rw [sub_add_cancel]
      exact sourceCents.inRange
    rw [afterDebit, if_pos same]
    exact ⟨_, Money.store_add_whole whole ⟨sourceCents.value - cents, debitRange⟩ creditRange⟩
  · have different : fromId ≠ toId := by
      rw [← sourceKey, ← destinationKey]
      exact Ne.symm same
    have bounded := below different
    rw [destinationNumber, Money.measure_cents, ← WithTop.coe_add, WithTop.coe_lt_coe] at bounded
    have destinationRange := abs_lt.mp destinationCents.inRange
    have creditRange : |destinationCents.value + cents| < 10 ^ 14 := by
      rw [abs_lt]
      omega
    rw [afterDebit, if_neg same, destinationNumber]
    exact ⟨_, Money.store_add_whole whole destinationCents creditRange⟩

/-- The checks and the stores of a permitted transfer all go through. -/
theorem Permits.exists_acceptance {database : Database} {fromId toId cents : ℤ}
    (permits : Permits database fromId toId cents) (regularSource : RegularAt database fromId)
    (regularDestination : RegularAt database toId) {decimal : Decimal}
    (whole : decimal.inCents = cents) (description : Option String) {generated : Generated}
    (fresh : generated.IsFresh database) :
    Nonempty (Acceptance database ⟨some fromId, some toId, some (.finite decimal), description⟩
      generated) := by
  rcases permits with ⟨positive, source, destination, sourceRow, destinationRow, sameCurrency,
    covered, below⟩
  rcases fresh with ⟨transactionId, generates, unused⟩
  rcases regularSource.ordinary source sourceRow with ⟨sourceCents, sourceNumber⟩
  rcases regularDestination.ordinary destination destinationRow with ⟨destinationCents, destinationNumber⟩
  rcases Option.ne_none_iff_exists'.mp (regularSource.currency source sourceRow)
    with ⟨currency, sourceHolds⟩
  rw [sourceNumber, Money.measure_cents, WithTop.coe_le_coe] at covered
  have sourceRange := abs_lt.mp sourceCents.inRange
  have value : decimal.value = (cents : ℚ) / 100 := by
    rw [← whole, Decimal.inCents]
    ring
  have positiveValue : 0 < decimal.value := by
    have above : (0 : ℚ) < cents := by exact_mod_cast positive
    rw [value]
    linarith
  have debitRange : |sourceCents.value - cents| < 10 ^ 14 := by
    rw [abs_lt]
    omega
  have amountRange : |cents| < 10 ^ 14 := by
    rw [abs_lt]
    omega
  rcases exists_credited positive sourceRow destinationRow destinationNumber below whole debitRange
    with ⟨credited, credits⟩
  have recordable : Numeric.zero.less (Money.cents ⟨cents, amountRange⟩).toNumeric = true := by
    rw [Money.toNumeric, Numeric.zero_less_finite, Decimal.value_cents, ← value]
    exact positiveValue
  exact ⟨{
    amount := .finite decimal
    source, destination, credited, transactionId
    sourceCurrency := currency
    destinationCurrency := currency
    debited := .cents ⟨sourceCents.value - cents, debitRange⟩
    recorded := ⟨.cents ⟨cents, amountRange⟩, recordable⟩
    amountGiven := rfl
    positive := (Numeric.zero_less_finite decimal).mpr positiveValue
    foundSource := sourceRow
    foundDestination := destinationRow
    sourceHolds := sourceHolds
    destinationHolds := sameCurrency ▸ sourceHolds
    sameCurrency := rfl
    covered := by
      rw [sourceNumber, Money.toNumeric, Bool.eq_false_iff, Ne, Numeric.less_finite,
        Decimal.value_cents, value, not_lt]
      have enough : (cents : ℚ) ≤ sourceCents.value := by exact_mod_cast covered
      linarith
    debits := by
      rw [sourceNumber]
      exact Money.store_sub_whole whole sourceCents debitRange
    credits := credits
    records := Money.store_whole whole amountRange
    generates := generates
    fresh := unused }⟩

/-! ## The call as a statement -/

/-- The tables after a statement, which an error leaves as they were. -/
def tablesAfter (database : Database) : Except SqlError Database -> Database
  | .ok after => after
  | .error _ => database

/-- The call of a transfer between two accounts. -/
def wholeTransfer (fromId toId : ℤ) (amount : Decimal) (description : Option String) : TransferCall where
  fromAccount := some fromId
  toAccount := some toId
  amount := some (.finite amount)
  description := description

theorem permits_of_call {database : Database} {allowUpdate : Option String} {fromId toId : ℤ}
    (regularSource : RegularAt database fromId) (regularDestination : RegularAt database toId)
    {amount : Decimal} {cents : ℤ}
    (whole : amount.inCents = cents) {description : Option String} {generated : Generated}
    {after : Database}
    (success : callTransferMoneyUnder allowUpdate (wholeTransfer fromId toId amount description)
      generated database = .ok after) :
    Permits database fromId toId cents ∧ generated.IsFresh database ∧
      Moves database after fromId toId cents description generated := by
  rcases callTransferMoneyUnder_eq_ok_iff.mp success with ⟨accepted, rfl⟩
  have finite : accepted.amount = .finite amount := (Option.some.inj accepted.amountGiven).symm
  have sourceKey : fromId = accepted.source.accountId := Option.some.inj accepted.fromAccount
  have destinationKey : toId = accepted.destination.accountId := Option.some.inj accepted.toAccount
  have permits := accepted.permits (sourceKey ▸ regularSource) (destinationKey ▸ regularDestination)
    finite whole
  have moves := accepted.moves (sourceKey ▸ regularSource) (destinationKey ▸ regularDestination)
    finite whole
  rw [← sourceKey, ← destinationKey] at permits moves
  exact ⟨permits, ⟨accepted.transactionId, accepted.generates, accepted.fresh⟩, moves⟩

theorem Permits.call_succeeds {database : Database} {fromId toId cents : ℤ}
    (permits : Permits database fromId toId cents) (regularSource : RegularAt database fromId)
    (regularDestination : RegularAt database toId) (allowUpdate : Option String) {amount : Decimal}
    (whole : amount.inCents = cents) (description : Option String) {generated : Generated}
    (fresh : generated.IsFresh database) :
    Exists fun after =>
      callTransferMoneyUnder allowUpdate (wholeTransfer fromId toId amount description) generated
        database = .ok after := by
  rcases permits.exists_acceptance regularSource regularDestination whole description fresh with ⟨accepted⟩
  exact ⟨accepted.result, callTransferMoneyUnder_eq_ok_iff.mpr ⟨accepted, rfl⟩⟩

/-- The exact meaning of a transfer of whole cents: when it succeeds, all that
it then changes, and that it changes nothing otherwise. -/
theorem transferMoney_exact {database : Database} (regular : Regular database)
    (allowUpdate : Option String) (fromId toId : ℤ) {amount : Decimal} (whole : amount.IsWholeCent)
    (description : Option String) (generated : Generated) :
    let outcome := callTransferMoneyUnder allowUpdate (wholeTransfer fromId toId amount description)
      generated database
    ((Exists fun after => outcome = .ok after) ↔
      Permits database fromId toId ⌊amount.inCents⌋ ∧ generated.IsFresh database) ∧
    (forall after, outcome = .ok after ->
      Moves database after fromId toId ⌊amount.inCents⌋ description generated) ∧
    (forall problem, outcome = .error problem -> tablesAfter database outcome = database) := by
  refine ⟨⟨?_, ?_⟩, ?_, ?_⟩
  · rintro ⟨after, success⟩
    rcases permits_of_call (regular.at fromId) (regular.at toId) whole success with ⟨permits, fresh, _⟩
    exact ⟨permits, fresh⟩
  · rintro ⟨permits, fresh⟩
    exact permits.call_succeeds (regular.at fromId) (regular.at toId) allowUpdate whole description
      fresh
  · intro after success
    exact (permits_of_call (regular.at fromId) (regular.at toId) whole success).2.2
  · intro problem refused
    rw [refused]
    rfl

/-- Two dollar accounts with numbers as balances. -/
theorem regular_twoAccounts (first second : Cents) :
    Regular (twoAccounts (.cents first) (.cents second)) where
  currency := by
    intro account member
    rcases List.mem_cons.mp member with rfl | member
    · exact Option.some_ne_none _
    · rw [List.mem_singleton.mp member]
      exact Option.some_ne_none _
  ordinary := ordinary_twoAccounts first second

theorem transferMoney_exact_thirtyCents :
    (Exists fun after => callTransferMoneyUnder none (wholeTransfer 1 2 ⟨30, 2⟩ none) ⟨some 1, none⟩
        (twoAccounts (.cents ⟨100, by decide⟩) .zero) = .ok after) ↔
      Permits (twoAccounts (.cents ⟨100, by decide⟩) .zero) 1 2 ⌊Decimal.inCents ⟨30, 2⟩⌋ ∧
        Generated.IsFresh ⟨some 1, none⟩ (twoAccounts (.cents ⟨100, by decide⟩) .zero) :=
  (transferMoney_exact (regular_twoAccounts ⟨100, by decide⟩ ⟨0, by decide⟩) none 1 2
    (by decide +kernel) none ⟨some 1, none⟩).1

/-- Two accounts of one dollar and of nothing, and a ledger whose only row was
inserted with the key 1 by hand. -/
def keyOneTaken : Database :=
  (twoAccounts .oneDollar .zero).record
    { transactionId := 1
      fromAccount := none
      toAccount := none
      amount := ⟨.cents ⟨5, by decide⟩, by decide +kernel⟩
      description := none
      timestamp := none
      status := none }
    (by simp [twoAccounts]) (by simp [Tables.Refers]) (by simp [Tables.Refers])

/-- The sequence still stands at 1, so that the next transfer fails although
everything asked of the accounts and of the amount is there. -/
theorem not_transferMoney_exact_of_issued :
    ¬ forall (database : Database), Regular database -> forall (allowUpdate : Option String),
      allowUpdate ≠ some "on" -> forall (fromId toId : ℤ) (amount : Decimal), amount.IsWholeCent ->
      forall (description : Option String) (generated : Generated), generated.transactionId ≠ none ->
      ((Exists fun after => callTransferMoneyUnder allowUpdate
          (wholeTransfer fromId toId amount description) generated database = .ok after) ↔
        Permits database fromId toId ⌊amount.inCents⌋) := by
  intro always
  have regular : Regular keyOneTaken :=
    ⟨(regular_twoAccounts ⟨100, by decide⟩ ⟨0, by decide⟩).currency,
      (regular_twoAccounts ⟨100, by decide⟩ ⟨0, by decide⟩).ordinary⟩
  have law := always keyOneTaken regular none (by decide) 1 2 ⟨30, 2⟩ (by decide +kernel) none
    ⟨some 1, none⟩ (by decide)
  have thirty : ⌊Decimal.inCents ⟨30, 2⟩⌋ = 30 := by decide +kernel
  have permits : Permits keyOneTaken 1 2 ⌊Decimal.inCents ⟨30, 2⟩⌋ := by
    rw [thirty]
    refine ⟨by decide, _, _, rfl, rfl, rfl, ?_, fun _ => ?_⟩
    · exact WithTop.coe_le_coe.mpr (by decide)
    · exact WithTop.coe_lt_coe.mpr (by decide)
  rcases law.mpr permits with ⟨after, success⟩
  rcases callTransferMoneyUnder_eq_ok_iff.mp success with ⟨accepted, _⟩
  have generates : accepted.transactionId = 1 := (Option.some.inj accepted.generates).symm
  exact accepted.fresh (by rw [generates]; decide)

end CoreBank
