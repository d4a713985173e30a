import CoreBank.Database.ExactTransfers
import CoreBank.Foundation.GroupedQueries

namespace CoreBank

open Foundation

/-!
# The customer report

`customer_account_summary` joins the customers to their accounts, groups by the
id and the name of the customer, and counts and sums what is left of the join.
The key of `customers` makes a group one customer, and the foreign key of
`accounts` makes an account part of one group, so nothing is lost or counted
twice.

The totals are values of `numeric` with their display scale.  A balance may be
`NaN`, which then is the total of its owner, before a transfer and after it.
-/

/-! ## The view -/

/-- A row of the view. -/
structure SummaryRow where
  customerId : ℤ
  fullName : Varchar 120
  numAccounts : ℕ
  totalBalance : Option Numeric
  deriving DecidableEq, Repr

/-- `CREATE VIEW customer_account_summary`. -/
def Database.customerAccountSummary (database : Database) : Multiset SummaryRow :=
  (Query.groupBy (fun joined => (joined.1.customerId, joined.1.fullName))
    (Query.leftJoin (fun customer account => customer.customerId = account.customerId)
      (database.customers : Multiset Customer) (database.accounts : Multiset Account))).map
    fun group => {
      customerId := group.1.1
      fullName := group.1.2
      numAccounts := Query.count (fun joined => joined.2.map Account.accountId) group.2
      totalBalance := Query.sum (fun joined => joined.2.map fun account => account.balance.toNumeric)
        group.2 }

/-! ## One row per customer -/

/-- The accounts of a customer. -/
def heldBy (owner : ℤ) (accounts : Multiset Account) : Multiset Account :=
  accounts.filter fun account => owner = account.customerId

/-- What the report says of a customer, without the join. -/
def summaryRow (accounts : Multiset Account) (customer : Customer) : SummaryRow where
  customerId := customer.customerId
  fullName := customer.fullName
  numAccounts := (heldBy customer.customerId accounts).card
  totalBalance := Query.sumOf ((heldBy customer.customerId accounts).map fun account =>
    account.balance.toNumeric)

namespace Database

theorem customers_unique (database : Database) :
    ((database.customers : Multiset Customer).map Customer.customerId).Nodup :=
  database.satisfies.customersPkey

theorem groupColumns_unique (database : Database) :
    ((database.customers : Multiset Customer).map fun customer =>
      (customer.customerId, customer.fullName)).Nodup := by
  apply Multiset.Nodup.of_map Prod.fst
  rw [Multiset.map_map]
  exact database.customers_unique

/-- The foreign key of an account names one customer. -/
theorem owner_unique (database : Database) {account : Account}
    (member : account ∈ (database.accounts : Multiset Account)) :
    ((database.customers : Multiset Customer).filter fun customer =>
      customer.customerId = account.customerId).card = 1 := by
  refine Query.card_filter_reference database.customers_unique ?_
  exact database.satisfies.accountsCustomerIdFkey account member

theorem customerAccountSummary_eq (database : Database) :
    database.customerAccountSummary =
      (database.customers : Multiset Customer).map (summaryRow database.accounts) := by
  have groups := Query.groupBy_leftJoin
    (fun (customer : Customer) (account : Account) => customer.customerId = account.customerId)
    database.groupColumns_unique (database.accounts : Multiset Account)
  rw [customerAccountSummary, groups, Multiset.map_map]
  refine Multiset.map_congr rfl fun customer _ => ?_
  simp only [Function.comp_apply, Query.count_partners, Query.sum_partners]
  rfl

end Database

/-! ## Nothing is lost -/

/-- What the report says of the tables it is made from: a row for each
customer, and sums that are those of the accounts. -/
structure Database.IsReported (database : Database) : Prop where
  customers : (database.customerAccountSummary.map fun row => (row.customerId, row.fullName)) =
    (database.customers : Multiset Customer).map fun customer =>
      (customer.customerId, customer.fullName)
  unique : (database.customerAccountSummary.map SummaryRow.customerId).Nodup
  numAccounts : (database.customerAccountSummary.map SummaryRow.numAccounts).sum =
    database.accounts.length
  totalBalance : (database.customerAccountSummary.map fun row => row.totalBalance.getD 0).sum =
    (database.accounts.map fun account => account.balance.toNumeric).sum

theorem Database.isReported (database : Database) : database.IsReported where
  customers := by
    rw [customerAccountSummary_eq, Multiset.map_map]
    rfl
  unique := by
    rw [customerAccountSummary_eq, Multiset.map_map]
    exact database.customers_unique
  numAccounts := by
    rw [customerAccountSummary_eq, Multiset.map_map]
    exact Query.card_over_groups
      (fun (customer : Customer) (account : Account) => customer.customerId = account.customerId)
      fun _ member => database.owner_unique member
  totalBalance := by
    rw [customerAccountSummary_eq, Multiset.map_map]
    simp only [Function.comp_def, summaryRow, Query.getD_sumOf]
    exact Query.sum_over_groups
      (fun (customer : Customer) (account : Account) => customer.customerId = account.customerId)
      (fun account => account.balance.toNumeric) fun _ member => database.owner_unique member

/-! ## A change of one balance -/

namespace SummaryRow

/-- Change the total of one customer; a null total stays null. -/
def changeTotal (owner : ℤ) (change : Numeric -> Numeric) (row : SummaryRow) : SummaryRow :=
  if row.customerId = owner then { row with totalBalance := row.totalBalance.map change } else row

/-- Lower the total of the payer and raise that of the payee, unless they are
the same customer. -/
def move (payer payee : ℤ) (amount : Numeric) (row : SummaryRow) : SummaryRow :=
  if payer = payee then row
  else (row.changeTotal payer fun total => total.sub amount).changeTotal payee fun total =>
    total.add amount

end SummaryRow

theorem SummaryRow.changeTotal_changeTotal (owner : ℤ) (first second : Numeric -> Numeric)
    (row : SummaryRow) :
    (row.changeTotal owner first).changeTotal owner second =
      row.changeTotal owner fun total => second (first total) := by
  by_cases owned : row.customerId = owner
  · simp only [changeTotal, owned, if_true, Option.map_map, Function.comp_def]
  · simp only [changeTotal, owned, if_false]

theorem SummaryRow.changeTotal_of_same {owner : ℤ} {change : Numeric -> Numeric} {row : SummaryRow}
    (same : row.customerId = owner -> row.totalBalance.map change = row.totalBalance) :
    row.changeTotal owner change = row := by
  unfold changeTotal
  split_ifs with owned
  · rw [same owned]
  · rfl

/-- The row of an account after an update of one balance. -/
def withBalance (id : ℤ) (balance : Money) (account : Account) : Account :=
  if account.accountId = id then { account with balance } else account

theorem customerId_withBalance (id : ℤ) (balance : Money) (account : Account) :
    (withBalance id balance account).customerId = account.customerId := by
  unfold withBalance
  split_ifs <;> rfl

theorem map_withBalance_of_absent {id : ℤ} {rows : Multiset Account}
    (absent : id ∉ rows.map Account.accountId) (balance : Money) :
    rows.map (withBalance id balance) = rows := by
  refine (Multiset.map_congr rfl fun row member => ?_).trans (Multiset.map_id rows)
  have other : row.accountId ≠ id := fun same => absent (Multiset.mem_map.mpr ⟨row, member, same⟩)
  rw [withBalance, if_neg other, id_eq]

namespace Database

theorem heldBy_setBalance (database : Database) (id : ℤ) (balance : Money) (owner : ℤ) :
    heldBy owner (database.setBalance id balance).accounts =
      (heldBy owner database.accounts).map (withBalance id balance) := by
  have accounts : ((database.setBalance id balance).accounts : Multiset Account) =
      (database.accounts : Multiset Account).map (withBalance id balance) := rfl
  rw [accounts, heldBy, heldBy, Multiset.filter_map]
  simp only [Function.comp_def, customerId_withBalance]

theorem heldBy_unique (database : Database) (owner : ℤ) :
    ((heldBy owner database.accounts).map Account.accountId).Nodup := by
  have all : ((database.accounts : Multiset Account).map Account.accountId).Nodup :=
    database.satisfies.accountsPkey
  exact Multiset.nodup_of_le (Multiset.map_le_map (Multiset.filter_le _ _)) all

/-- The accounts of the owner split into the one account and the others. -/
theorem heldBy_of_account? {database : Database} {id : ℤ} {account : Account}
    (found : database.account? id = some account) :
    Exists fun others => heldBy account.customerId database.accounts = account ::ₘ others ∧
      id ∉ others.map Account.accountId := by
  have stored : account ∈ (database.accounts : Multiset Account) := mem_of_account? found
  have held : account ∈ heldBy account.customerId database.accounts :=
    Multiset.mem_filter.mpr ⟨stored, rfl⟩
  rcases Multiset.exists_cons_of_mem held with ⟨others, split⟩
  have unique := database.heldBy_unique account.customerId
  rw [split, Multiset.map_cons, Multiset.nodup_cons, database.accountId_of_account? found] at unique
  exact ⟨others, split, unique.1⟩

theorem absent_of_other_owner {database : Database} {id : ℤ} {account : Account}
    (found : database.account? id = some account) {owner : ℤ} (other : owner ≠ account.customerId) :
    id ∉ (heldBy owner database.accounts).map Account.accountId := by
  intro member
  rcases Multiset.mem_map.mp member with ⟨row, held, same⟩
  rcases Multiset.mem_filter.mp held with ⟨stored, owned⟩
  have equal : row = account := by
    have rowFound := database.account?_of_mem stored
    rw [same, found] at rowFound
    exact (Option.some.inj rowFound).symm
  exact other (owned.trans (congrArg Account.customerId equal))

/-- An update of one balance changes the total of its owner and nothing else in
the report. -/
theorem summaryRow_setBalance {database : Database} {id : ℤ} {account : Account}
    (found : database.account? id = some account) {balance : Money} {change : Numeric -> Numeric}
    (changes : forall others, balance.toNumeric + others = change (account.balance.toNumeric + others))
    (customer : Customer) :
    summaryRow (database.setBalance id balance).accounts customer =
      (summaryRow database.accounts customer).changeTotal account.customerId change := by
  by_cases owner : (summaryRow database.accounts customer).customerId = account.customerId
  · rw [SummaryRow.changeTotal, if_pos owner]
    change customer.customerId = account.customerId at owner
    rcases heldBy_of_account? found with ⟨others, split, absent⟩
    have changed : withBalance id balance account = { account with balance } := by
      rw [withBalance, if_pos (database.accountId_of_account? found)]
    simp only [summaryRow, heldBy_setBalance, owner, split, Multiset.map_cons,
      map_withBalance_of_absent absent, changed, Multiset.card_cons, Query.sumOf_cons, changes,
      Option.map_some]
  · rw [SummaryRow.changeTotal, if_neg owner]
    have absent := absent_of_other_owner found (show customer.customerId ≠ account.customerId from owner)
    simp only [summaryRow, heldBy_setBalance, map_withBalance_of_absent absent]

/-- The total of the owner of an account has the balance in it. -/
theorem totalBalance_of_account? {database : Database} {id : ℤ} {account : Account}
    (found : database.account? id = some account) {customer : Customer}
    (owner : customer.customerId = account.customerId) :
    Exists fun others : Numeric => (summaryRow database.accounts customer).totalBalance =
      some (account.balance.toNumeric + others) := by
  rcases heldBy_of_account? found with ⟨others, split, _⟩
  refine ⟨(others.map fun row => row.balance.toNumeric).sum, ?_⟩
  rw [summaryRow, owner, split, Multiset.map_cons, Query.sumOf_cons]

end Database

/-! ## A transfer of whole cents -/

namespace Decimal

/-- A whole number of cents at the display scale of the column. -/
def inColumn (decimal : Decimal) : Decimal where
  unscaled := ⌊decimal.inCents⌋
  scale := 2

theorem value_inColumn {decimal : Decimal} (whole : decimal.IsWholeCent) :
    decimal.inColumn.value = decimal.value := by
  have cents : (⌊decimal.inCents⌋ : ℚ) = decimal.value * 100 := whole.symm
  rw [inColumn, value_cents, cents]
  ring

theorem floor_inCents_neg {decimal : Decimal} (whole : decimal.IsWholeCent) :
    ⌊decimal.neg.inCents⌋ = -⌊decimal.inCents⌋ := by
  rw [inCents_neg, whole, ← Int.cast_neg, Int.floor_intCast, Int.floor_intCast]

theorem IsWholeCent.neg {decimal : Decimal} (whole : decimal.IsWholeCent) :
    decimal.neg.IsWholeCent := by
  rw [IsWholeCent, floor_inCents_neg whole, inCents_neg, Int.cast_neg, ← whole]

theorem inColumn_neg {decimal : Decimal} (whole : decimal.IsWholeCent) :
    decimal.neg.inColumn = decimal.inColumn.neg := by
  rw [inColumn, floor_inCents_neg whole]
  rfl

end Decimal

namespace Money

variable {decimal : Decimal} {money stored : Money}

theorem toNumeric_of_store_add (whole : decimal.IsWholeCent)
    (stores : store (money.toNumeric.add (.finite decimal)) = some stored) :
    stored.toNumeric = money.toNumeric.add (.finite decimal.inColumn) := by
  cases money with
  | nan =>
      cases stores
      rfl
  | cents amount =>
      have exact := Decimal.roundAway_add_inCents whole amount.value
      simp only [store_add, exact] at stores
      split_ifs at stores
      cases stores
      simp [toNumeric, Numeric.add, Decimal.add, Decimal.rescale, Decimal.inColumn]

/-- A debit is a credit of the opposite amount. -/
theorem toNumeric_of_store_sub (whole : decimal.IsWholeCent)
    (stores : store (money.toNumeric.sub (.finite decimal)) = some stored) :
    stored.toNumeric = money.toNumeric.sub (.finite decimal.inColumn) := by
  have added : stored.toNumeric = money.toNumeric.add (.finite decimal.neg.inColumn) :=
    toNumeric_of_store_add whole.neg stores
  rw [Decimal.inColumn_neg whole] at added
  exact added

/-- Taking a whole amount out of a balance and putting it back. -/
theorem sub_add_cancel (money : Money) (decimal : Decimal) :
    (money.toNumeric.sub (.finite decimal.inColumn)).add (.finite decimal.inColumn) =
      money.toNumeric := by
  cases money with
  | nan => rfl
  | cents amount =>
      simp [toNumeric, Numeric.sub, Numeric.neg, Numeric.add, Decimal.neg, Decimal.add,
        Decimal.rescale, Decimal.inColumn]

end Money

@[simp] theorem afterDebit_customerId (source destination : Account) (debited : Money) :
    (afterDebit source destination debited).customerId = destination.customerId := by
  unfold afterDebit
  split_ifs <;> rfl

namespace Acceptance

variable {database : Database} {call : TransferCall} {generated : Generated} {decimal : Decimal}

theorem summaryRow_debited (accepted : Acceptance database call generated)
    (finite : accepted.amount = .finite decimal) (whole : decimal.IsWholeCent) (customer : Customer) :
    summaryRow (database.setBalance accepted.source.accountId accepted.debited).accounts customer =
      (summaryRow database.accounts customer).changeTotal accepted.source.customerId fun total =>
        total.sub (.finite decimal.inColumn) := by
  apply Database.summaryRow_setBalance accepted.sourceRow
  intro others
  have debits := accepted.debits
  rw [finite] at debits
  rw [Money.toNumeric_of_store_sub whole debits, Numeric.sub_eq_add, Numeric.sub_eq_add,
    add_right_comm]

theorem summaryRow_moved (accepted : Acceptance database call generated)
    (finite : accepted.amount = .finite decimal) (whole : decimal.IsWholeCent) (customer : Customer) :
    summaryRow accepted.moved.accounts customer =
      ((summaryRow database.accounts customer).changeTotal accepted.source.customerId fun total =>
        total.sub (.finite decimal.inColumn)).changeTotal accepted.destination.customerId fun total =>
          total.add (.finite decimal.inColumn) := by
  have found := (select_eq_some (select_afterDebit accepted.foundSource accepted.foundDestination
    accepted.debited)).2
  rw [afterDebit_accountId] at found
  rw [← accepted.summaryRow_debited finite whole,
    ← afterDebit_customerId accepted.source accepted.destination accepted.debited]
  apply Database.summaryRow_setBalance found
  intro others
  have credits := accepted.credits
  rw [finite] at credits
  rw [Money.toNumeric_of_store_add whole credits, Numeric.add_eq_add, Numeric.add_eq_add,
    add_right_comm]

/-- Between two accounts of one customer the two updates cancel in the total,
because the total has the balance of the source in it. -/
theorem summaryRow_result (accepted : Acceptance database call generated)
    (finite : accepted.amount = .finite decimal) (whole : decimal.IsWholeCent) (customer : Customer) :
    summaryRow accepted.result.accounts customer =
      (summaryRow database.accounts customer).move accepted.source.customerId
        accepted.destination.customerId (.finite decimal.inColumn) := by
  have both := accepted.summaryRow_moved finite whole customer
  by_cases same : accepted.source.customerId = accepted.destination.customerId
  · rw [SummaryRow.move, if_pos same]
    rw [← same, SummaryRow.changeTotal_changeTotal] at both
    refine both.trans (SummaryRow.changeTotal_of_same fun owner => ?_)
    rcases Database.totalBalance_of_account? accepted.sourceRow owner with ⟨others, total⟩
    rw [total, Option.map_some]
    congr 1
    calc ((accepted.source.balance.toNumeric + others).sub (.finite decimal.inColumn)).add
          (.finite decimal.inColumn)
        = (accepted.source.balance.toNumeric.sub (.finite decimal.inColumn)).add
            (.finite decimal.inColumn) + others := by
          rw [Numeric.sub_eq_add, Numeric.sub_eq_add, Numeric.add_eq_add, Numeric.add_eq_add,
            add_right_comm _ others, add_right_comm _ others]
      _ = accepted.source.balance.toNumeric + others := by rw [Money.sub_add_cancel]
  · rw [SummaryRow.move, if_neg same]
    exact both

theorem customerAccountSummary_result (accepted : Acceptance database call generated)
    (finite : accepted.amount = .finite decimal) (whole : decimal.IsWholeCent) :
    accepted.result.customerAccountSummary =
      database.customerAccountSummary.map (SummaryRow.move accepted.source.customerId
        accepted.destination.customerId (.finite decimal.inColumn)) := by
  rw [Database.customerAccountSummary_eq, Database.customerAccountSummary_eq, Multiset.map_map,
    accepted.result_customers]
  refine Multiset.map_congr rfl fun customer _ => ?_
  rw [Function.comp_apply, accepted.summaryRow_result finite whole]

end Acceptance

/-- What a call does to the report: the amount goes from the owner of the
source to the owner of the destination. -/
def ReportFollows (before after : Database) (call : TransferCall) (amount : Numeric) : Prop :=
  Exists fun source => Exists fun destination =>
    before.select call.fromAccount = some source ∧ before.select call.toAccount = some destination ∧
    after.customerAccountSummary =
      before.customerAccountSummary.map (SummaryRow.move source.customerId destination.customerId amount)

/-- The report accounts for every account, and a successful transfer of whole
cents moves its amount between two rows of it, or leaves it as it is. -/
theorem customerAccountSummary_complete (database : Database) :
    database.IsReported ∧
      forall (allowUpdate : Option String) (call : TransferCall) (generated : Generated)
        (after : Database) (decimal : Decimal),
        callTransferMoneyUnder allowUpdate call generated database = .ok after ->
        call.amount = some (.finite decimal) -> decimal.IsWholeCent ->
        decimal.inColumn.value = decimal.value ∧
          ReportFollows database after call (.finite decimal.inColumn) := by
  refine ⟨database.isReported, ?_⟩
  intro allowUpdate call generated after decimal success given whole
  rcases callTransferMoneyUnder_eq_ok_iff.mp success with ⟨accepted, rfl⟩
  have finite : accepted.amount = .finite decimal :=
    Option.some.inj (accepted.amountGiven.symm.trans given)
  exact ⟨Decimal.value_inColumn whole, accepted.source, accepted.destination, accepted.foundSource,
    accepted.foundDestination, accepted.customerAccountSummary_result finite whole⟩

/-- Two more customers of the sample data. -/
def benjamin : Customer where
  customerId := 2
  fullName := ⟨"Benjamin Carter", by decide⟩
  email := ⟨"ben.c@bank1.com", by decide⟩

def clara : Customer where
  customerId := 3
  fullName := ⟨"Clara Mendes", by decide⟩
  email := ⟨"clara.m@bank1.com", by decide⟩

/-- The two accounts belong to two customers, and a third customer has none. -/
def threeCustomers : Database where
  customers := (twoAccounts .oneDollar .zero).customers ++ [benjamin, clara]
  accounts := (twoAccounts .oneDollar .zero).accounts.map fun account =>
    { account with customerId := account.accountId }
  transactions := []
  satisfies := {
    customersPkey := by decide +kernel
    customersEmailKey := by decide +kernel
    accountsPkey := by decide +kernel
    accountsCustomerIdFkey := by decide +kernel
    transactionsPkey := List.nodup_nil
    transactionsFromAccountFkey := fun _row impossible => by cases impossible
    transactionsToAccountFkey := fun _row impossible => by cases impossible }

/-- Thirty cents go from the first customer to the second; the third stays in
the report without a total. -/
theorem customerAccountSummary_threeCustomers :
    (callTransferMoneyUnder none thirtyCents.call thirtyCents.generated threeCustomers).map
        Database.customerAccountSummary =
      .ok {⟨1, ⟨"Alice Johnson", by decide⟩, 1, some (.finite ⟨70, 2⟩)⟩,
        ⟨2, benjamin.fullName, 1, some (.finite ⟨30, 2⟩)⟩, ⟨3, clara.fullName, 0, none⟩} := by
  have accepted : (callTransferMoneyUnder none thirtyCents.call thirtyCents.generated
      threeCustomers).isOk = true := by
    decide +kernel
  cases success : callTransferMoneyUnder none thirtyCents.call thirtyCents.generated threeCustomers with
  | error problem =>
      rw [success] at accepted
      cases accepted
  | ok after =>
      rcases (customerAccountSummary_complete threeCustomers).2 none thirtyCents.call
        thirtyCents.generated after ⟨30, 2⟩ success rfl (by decide +kernel) with
        ⟨_, source, destination, foundSource, foundDestination, report⟩
      have payer : source.customerId = 1 := by
        cases foundSource
        rfl
      have payee : destination.customerId = 2 := by
        cases foundDestination
        rfl
      rw [Except.map, report, payer, payee]
      decide +kernel

end CoreBank
