import CoreBank.Server.DataAccess

namespace CoreBank

open Foundation

/-!
# Which accounts exist

Existence is decided three times: `accountExist` and `getBalance` join the
account with its owner and convert every column, and `transferMoney` looks at
the currency.  The keys and references make the join find the row exactly when
it is stored.  The currency is the one column among them that may be null.
-/

/-- A connection on which nothing fails. -/
def working : DatabaseWork :=
  dependable fun _ => none

theorem working_undisturbed : working.beginFails = none ∧ working.execFails = none :=
  ⟨rfl, rfl⟩

theorem working_commits (database : Database) : working.commit database = .committed := rfl

/-- All layers agree on whether an account exists, and with the table. -/
structure AgreeOnAccount {Double : Type} (driver : Driver Double) (database : Database) (id : ℤ) :
    Prop where
  accountExist : AccountService.accountExist driver working id database =
    .ok (decide (id ∈ database.accountIds))
  getBalance : forall balance, AccountService.getBalance driver working id database = .ok balance ↔
    Exists fun account => database.account? id = some account ∧
      balance = driver.readBalance account.balance
  source : forall allowUpdate call generated,
    callTransferMoneyUnder allowUpdate call generated database =
      .error (.transfer (.sourceMissing (some id))) -> id ∉ database.accountIds
  destination : forall allowUpdate call generated,
    callTransferMoneyUnder allowUpdate call generated database =
      .error (.transfer (.destinationMissing (some id))) -> id ∉ database.accountIds

section Agreement

variable {Double : Type} {driver : Driver Double} {database : Database} {id : ℤ}

theorem Database.account?_eq_none_iff : database.account? id = none ↔ id ∉ database.accountIds := by
  rw [← Database.account?_isSome_iff, Bool.not_eq_true, Option.isSome_eq_false_iff,
    Option.isNone_iff_eq_none]

/-- An account with a currency is not missing. -/
theorem absent_of_currency
    (currency : forall account, database.account? id = some account -> account.currency ≠ none)
    (null : (database.select (some id)).bind Account.currency = none) : id ∉ database.accountIds := by
  rw [← Database.account?_eq_none_iff]
  cases found : database.account? id with
  | none => rfl
  | some account =>
      have selected : database.select (some id) = some account := found
      rw [selected] at null
      exact False.elim (currency account found null)

/-- The layers agree exactly on the accounts whose currency is not null. -/
theorem agreeOnAccount_iff (driver : Driver Double) (database : Database) (id : ℤ) :
    AgreeOnAccount driver database id ↔
      forall account, database.account? id = some account -> account.currency ≠ none := by
  constructor
  · intro agree account found null
    have throws := agree.accountExist
    rw [AccountService.accountExist_eq working_undisturbed (working_commits database), found] at throws
    simp only [null, if_true] at throws
    cases throws
  · intro currency
    constructor
    · rw [AccountService.accountExist_eq working_undisturbed (working_commits database)]
      cases found : database.account? id with
      | none =>
          have absent := Database.account?_eq_none_iff.mp found
          simp only [absent, decide_false]
      | some account =>
          have present : id ∈ database.accountIds :=
            (Database.account?_isSome_iff database id).mp (by rw [found]; rfl)
          simp only [currency account found, present, decide_true, if_false]
    · intro balance
      rw [AccountService.getBalance_eq working_undisturbed (working_commits database)]
      cases found : database.account? id with
      | none => simp
      | some account => simp [currency account found, eq_comm]
    · intro allowUpdate call generated raised
      rcases callTransferMoneyUnder_raises _ _ _ _ _ raised with ⟨named, null⟩
      rw [← named] at null
      exact absent_of_currency currency null
    · intro allowUpdate call generated raised
      rcases callTransferMoneyUnder_raises _ _ _ _ _ raised with ⟨named, null⟩
      rw [← named] at null
      exact absent_of_currency currency null

end Agreement

/-- One customer with one account whose currency was set to null. -/
def nullCurrency : Database where
  customers := (twoAccounts .zero .zero).customers
  accounts := [⟨1, 1, .checking, .cents ⟨10000, by decide⟩, none⟩]
  transactions := []
  satisfies := {
    customersPkey := List.nodup_singleton _
    customersEmailKey := List.nodup_singleton _
    accountsPkey := List.nodup_singleton _
    accountsCustomerIdFkey := by decide
    transactionsPkey := List.nodup_nil
    transactionsFromAccountFkey := fun _row impossible => by cases impossible
    transactionsToAccountFkey := fun _row impossible => by cases impossible }

theorem not_agreeOnAccount_of_every_account :
    ¬ forall (database : Database) (id : ℤ), AgreeOnAccount numericDriver database id := by
  intro always
  have throws := (always nullCurrency 1).accountExist
  exact absurd throws (by decide +kernel)

end CoreBank
