import CoreBank.Database.MoneySupply
import CoreBank.Database.Overdraft
import CoreBank.Foundation.Gains

namespace CoreBank

open Foundation

/-!
# What rounding does to the money

The two updates of a transfer round on their own.  An odd number of half cents
is taken from the source without the half, because a difference above zero is
rounded up, and is brought to the destination with the half made whole, unless
the destination stays below zero.  Each such transfer makes one cent; none ever
loses one.

A single balance strays from the exact amounts by half a cent, at most, for
each time it is written.
-/

/-- The balance is below zero, and with the amount it still is. -/
def Money.staysBelowZero (balance : Money) (amount : Decimal) : Bool :=
  match balance with
  | .nan => false
  | .cents held => decide ((held.value : ℚ) + amount.inCents < 0)

/-- The call is accepted, for an odd number of half cents, and the destination
does not stay below zero. -/
def mintsCent (database : Database) (request : Attempt) : Bool :=
  match callTransferMoney request.call request.generated database, request.call.amount,
      database.select request.call.toAccount with
  | .ok _, some (.finite amount), some destination =>
      decide amount.IsHalfCent && !destination.balance.staysBelowZero amount
  | _, _, _ => false

/-- The cents that a call makes. -/
def minted (database : Database) (request : Attempt) : WithTop ℤ :=
  if mintsCent database request then 1 else 0

theorem minted_of_refusal {database : Database} {request : Attempt}
    (refused : Acceptance database request.call request.generated -> False) :
    minted database request = 0 := by
  rw [minted, mintsCent]
  cases outcome : callTransferMoney request.call request.generated database with
  | error problem => rfl
  | ok result =>
      rcases callTransferMoney_eq_ok_iff.mp outcome with ⟨accepted, _⟩
      exact False.elim (refused accepted)

/-- The two stores of a call, each up to an error. -/
def StoresWithin (error : ℚ) (amount : Decimal) : Prop :=
  forall held : ℤ, |(roundAway ((held : ℚ) - amount.inCents) : ℚ) - (held - amount.inCents)| ≤ error ∧
    |(roundAway ((held : ℚ) + amount.inCents) : ℚ) - (held + amount.inCents)| ≤ error

theorem storesWithin_half (amount : Decimal) : StoresWithin (1 / 2) amount := fun _ =>
  ⟨abs_roundAway_sub_le _, abs_roundAway_sub_le _⟩

/-- Whole cents are stored as they are. -/
theorem storesWithin_zero {amount : Decimal} {cents : ℤ} (whole : amount.inCents = cents) :
    StoresWithin 0 amount := by
  intro held
  rw [whole, ← Int.cast_sub, ← Int.cast_add, roundAway_intCast, roundAway_intCast, sub_self, sub_self,
    abs_zero]
  exact ⟨le_refl 0, le_refl 0⟩

namespace Acceptance

variable {database : Database} {request : Attempt}
  (accepted : Acceptance database request.call request.generated)

theorem mintsCent_of_finite {amount : Decimal} (finite : accepted.amount = .finite amount) :
    mintsCent database request =
      (decide amount.IsHalfCent && !accepted.destination.balance.staysBelowZero amount) := by
  have success := callTransferMoney_eq_ok_iff.mpr ⟨accepted, rfl⟩
  have given : request.call.amount = some (.finite amount) := finite ▸ accepted.amountGiven
  rw [mintsCent, success, given, accepted.foundDestination]

theorem minted_of_exact
    (exact : forall amount, accepted.amount = .finite amount -> ¬ amount.IsHalfCent) :
    minted database request = 0 := by
  rcases accepted.amount_cases with special | ⟨amount, finite, _⟩
  · have given : request.call.amount = some .nan := special ▸ accepted.amountGiven
    rw [minted, mintsCent, given]
    split
    · next impossible _ => cases impossible
    · rfl
  · rw [minted, accepted.mintsCent_of_finite finite, decide_eq_false (exact amount finite)]
    rfl

/-- What the two updates do to the total. -/
theorem total_of_changes {taken brought : WithTop ℤ}
    (debit : accepted.debited.measure = accepted.source.balance.measure + taken)
    (credit : accepted.credited.measure =
      (afterDebit accepted.source accepted.destination accepted.debited).balance.measure + brought) :
    accepted.result.total = database.total + taken + brought := by
  rcases Database.setBalance_total accepted.sourceRow with ⟨others, before, debited⟩
  rcases Database.setBalance_total accepted.afterDebitRow with ⟨rest, between, credited⟩
  have first : (database.setBalance accepted.source.accountId accepted.debited).total =
      database.total + taken := by
    rw [debited, before, debit]
    ac_rfl
  rw [accepted.result_total, moved, credited, credit, ← first, between]
  ac_rfl

/-- The debit of half cents does not see the destination, unless it is the
source. -/
theorem staysBelowZero_afterDebit {amount : Decimal} (finite : accepted.amount = .finite amount) :
    (afterDebit accepted.source accepted.destination accepted.debited).balance.staysBelowZero amount =
      accepted.destination.balance.staysBelowZero amount := by
  by_cases same : accepted.destination.accountId = accepted.source.accountId
  · have sameRow : accepted.destination = accepted.source := by
      have row := accepted.destinationRow
      rw [same, accepted.sourceRow] at row
      exact (Option.some.inj row).symm
    rw [afterDebit, if_pos same, sameRow]
    cases number : accepted.source.balance with
    | nan =>
        rw [accepted.debited_of_source_nan number]
    | cents cents =>
        have positive := accepted.positive
        rw [finite, Numeric.zero_less_finite] at positive
        have above := inCents_pos positive
        have covered := accepted.covered_of_finite finite number
        rcases accepted.debited_nonneg finite number with ⟨debited, debitedIs, nonneg⟩
        have left : (0 : ℚ) ≤ debited.value := by exact_mod_cast nonneg
        rw [debitedIs]
        simp only [Money.staysBelowZero]
        rw [decide_eq_false (by linarith), decide_eq_false (by linarith)]
  · rw [afterDebit, if_neg same]

/-- The two updates for an odd number of half cents. -/
theorem total_of_isHalfCent {amount : Decimal} (finite : accepted.amount = .finite amount)
    (half : amount.IsHalfCent) :
    accepted.result.total = database.total +
      (if accepted.destination.balance.staysBelowZero amount then 0 else 1) := by
  have debit : accepted.debited.measure =
      accepted.source.balance.measure + ((-⌊amount.inCents⌋ : ℤ) : WithTop ℤ) := by
    cases number : accepted.source.balance with
    | nan =>
        rw [accepted.debited_of_source_nan number]
        rfl
    | cents cents =>
        rcases accepted.debited_of_isHalfCent finite half number with ⟨inRange, debited⟩
        rw [debited, Money.measure_cents, Money.measure_cents, ← WithTop.coe_add, ← sub_eq_add_neg]
  have credit : accepted.credited.measure =
      (afterDebit accepted.source accepted.destination accepted.debited).balance.measure +
        ((⌊amount.inCents⌋ : WithTop ℤ) +
          (if accepted.destination.balance.staysBelowZero amount then 0 else 1)) := by
    rw [← accepted.staysBelowZero_afterDebit finite]
    cases number : (afterDebit accepted.source accepted.destination accepted.debited).balance with
    | nan =>
        rw [accepted.credited_of_afterDebit_nan number]
        rfl
    | cents cents =>
        rcases accepted.credited_of_finite finite number with ⟨inRange, credited⟩
        rw [credited, Money.measure_cents, Money.measure_cents]
        by_cases below : (cents.value : ℚ) + amount.inCents < 0
        · have rounded := roundAway_intCast_add_of_isTie_of_neg half cents.value below
          simp only [Money.staysBelowZero, below, decide_true, if_true, rounded, add_zero]
          exact WithTop.coe_add _ _
        · have rounded := roundAway_intCast_add_of_isTie half cents.value (not_lt.mp below)
          simp only [Money.staysBelowZero, below, decide_false, Bool.false_eq_true, if_false, rounded]
          push_cast
          exact add_assoc _ _ _
  rw [accepted.total_of_changes debit credit, add_assoc database.total, ← add_assoc _ _ (ite _ _ _)]
  have cancels : ((-⌊amount.inCents⌋ : ℤ) : WithTop ℤ) + (⌊amount.inCents⌋ : WithTop ℤ) = 0 := by
    rw [← WithTop.coe_add, neg_add_cancel]
    rfl
  rw [cancels, zero_add]

/-- An accepted call changes the total by what it mints. -/
theorem total_result : accepted.result.total = database.total + minted database request := by
  by_cases apart : Exists fun amount => accepted.amount = .finite amount ∧ amount.IsHalfCent
  · rcases apart with ⟨amount, finite, half⟩
    rw [accepted.total_of_isHalfCent finite half, minted, accepted.mintsCent_of_finite finite,
      decide_eq_true half]
    cases accepted.destination.balance.staysBelowZero amount with
    | true => rfl
    | false => rfl
  · have exact : forall amount, accepted.amount = .finite amount -> ¬ amount.IsHalfCent :=
      fun amount finite half => apart ⟨amount, finite, half⟩
    rw [accepted.minted_of_exact exact, add_zero]
    exact accepted.total_of_agreement
      (accepted.debit_agrees fun amount finite half => absurd half (exact amount finite))
      (accepted.credit_agrees fun amount _ finite half => absurd half (exact amount finite))

end Acceptance

/-! ## The total under any mix of statements -/

section Sessions

variable {Session : Type}

/-- The cents that an event makes. -/
def Event.minted (bank : Bank Session) : Event Session -> WithTop ℤ
  | .statement _ _ _ => 0
  | .transferMoney _ request interrupted =>
      if interrupted then 0 else CoreBank.minted bank.database request
  | .endTransaction _ => 0

/-- The invariant of the runs: the total is the opening total with the inserted
balances and the cents made so far. -/
structure Bank.Accounts (opening made : WithTop ℤ) (bank : Bank Session) : Prop where
  withoutPermission : forall session, bank.settings session ≠ some "on"
  total : bank.database.total = opening + balances bank.inserted + made

variable {opening made : WithTop ℤ} {bank : Bank Session}

/-- A statement keeps the invariant of the runs without transfers, in which the
cents made before count as opening ones. -/
theorem Bank.Accounts.conserves (accounts : bank.Accounts opening made) :
    bank.Conserves (opening + made) where
  withoutPermission := accounts.withoutPermission
  total := accounts.total.trans (add_right_comm _ _ _)

theorem Bank.Conserves.accounts (conserves : bank.Conserves (opening + made)) :
    bank.Accounts opening made where
  withoutPermission := conserves.withoutPermission
  total := conserves.total.trans (add_right_comm _ _ _)

variable [DecidableEq Session]

theorem Bank.Accounts.transferMoney (accounts : bank.Accounts opening made) (session : Session)
    (request : Attempt) :
    (bank.transferMoney session request).Accounts opening
      (made + CoreBank.minted bank.database request) := by
  unfold Bank.transferMoney
  cases executed : CoreBank.transferMoney request.call request.generated
      ⟨bank.database, bank.settings session⟩ with
  | error problem =>
      have refused : Acceptance bank.database request.call request.generated -> False := by
        intro accepted
        have success : CoreBank.transferMoney request.call request.generated
            ⟨bank.database, bank.settings session⟩ = .ok ((), _) :=
          transferMoney_iff_acceptance.mpr ⟨accepted, rfl⟩
        cases executed.symm.trans success
      rw [minted_of_refusal refused, add_zero]
      exact accounts
  | ok outcome =>
      rcases outcome with ⟨nothing, after⟩
      rcases transferMoney_iff_acceptance.mp executed with ⟨accepted, rfl⟩
      constructor
      · exact withoutPermission_update accounts.withoutPermission off_ne_on
      · rw [← add_assoc, ← accounts.total]
        exact accepted.total_result

theorem Bank.Accounts.step {outside : Session -> Option String}
    (unassigned : forall session, outside session ≠ some "on")
    (accounts : bank.Accounts opening made) (event : Event Session) :
    (bank.step outside event).Accounts opening (made + event.minted bank) := by
  cases event with
  | statement session statement interrupted =>
      rw [Event.minted, add_zero]
      cases interrupted with
      | true => exact accounts
      | false => exact (bank.execute_conserves accounts.conserves session statement).accounts
  | transferMoney session request interrupted =>
      cases interrupted with
      | true =>
          rw [Event.minted, if_pos rfl, add_zero]
          exact accounts
      | false => exact accounts.transferMoney session request
  | endTransaction session =>
      rw [Event.minted, add_zero]
      exact ⟨withoutPermission_update accounts.withoutPermission (unassigned session), accounts.total⟩

/-- In every run of sessions that never assign the permission, whatever the
amounts, the total of all balances is the opening total with the balances
stored by insertions and one cent for each call that mints one. -/
theorem total_of_every_event (outside : Session -> Option String)
    (unassigned : forall session, outside session ≠ some "on") (opening : Database)
    (events : List (Event Session)) :
    (run (Bank.step outside) ⟨opening, outside, []⟩ events).database.total =
      opening.total + balances (run (Bank.step outside) ⟨opening, outside, []⟩ events).inserted +
        gathered (Bank.step outside) (fun bank event => event.minted bank) ⟨opening, outside, []⟩
          events := by
  have initially : Bank.Accounts opening.total 0 ⟨opening, outside, []⟩ :=
    ⟨unassigned, by rw [add_zero]; exact (add_zero _).symm⟩
  have kept := invariant_gathered (Bank.Accounts opening.total)
    (fun _ _ event accounts => accounts.step unassigned event) initially events
  rw [zero_add] at kept
  exact kept.total

end Sessions

/-- The half cent arrives as a cent, and the session that opens an account of
five dollars stores five dollars. -/
def openAndRound : List (Event Bool) :=
  [.statement true (.insertAccounts [⟨some 3, some 1, some "savings", some (.finite ⟨500, 2⟩), some "USD"⟩])
      false,
    .transferMoney false halfCent false]

theorem total_of_every_event_openAndRound :
    (run (Bank.step fun _ => none)
        ⟨twoAccounts (.cents ⟨100, by decide⟩) .zero, fun _ : Bool => none, []⟩
        openAndRound).database.total =
      ((601 : ℤ) : WithTop ℤ) := by
  have accounted := total_of_every_event (fun _ : Bool => none) (fun _ => by decide)
    (twoAccounts (.cents ⟨100, by decide⟩) .zero) openAndRound
  rw [accounted]
  decide +kernel

/-! ## Single balances -/

/-- The number of cents on an account that holds a number. -/
def centsOf (id : ℤ) (database : Database) : ℚ :=
  match database.balance? id with
  | some (.cents held) => held.value
  | _ => 0

/-- The amount of a call in cents, if it is a finite number. -/
def Attempt.inCents (request : Attempt) : ℚ :=
  match request.call.amount with
  | some (.finite amount) => amount.inCents
  | _ => 0

def isAccepted (database : Database) (request : Attempt) : Bool :=
  (callTransferMoney request.call request.generated database).isOk

/-- What an accepted call brings to an account and takes from it, exactly. -/
def exactGain (id : ℤ) (database : Database) (request : Attempt) : ℚ :=
  if isAccepted database request then
    (if request.call.toAccount = some id then request.inCents else 0) -
      (if request.call.fromAccount = some id then request.inCents else 0)
  else 0

/-- Half a cent for each time that an accepted call writes the balance. -/
def uncertainty (id : ℤ) (database : Database) (request : Attempt) : ℚ :=
  if isAccepted database request then
    (if request.call.toAccount = some id then 1 / 2 else 0) +
      (if request.call.fromAccount = some id then 1 / 2 else 0)
  else 0

theorem centsOf_of_balance? {id : ℤ} {database : Database} {cents : Cents}
    (present : database.balance? id = some (.cents cents)) : centsOf id database = cents.value := by
  rw [centsOf, present]

theorem isAccepted_of_acceptance {database : Database} {request : Attempt}
    (accepted : Acceptance database request.call request.generated) :
    isAccepted database request = true := by
  rw [isAccepted, callTransferMoney_eq_ok_iff.mpr ⟨accepted, rfl⟩]
  rfl

/-- A call is accepted, or leaves the tables. -/
theorem attempt_isAccepted (database : Database) (request : Attempt) :
    (isAccepted database request = false ∧ attempt database request = database) ∨
      Exists fun accepted : Acceptance database request.call request.generated =>
        attempt database request = accepted.result := by
  unfold isAccepted attempt
  cases outcome : callTransferMoney request.call request.generated database with
  | error problem => exact Or.inl ⟨rfl, rfl⟩
  | ok result =>
      rcases callTransferMoney_eq_ok_iff.mp outcome with ⟨accepted, same⟩
      exact Or.inr ⟨accepted, same⟩

namespace Acceptance

variable {database : Database} {request : Attempt}
  (accepted : Acceptance database request.call request.generated)

theorem toAccount_iff (id : ℤ) :
    request.call.toAccount = some id ↔ id = accepted.destination.accountId := by
  rw [accepted.toAccount, Option.some.injEq, eq_comm]

theorem fromAccount_iff (id : ℤ) :
    request.call.fromAccount = some id ↔ id = accepted.source.accountId := by
  rw [accepted.fromAccount, Option.some.injEq, eq_comm]

/-- From a number the source is left with a number near the exact one. -/
theorem debited_near {amount : Decimal} (finite : accepted.amount = .finite amount) {error : ℚ}
    (stores : StoresWithin error amount) {cents : Cents}
    (number : accepted.source.balance = .cents cents) :
    Exists fun debited : Cents => accepted.debited = .cents debited ∧
      |(debited.value : ℚ) - (cents.value - amount.inCents)| ≤ error := by
  rcases accepted.debited_of_finite finite number with ⟨inRange, debited⟩
  exact ⟨_, debited, (stores cents.value).1⟩

theorem credited_near {amount : Decimal} (finite : accepted.amount = .finite amount) {error : ℚ}
    (stores : StoresWithin error amount) {cents : Cents}
    (number : (afterDebit accepted.source accepted.destination accepted.debited).balance =
      .cents cents) :
    Exists fun credited : Cents => accepted.credited = .cents credited ∧
      |(credited.value : ℚ) - (cents.value + amount.inCents)| ≤ error := by
  rcases accepted.credited_of_finite finite number with ⟨inRange, credited⟩
  exact ⟨_, credited, (stores cents.value).2⟩

/-- Every account after the call, compared with the exact amounts. -/
theorem result_within (ordinary : Ordinary database) {amount : Decimal}
    (finite : accepted.amount = .finite amount) {error : ℚ} (stores : StoresWithin error amount)
    (id : ℤ) :
    |centsOf id accepted.result - (centsOf id database + exactGain id database request)| ≤
      (if request.call.toAccount = some id then error else 0) +
        (if request.call.fromAccount = some id then error else 0) := by
  rcases ordinary _ _ accepted.source_balance? with ⟨sourceCents, sourceNumber⟩
  rcases ordinary _ _ accepted.destination_balance? with ⟨destinationCents, destinationNumber⟩
  have inCents : request.inCents = amount.inCents := by
    rw [Attempt.inCents, accepted.amountGiven, finite]
  have sourceBalance : centsOf accepted.source.accountId database = sourceCents.value :=
    centsOf_of_balance? (sourceNumber ▸ accepted.source_balance?)
  have destinationBalance : centsOf accepted.destination.accountId database = destinationCents.value :=
    centsOf_of_balance? (destinationNumber ▸ accepted.destination_balance?)
  rcases accepted.debited_near finite stores sourceNumber with ⟨debited, debitedIs, debitNear⟩
  have balances := accepted.result_balance? id
  simp only [exactGain, isAccepted_of_acceptance accepted, if_true, accepted.toAccount_iff,
    accepted.fromAccount_iff, inCents]
  by_cases atDestination : id = accepted.destination.accountId
  · rw [if_pos atDestination] at balances
    by_cases same : accepted.destination.accountId = accepted.source.accountId
    · have stays : (afterDebit accepted.source accepted.destination accepted.debited).balance =
          .cents debited := by
        rw [afterDebit, if_pos same]
        exact debitedIs
      rcases accepted.credited_near finite stores stays with ⟨credited, creditedIs, creditNear⟩
      rw [creditedIs] at balances
      rw [centsOf_of_balance? balances]
      subst atDestination
      rw [if_pos rfl, if_pos rfl, if_pos same, if_pos same, same, sourceBalance]
      rw [abs_le] at debitNear creditNear ⊢
      constructor <;> linarith
    · have stays : (afterDebit accepted.source accepted.destination accepted.debited).balance =
          .cents destinationCents := by
        rw [afterDebit, if_neg same]
        exact destinationNumber
      rcases accepted.credited_near finite stores stays with ⟨credited, creditedIs, creditNear⟩
      rw [creditedIs] at balances
      rw [centsOf_of_balance? balances]
      subst atDestination
      rw [if_pos rfl, if_pos rfl, if_neg same, if_neg same, destinationBalance, sub_zero, add_zero]
      exact creditNear
  · rw [if_neg atDestination] at balances
    rw [if_neg atDestination, if_neg atDestination]
    by_cases atSource : id = accepted.source.accountId
    · rw [if_pos atSource, debitedIs] at balances
      rw [centsOf_of_balance? balances]
      subst atSource
      rw [if_pos rfl, if_pos rfl, sourceBalance, zero_add, zero_sub, ← sub_eq_add_neg]
      exact debitNear
    · rw [if_neg atSource] at balances
      rw [if_neg atSource, if_neg atSource]
      have same : centsOf id accepted.result = centsOf id database := by
        rw [centsOf, balances, centsOf]
      rw [same, sub_self, add_zero, sub_self, abs_zero, add_zero]

/-- From ordinary balances the amount of an accepted call is a number. -/
theorem exists_finite (ordinary : Ordinary database) :
    Exists fun amount => accepted.amount = .finite amount := by
  rcases ordinary _ _ accepted.source_balance? with ⟨sourceCents, sourceNumber⟩
  rcases accepted.amount_cases with special | ⟨amount, finite, _⟩
  · cases sourceNumber.symm.trans (accepted.source_of_nan special)
  · exact ⟨amount, finite⟩

theorem result_near (ordinary : Ordinary database) (id : ℤ) :
    |centsOf id accepted.result - (centsOf id database + exactGain id database request)| ≤
      uncertainty id database request := by
  rcases accepted.exists_finite ordinary with ⟨amount, finite⟩
  have within := accepted.result_within ordinary finite (storesWithin_half amount) id
  rw [uncertainty, isAccepted_of_acceptance accepted]
  exact within

end Acceptance

theorem attempt_near {database : Database} (ordinary : Ordinary database) (request : Attempt) (id : ℤ) :
    |centsOf id (attempt database request) - (centsOf id database + exactGain id database request)| ≤
      uncertainty id database request := by
  rcases attempt_isAccepted database request with ⟨refused, unchanged⟩ | ⟨accepted, same⟩
  · have still : centsOf id database - (centsOf id database + 0) = 0 := by ring
    simp only [exactGain, uncertainty, refused, Bool.false_eq_true, if_false]
    rw [unchanged, still, abs_zero]
  · rw [same]
    exact accepted.result_near ordinary id

/-- In every run from ordinary balances, every balance stays as close to the
opening balance with the exact amounts of the accepted calls as half a cent for
each time it is written. -/
theorem balance_near_of_run (opening : Database) (ordinary : Ordinary opening)
    (requests : List Attempt) (id : ℤ) :
    |centsOf id (run attempt opening requests) -
        (centsOf id opening + gathered attempt (exactGain id) opening requests)| ≤
      gathered attempt (uncertainty id) opening requests :=
  abs_measure_run_sub_le (fun _ request holds => attempt_near holds request id)
    (Along.of_invariant Ordinary (fun _ request holds => ordinary_attempt holds request) ordinary
      requests)

/-- Half a cent, transferred twice. -/
def halfCentTwice : List Attempt :=
  [halfCent, { halfCent with generated := ⟨some 2, none⟩ }]

/-- The destination is a cent away, at most, from the one cent that it should
have: it is written twice. -/
theorem balance_near_of_run_halfCentTwice :
    |centsOf 2 (run attempt (twoAccounts (.cents ⟨100, by decide⟩) (.cents ⟨0, by decide⟩))
        halfCentTwice) - 1| ≤ 1 := by
  have near := balance_near_of_run _ (ordinary_twoAccounts ⟨100, by decide⟩ ⟨0, by decide⟩)
    halfCentTwice 2
  have exact : centsOf 2 (twoAccounts (.cents ⟨100, by decide⟩) (.cents ⟨0, by decide⟩)) +
      gathered attempt (exactGain 2)
        (twoAccounts (.cents ⟨100, by decide⟩) (.cents ⟨0, by decide⟩)) halfCentTwice = 1 := by
    decide +kernel
  have bound : gathered attempt (uncertainty 2)
      (twoAccounts (.cents ⟨100, by decide⟩) (.cents ⟨0, by decide⟩)) halfCentTwice = 1 := by
    decide +kernel
  rw [exact, bound] at near
  exact near

end CoreBank
