import CoreBank.Database.TransferMoney
import CoreBank.Foundation.Runs

namespace CoreBank

open Foundation

/-!
# Agreement of the ledger with the balances

The debit, the credit and the ledger row of one transfer are rounded by three
separate stores.  Off the half cents the three agree with one rounding of the
amount, so that every balance is its opening value plus what the new ledger
rows bring and less what they take.  On an odd number of half cents a debit
keeps the half that the ledger row takes, and the two come apart.

Amounts are compared in cents, where `NaN` is absorbing on both sides.
-/

/-- The tables after a call, which an error leaves as they were. -/
def attempt (database : Database) (request : Attempt) : Database :=
  match callTransferMoney request.call request.generated database with
  | .ok result => result
  | .error _ => database

theorem attempt_cases (database : Database) (request : Attempt) :
    attempt database request = database ∨
      Exists fun accepted : Acceptance database request.call request.generated =>
        attempt database request = accepted.result := by
  unfold attempt
  cases outcome : callTransferMoney request.call request.generated database with
  | error problem => exact Or.inl rfl
  | ok result =>
      rcases callTransferMoney_eq_ok_iff.mp outcome with ⟨accepted, same⟩
      exact Or.inr ⟨accepted, same⟩

theorem attempt_of_acceptance {database : Database} {request : Attempt}
    (accepted : Acceptance database request.call request.generated) :
    attempt database request = accepted.result := by
  unfold attempt
  rw [callTransferMoney_eq_ok_iff.mpr ⟨accepted, rfl⟩]

/-- What the rows bring to an account. -/
def incoming (id : ℤ) (rows : List Transaction) : WithTop ℤ :=
  (rows.map fun row => if row.toAccount = some id then row.amount.money.measure else 0).sum

/-- What the rows take from an account, with the sign turned. -/
def outgoing (id : ℤ) (rows : List Transaction) : WithTop ℤ :=
  (rows.map fun row => if row.fromAccount = some id then row.amount.money.outflow else 0).sum

theorem incoming_append (id : ℤ) (first second : List Transaction) :
    incoming id (first ++ second) = incoming id first + incoming id second := by
  rw [incoming, List.map_append, List.sum_append, incoming, incoming]

theorem outgoing_append (id : ℤ) (first second : List Transaction) :
    outgoing id (first ++ second) = outgoing id first + outgoing id second := by
  rw [outgoing, List.map_append, List.sum_append, outgoing, outgoing]

/-- The later balances are the earlier ones moved by exactly the rows added
between the two, and the total is the same. -/
structure LedgerAgrees (before after : Database) : Prop where
  rows : Exists fun added => after.transactions = before.transactions ++ added ∧
    forall id, (after.balance? id).map Money.measure =
      (before.balance? id).map fun balance =>
        balance.measure + incoming id added + outgoing id added
  total : after.total = before.total

theorem LedgerAgrees.refl (database : Database) : LedgerAgrees database database where
  rows := by
    refine ⟨[], (List.append_nil _).symm, fun id => ?_⟩
    simp only [incoming, outgoing, List.map_nil, List.sum_nil, add_zero]
  total := rfl

theorem LedgerAgrees.trans {first second third : Database} (earlier : LedgerAgrees first second)
    (later : LedgerAgrees second third) : LedgerAgrees first third where
  rows := by
    rcases earlier.rows with ⟨added, appended, balances⟩
    rcases later.rows with ⟨more, appendedMore, balancesMore⟩
    refine ⟨added ++ more, by rw [appendedMore, appended, List.append_assoc], fun id => ?_⟩
    have early := balances id
    have late := balancesMore id
    cases opening : first.balance? id with
    | none =>
        rw [opening] at early
        rw [Option.map_eq_none_iff.mp early] at late
        exact late
    | some balance =>
        rw [opening, Option.map_some] at early
        rcases Option.map_eq_some_iff.mp early with ⟨middle, present, same⟩
        rw [present, Option.map_some, same] at late
        rw [late, Option.map_some, incoming_append, outgoing_append]
        refine congrArg some ?_
        ac_rfl
  total := later.total.trans earlier.total

/-! ## The three stores of one call -/

namespace Acceptance

variable {database : Database} {call : TransferCall} {generated : Generated}

/-- An infinite amount is never stored, and a negative one never accepted. -/
theorem amount_cases (accepted : Acceptance database call generated) :
    accepted.amount = .nan ∨
      Exists fun decimal => accepted.amount = .finite decimal ∧ 0 < decimal.value := by
  have records := accepted.records
  have positive := accepted.positive
  cases given : accepted.amount with
  | nan => exact Or.inl rfl
  | negInfinity =>
      rw [given] at records
      cases records
  | finite decimal =>
      rw [given, Numeric.zero_less_finite] at positive
      exact Or.inr ⟨decimal, rfl, positive⟩
  | posInfinity =>
      rw [given] at records
      cases records

/-- `NaN` is accepted only from a balance that is `NaN` itself. -/
theorem source_of_nan (accepted : Acceptance database call generated)
    (special : accepted.amount = .nan) : accepted.source.balance = .nan := by
  have covered := accepted.covered
  rw [special] at covered
  cases balance : accepted.source.balance with
  | nan => rfl
  | cents amount =>
      rw [balance] at covered
      cases covered

theorem recorded_of_nan (accepted : Acceptance database call generated)
    (special : accepted.amount = .nan) : accepted.recorded.money = .nan := by
  have records := accepted.records
  rw [special] at records
  exact (Option.some.inj records).symm

theorem credited_of_nan (accepted : Acceptance database call generated)
    (special : accepted.amount = .nan) : accepted.credited = .nan := by
  have credits := accepted.credits
  have sum : forall balance : Numeric, balance.add .nan = .nan := by
    intro balance
    cases balance <;> rfl
  rw [special, sum] at credits
  exact (Option.some.inj credits).symm

theorem debited_of_source_nan (accepted : Acceptance database call generated)
    (special : accepted.source.balance = .nan) : accepted.debited = .nan := by
  have debits := accepted.debits
  have difference : forall amount : Numeric, Numeric.nan.sub amount = .nan := by
    intro amount
    cases amount <;> rfl
  rw [special, Money.toNumeric, difference] at debits
  exact (Option.some.inj debits).symm

/-- A finite amount is recorded rounded to cents. -/
theorem recorded_of_finite (accepted : Acceptance database call generated) {decimal : Decimal}
    (finite : accepted.amount = .finite decimal) :
    Exists fun inRange => accepted.recorded.money = .cents ⟨roundAway decimal.inCents, inRange⟩ := by
  have records := accepted.records
  rw [finite] at records
  exact Money.store_finite_eq_some records

/-- A number of cents at the source covers a finite amount. -/
theorem covered_of_finite (accepted : Acceptance database call generated) {decimal : Decimal}
    (finite : accepted.amount = .finite decimal) {cents : Cents}
    (number : accepted.source.balance = .cents cents) : decimal.inCents ≤ cents.value := by
  have covered := accepted.covered
  rw [finite, number, Money.toNumeric, Bool.eq_false_iff, Ne, Numeric.less_finite,
    Decimal.value_cents, not_lt] at covered
  rw [Decimal.inCents]
  linarith

theorem debited_of_finite (accepted : Acceptance database call generated) {decimal : Decimal}
    (finite : accepted.amount = .finite decimal) {cents : Cents}
    (number : accepted.source.balance = .cents cents) :
    Exists fun inRange =>
      accepted.debited = .cents ⟨roundAway ((cents.value : ℚ) - decimal.inCents), inRange⟩ := by
  have debits := accepted.debits
  rw [finite, number, Money.store_sub] at debits
  split_ifs at debits with inRange
  exact ⟨inRange, (Option.some.inj debits).symm⟩

theorem credited_of_finite (accepted : Acceptance database call generated) {decimal : Decimal}
    (finite : accepted.amount = .finite decimal) {cents : Cents}
    (number : (afterDebit accepted.source accepted.destination accepted.debited).balance =
      .cents cents) :
    Exists fun inRange =>
      accepted.credited = .cents ⟨roundAway ((cents.value : ℚ) + decimal.inCents), inRange⟩ := by
  have credits := accepted.credits
  rw [finite, number, Money.store_add] at credits
  split_ifs at credits with inRange
  exact ⟨inRange, (Option.some.inj credits).symm⟩

theorem credited_of_afterDebit_nan (accepted : Acceptance database call generated)
    (special : (afterDebit accepted.source accepted.destination accepted.debited).balance = .nan) :
    accepted.credited = .nan := by
  have credits := accepted.credits
  have sum : forall amount : Numeric, Numeric.nan.add amount = .nan := by
    intro amount
    cases amount <;> rfl
  rw [special, Money.toNumeric, sum] at credits
  exact (Option.some.inj credits).symm

theorem inCents_pos {decimal : Decimal} (positive : 0 < decimal.value) : 0 < decimal.inCents := by
  rw [Decimal.inCents]
  linarith

/-- Off the half cents the debit takes what the ledger records. -/
theorem debit_agrees (accepted : Acceptance database call generated)
    (exact : forall decimal, accepted.amount = .finite decimal -> decimal.IsHalfCent ->
      accepted.source.balance = .nan) :
    accepted.debited.measure =
      accepted.source.balance.measure + accepted.recorded.money.outflow := by
  cases number : accepted.source.balance with
  | nan =>
      rw [accepted.debited_of_source_nan number]
      rfl
  | cents cents =>
      rcases accepted.amount_cases with special | ⟨decimal, finite, _⟩
      · rw [accepted.source_of_nan special] at number
        cases number
      · have untied : ¬ IsTie decimal.inCents := by
          intro tie
          have special := exact decimal finite tie
          rw [number] at special
          cases special
        rcases accepted.debited_of_finite finite number with ⟨debitRange, debited⟩
        rcases accepted.recorded_of_finite finite with ⟨recordRange, recorded⟩
        rw [debited, recorded, Money.measure_cents, Money.measure_cents, Money.outflow_cents,
          ← WithTop.coe_add]
        have rounded := roundAway_intCast_sub untied cents.value
        simp only [rounded]
        rw [sub_eq_add_neg]

/-- Off the half cents, and above them, the credit brings what the ledger
records. -/
theorem credit_agrees (accepted : Acceptance database call generated)
    (exact : forall decimal cents, accepted.amount = .finite decimal -> decimal.IsHalfCent ->
      (afterDebit accepted.source accepted.destination accepted.debited).balance = .cents cents ->
      0 ≤ (cents.value : ℚ) + decimal.inCents) :
    accepted.credited.measure =
      (afterDebit accepted.source accepted.destination accepted.debited).balance.measure +
        accepted.recorded.money.measure := by
  rcases accepted.amount_cases with special | ⟨decimal, finite, _⟩
  · rw [accepted.credited_of_nan special, accepted.recorded_of_nan special, Money.measure_nan,
      add_top]
  · cases number : (afterDebit accepted.source accepted.destination accepted.debited).balance with
    | nan =>
        rw [accepted.credited_of_afterDebit_nan number]
        rfl
    | cents cents =>
        rcases accepted.credited_of_finite finite number with ⟨creditRange, credited⟩
        rcases accepted.recorded_of_finite finite with ⟨recordRange, recorded⟩
        rw [credited, recorded, Money.measure_cents, Money.measure_cents, Money.measure_cents,
          ← WithTop.coe_add]
        by_cases tie : IsTie decimal.inCents
        · have rounded := roundAway_intCast_add_of_isTie tie cents.value
            (exact decimal cents finite tie number)
          have alone := roundAway_intCast_add_of_isTie tie 0
            (by rw [Int.cast_zero, zero_add]; exact (inCents_pos ‹0 < decimal.value›).le)
          rw [Int.cast_zero, zero_add, zero_add] at alone
          simp only [rounded, alone, add_assoc]
        · simp only [roundAway_intCast_add tie]

end Acceptance

/-- The calls whose three stores do not agree: an accepted amount of an odd
number of half cents, taken from a balance that is a number or brought to one
that stays below zero. -/
def RoundsApart (database : Database) (request : Attempt) : Prop :=
  Exists fun accepted : Acceptance database request.call request.generated =>
    Exists fun decimal => accepted.amount = .finite decimal ∧ decimal.IsHalfCent ∧
      (accepted.source.balance ≠ .nan ∨
        accepted.destination.accountId ≠ accepted.source.accountId ∧
        Exists fun cents => accepted.destination.balance = .cents cents ∧
          (cents.value : ℚ) + decimal.inCents < 0)

namespace Acceptance

variable {database : Database} {call : TransferCall} {generated : Generated}

/-- Every account after the call. -/
theorem result_balance? (accepted : Acceptance database call generated) (id : ℤ) :
    accepted.result.balance? id =
      if id = accepted.destination.accountId then some accepted.credited
      else if id = accepted.source.accountId then some accepted.debited
      else database.balance? id := by
  have destinationRow := accepted.destinationRow
  have sourceRow := accepted.sourceRow
  unfold Database.balance?
  rw [accepted.result_account?, moved, Database.setBalance_account?]
  by_cases atDestination : id = accepted.destination.accountId
  · subst atDestination
    rw [if_pos rfl, if_pos rfl, Database.setBalance_account?]
    by_cases same : accepted.destination.accountId = accepted.source.accountId
    · rw [if_pos same, sourceRow]
      rfl
    · rw [if_neg same, destinationRow]
      rfl
  · rw [if_neg atDestination, if_neg atDestination, Database.setBalance_account?]
    by_cases atSource : id = accepted.source.accountId
    · subst atSource
      rw [if_pos rfl, if_pos rfl, sourceRow]
      rfl
    · rw [if_neg atSource, if_neg atSource]

theorem incoming_row (accepted : Acceptance database call generated) (id : ℤ) :
    incoming id [accepted.row] =
      if id = accepted.destination.accountId then accepted.recorded.money.measure else 0 := by
  have named : accepted.row.toAccount = some accepted.destination.accountId := accepted.toAccount
  rw [incoming, List.map_singleton, List.sum_singleton, named]
  by_cases same : id = accepted.destination.accountId
  · rw [if_pos (congrArg some same.symm), if_pos same]
    rfl
  · rw [if_neg fun equal => same (Option.some.inj equal).symm, if_neg same]

theorem outgoing_row (accepted : Acceptance database call generated) (id : ℤ) :
    outgoing id [accepted.row] =
      if id = accepted.source.accountId then accepted.recorded.money.outflow else 0 := by
  have named : accepted.row.fromAccount = some accepted.source.accountId := accepted.fromAccount
  rw [outgoing, List.map_singleton, List.sum_singleton, named]
  by_cases same : id = accepted.source.accountId
  · rw [if_pos (congrArg some same.symm), if_pos same]
    rfl
  · rw [if_neg fun equal => same (Option.some.inj equal).symm, if_neg same]

/-- The balance of an account named by the call, before the call. -/
theorem source_balance? (accepted : Acceptance database call generated) :
    database.balance? accepted.source.accountId = some accepted.source.balance := by
  rw [Database.balance?, accepted.sourceRow, Option.map_some]

theorem destination_balance? (accepted : Acceptance database call generated) :
    database.balance? accepted.destination.accountId = some accepted.destination.balance := by
  rw [Database.balance?, accepted.destinationRow, Option.map_some]

/-- Storing the debit changes the total by what the debit stores. -/
theorem debited_total (accepted : Acceptance database call generated)
    (debit : accepted.debited.measure =
      accepted.source.balance.measure + accepted.recorded.money.outflow) :
    (database.setBalance accepted.source.accountId accepted.debited).total =
      database.total + accepted.recorded.money.outflow := by
  rcases Database.setBalance_total accepted.sourceRow with ⟨others, before, after⟩
  rw [after, before, debit]
  ac_rfl

theorem afterDebitRow (accepted : Acceptance database call generated) :
    (database.setBalance accepted.source.accountId accepted.debited).account?
        accepted.destination.accountId =
      some (afterDebit accepted.source accepted.destination accepted.debited) := by
  have found := select_afterDebit accepted.foundSource accepted.foundDestination accepted.debited
  rw [accepted.toAccount] at found
  exact found

theorem moved_total (accepted : Acceptance database call generated)
    (debit : accepted.debited.measure =
      accepted.source.balance.measure + accepted.recorded.money.outflow)
    (credit : accepted.credited.measure =
      (afterDebit accepted.source accepted.destination accepted.debited).balance.measure +
        accepted.recorded.money.measure) :
    accepted.result.total =
      database.total + accepted.recorded.money.outflow + accepted.recorded.money.measure := by
  rcases Database.setBalance_total accepted.afterDebitRow with ⟨others, before, after⟩
  rw [accepted.result_total, moved, after, credit, ← accepted.debited_total debit, before]
  ac_rfl

/-- What leaves the source arrives at the destination; a `NaN` amount comes
from a total that is `NaN` already. -/
theorem total_of_agreement (accepted : Acceptance database call generated)
    (debit : accepted.debited.measure =
      accepted.source.balance.measure + accepted.recorded.money.outflow)
    (credit : accepted.credited.measure =
      (afterDebit accepted.source accepted.destination accepted.debited).balance.measure +
        accepted.recorded.money.measure) : accepted.result.total = database.total := by
  rw [accepted.moved_total debit credit]
  rcases accepted.amount_cases with special | ⟨decimal, finite, _⟩
  · rcases Database.setBalance_total accepted.sourceRow with ⟨others, before, _⟩
    rw [before, accepted.source_of_nan special, Money.measure_nan, top_add, top_add, top_add]
  · rcases accepted.recorded_of_finite finite with ⟨inRange, recorded⟩
    rw [recorded, Money.outflow_cents, Money.measure_cents, add_assoc, ← WithTop.coe_add,
      neg_add_cancel, WithTop.coe_zero, add_zero]

theorem agrees_of_agreement (accepted : Acceptance database call generated)
    (debit : accepted.debited.measure =
      accepted.source.balance.measure + accepted.recorded.money.outflow)
    (credit : accepted.credited.measure =
      (afterDebit accepted.source accepted.destination accepted.debited).balance.measure +
        accepted.recorded.money.measure) : LedgerAgrees database accepted.result where
  rows := by
    refine ⟨[accepted.row], accepted.result_transactions, fun id => ?_⟩
    rw [accepted.result_balance?, accepted.incoming_row, accepted.outgoing_row]
    by_cases atDestination : id = accepted.destination.accountId
    · subst atDestination
      rw [if_pos rfl, if_pos rfl, accepted.destination_balance?, Option.map_some, Option.map_some,
        credit]
      by_cases same : accepted.destination.accountId = accepted.source.accountId
      · have sameRow : accepted.destination = accepted.source := by
          have row := accepted.destinationRow
          rw [same, accepted.sourceRow] at row
          exact (Option.some.inj row).symm
        rw [if_pos same, afterDebit, if_pos same, debit, sameRow]
        refine congrArg some ?_
        ac_rfl
      · rw [if_neg same, afterDebit, if_neg same, add_zero]
    · rw [if_neg atDestination, if_neg atDestination]
      by_cases atSource : id = accepted.source.accountId
      · subst atSource
        rw [if_pos rfl, if_pos rfl, accepted.source_balance?, Option.map_some, Option.map_some,
          debit, add_zero]
      · rw [if_neg atSource, if_neg atSource]
        cases database.balance? id with
        | none => rfl
        | some balance => rw [Option.map_some, Option.map_some, add_zero, add_zero]
  total := accepted.total_of_agreement debit credit

end Acceptance

/-- One call whose stores agree keeps the ledger and the balances together. -/
theorem ledgerAgrees_attempt (database : Database) (request : Attempt)
    (together : ¬ RoundsApart database request) :
    LedgerAgrees database (attempt database request) := by
  rcases attempt_cases database request with unchanged | ⟨accepted, same⟩
  · rw [unchanged]
    exact LedgerAgrees.refl database
  · rw [same]
    have debitExact : forall decimal, accepted.amount = .finite decimal -> decimal.IsHalfCent ->
        accepted.source.balance = .nan := by
      intro decimal finite half
      by_contra number
      exact together ⟨accepted, decimal, finite, half, Or.inl number⟩
    refine accepted.agrees_of_agreement (accepted.debit_agrees debitExact)
      (accepted.credit_agrees fun decimal cents finite half number => ?_)
    by_contra below
    have special := debitExact decimal finite half
    by_cases same : accepted.destination.accountId = accepted.source.accountId
    · rw [afterDebit, if_pos same, accepted.debited_of_source_nan special] at number
      cases number
    · rw [afterDebit, if_neg same] at number
      exact together ⟨accepted, decimal, finite, half,
        Or.inr ⟨same, cents, number, not_le.mp below⟩⟩

namespace Acceptance

variable {database : Database} {call : TransferCall} {generated : Generated}

theorem recorded_of_isHalfCent (accepted : Acceptance database call generated) {decimal : Decimal}
    (finite : accepted.amount = .finite decimal) (half : decimal.IsHalfCent) :
    Exists fun inRange => accepted.recorded.money = .cents ⟨⌊decimal.inCents⌋ + 1, inRange⟩ := by
  have positive := accepted.positive
  rw [finite, Numeric.zero_less_finite] at positive
  have alone := roundAway_intCast_add_of_isTie half 0
    (by rw [Int.cast_zero, zero_add]; exact (inCents_pos positive).le)
  rw [Int.cast_zero, zero_add, zero_add] at alone
  rcases accepted.recorded_of_finite finite with ⟨inRange, recorded⟩
  simp only [alone] at inRange recorded
  exact ⟨inRange, recorded⟩

/-- The debit of half cents gives the half back to the account. -/
theorem debited_of_isHalfCent (accepted : Acceptance database call generated) {decimal : Decimal}
    (finite : accepted.amount = .finite decimal) (half : decimal.IsHalfCent) {cents : Cents}
    (number : accepted.source.balance = .cents cents) :
    Exists fun inRange => accepted.debited = .cents ⟨cents.value - ⌊decimal.inCents⌋, inRange⟩ := by
  have covered := accepted.covered_of_finite finite number
  have rounded := roundAway_intCast_sub_of_isTie half cents.value (by linarith)
  rcases accepted.debited_of_finite finite number with ⟨inRange, debited⟩
  simp only [rounded] at inRange debited
  exact ⟨inRange, debited⟩

/-- The source pays half a cent less than the ledger says. -/
theorem not_agrees_of_source (accepted : Acceptance database call generated) {decimal : Decimal}
    (finite : accepted.amount = .finite decimal) (half : decimal.IsHalfCent) {cents : Cents}
    (number : accepted.source.balance = .cents cents) : ¬ LedgerAgrees database accepted.result := by
  intro agrees
  rcases agrees.rows with ⟨added, appended, balances⟩
  rw [accepted.result_transactions] at appended
  cases List.append_cancel_left appended
  have law := balances accepted.source.accountId
  have positive := accepted.positive
  rw [finite, Numeric.zero_less_finite] at positive
  rcases accepted.recorded_of_isHalfCent finite half with ⟨recordRange, recorded⟩
  rcases accepted.debited_of_isHalfCent finite half number with ⟨debitRange, debited⟩
  have taken := accepted.outgoing_row accepted.source.accountId
  rw [if_pos rfl] at taken
  rw [accepted.result_balance?, accepted.incoming_row, taken, accepted.source_balance?,
    Option.map_some, number, recorded, Money.outflow_cents, Money.measure_cents,
    Money.measure_cents] at law
  by_cases same : accepted.source.accountId = accepted.destination.accountId
  · have stays : (afterDebit accepted.source accepted.destination accepted.debited).balance =
        .cents ⟨cents.value - ⌊decimal.inCents⌋, debitRange⟩ := by
      rw [afterDebit, if_pos same.symm]
      exact debited
    have covered := accepted.covered_of_finite finite number
    have floor := Int.floor_le decimal.inCents
    have rounded := roundAway_intCast_add_of_isTie half (cents.value - ⌊decimal.inCents⌋) (by
      have above := inCents_pos positive
      push_cast
      linarith)
    rcases accepted.credited_of_finite finite stays with ⟨creditRange, credited⟩
    rw [if_pos same, if_pos same, Option.map_some, credited, Money.measure_cents,
      ← WithTop.coe_add, ← WithTop.coe_add] at law
    have equal := WithTop.coe_inj.mp (Option.some.inj law)
    simp only [rounded] at equal
    omega
  · rw [if_neg same, if_neg same, if_pos rfl, Option.map_some, debited, add_zero,
      Money.measure_cents, ← WithTop.coe_add] at law
    have equal := WithTop.coe_inj.mp (Option.some.inj law)
    dsimp only at equal
    omega

/-- A destination that stays below zero receives half a cent less. -/
theorem not_agrees_of_destination (accepted : Acceptance database call generated) {decimal : Decimal}
    (finite : accepted.amount = .finite decimal) (half : decimal.IsHalfCent)
    (different : accepted.destination.accountId ≠ accepted.source.accountId) {cents : Cents}
    (number : accepted.destination.balance = .cents cents)
    (below : (cents.value : ℚ) + decimal.inCents < 0) : ¬ LedgerAgrees database accepted.result := by
  intro agrees
  rcases agrees.rows with ⟨added, appended, balances⟩
  rw [accepted.result_transactions] at appended
  cases List.append_cancel_left appended
  have law := balances accepted.destination.accountId
  rcases accepted.recorded_of_isHalfCent finite half with ⟨recordRange, recorded⟩
  have stays : (afterDebit accepted.source accepted.destination accepted.debited).balance =
      .cents cents := by
    rw [afterDebit, if_neg different]
    exact number
  have rounded := roundAway_intCast_add_of_isTie_of_neg half cents.value below
  rcases accepted.credited_of_finite finite stays with ⟨creditRange, credited⟩
  rw [accepted.result_balance?, accepted.incoming_row, accepted.outgoing_row, if_pos rfl,
    if_pos rfl, if_neg different, accepted.destination_balance?, Option.map_some, Option.map_some,
    credited, recorded, number, add_zero, Money.measure_cents, Money.measure_cents,
    Money.measure_cents, ← WithTop.coe_add] at law
  have equal := WithTop.coe_inj.mp (Option.some.inj law)
  simp only [rounded] at equal
  omega

end Acceptance

/-- A call that rounds apart does break the agreement, at its source or at its
destination. -/
theorem not_ledgerAgrees_of_roundsApart {database : Database} {request : Attempt}
    (apart : RoundsApart database request) :
    ¬ LedgerAgrees database (attempt database request) := by
  rcases apart with ⟨accepted, decimal, finite, half, reason⟩
  rw [attempt_of_acceptance accepted]
  cases balance : accepted.source.balance with
  | cents cents => exact accepted.not_agrees_of_source finite half balance
  | nan =>
      rcases reason with number | ⟨different, cents, number, below⟩
      · exact False.elim (number balance)
      · exact accepted.not_agrees_of_destination finite half different number below

/-- The exact condition on one call. -/
theorem ledgerAgrees_attempt_iff (database : Database) (request : Attempt) :
    LedgerAgrees database (attempt database request) ↔ ¬ RoundsApart database request :=
  ⟨fun agrees apart => not_ledgerAgrees_of_roundsApart apart agrees,
    ledgerAgrees_attempt database request⟩

/-- Along every run none of whose calls rounds apart, every later balance is
an earlier one moved by the ledger rows added in between, and the total of all
balances never changes. -/
theorem ledgerAgrees_of_run (database : Database) (requests : List Attempt)
    (together : Along attempt (fun state request => ¬ RoundsApart state request) database requests)
    (executed remaining : List Attempt) (split : requests = executed ++ remaining) :
    LedgerAgrees database (run attempt database executed) := by
  subst split
  exact run_related LedgerAgrees.refl (fun _ _ _ => LedgerAgrees.trans) ledgerAgrees_attempt
    ((along_append database executed remaining).mp together).1

/-- An amount off the half cents never rounds apart. -/
theorem not_roundsApart {database : Database} {request : Attempt}
    (exact : forall decimal, request.call.amount = some (.finite decimal) -> ¬ decimal.IsHalfCent) :
    ¬ RoundsApart database request := by
  rintro ⟨accepted, decimal, finite, half, _⟩
  exact exact decimal (finite ▸ accepted.amountGiven) half

theorem ledgerAgrees_of_run_thirtyCents :
    LedgerAgrees (twoAccounts (.cents ⟨100, by decide⟩) .zero)
      (run attempt (twoAccounts (.cents ⟨100, by decide⟩) .zero) [thirtyCents]) := by
  refine ledgerAgrees_of_run _ [thirtyCents] ⟨not_roundsApart ?_, trivial⟩ [thirtyCents] [] rfl
  intro decimal given
  cases given
  decide +kernel

/-- A transfer of one half cent between two accounts of one dollar and of
nothing credits the cent that it does not debit. -/
def halfCent : Attempt where
  call := { fromAccount := some 1, toAccount := some 2, amount := some (.finite ⟨5, 3⟩) }
  generated := ⟨some 1, none⟩

theorem not_ledgerAgrees_of_every_run :
    ¬ forall (database : Database) (requests : List Attempt),
      LedgerAgrees database (run attempt database requests) := by
  intro always
  exact absurd (always (twoAccounts (.cents ⟨100, by decide⟩) .zero) [halfCent]).total
    (by decide +kernel)

end CoreBank
