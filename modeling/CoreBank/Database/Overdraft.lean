import CoreBank.Database.LedgerAgreement

namespace CoreBank

open Foundation

/-!
# No overdraft

A call that is accepted takes a positive amount from a balance that covers it,
so the rounded difference stays at or above zero, and it brings a positive
amount to the destination, which rounding can only leave or raise.  An account
below zero is therefore never debited.  `NaN` passes the first check, but no
balance that is a number covers it.
-/

namespace Money

/-- A number, not `NaN`. -/
def IsOrdinary (money : Money) : Prop :=
  Exists fun cents => money = .cents cents

/-- The magnitude bound of the column, in currency units. -/
theorem abs_lt_of_cents (cents : Cents) : |(cents.value : ℚ) / 100| < 10 ^ 12 := by
  have bound : |(cents.value : ℚ)| < 10 ^ 14 := by exact_mod_cast cents.inRange
  rw [abs_div, abs_of_pos (by norm_num : (0 : ℚ) < 100), div_lt_iff₀ (by norm_num)]
  linarith

end Money

/-- Every balance is a number. -/
def Ordinary (database : Database) : Prop :=
  forall id money, database.balance? id = some money -> money.IsOrdinary

/-- Every account that holds a number before still holds one: at or above zero
if it was, and otherwise not below its old value. -/
def Protects (before after : Database) : Prop :=
  forall id cents, before.balance? id = some (.cents cents) ->
    Exists fun later : Cents => after.balance? id = some (.cents later) ∧
      (0 ≤ cents.value -> 0 ≤ later.value) ∧ (cents.value < 0 -> cents.value ≤ later.value)

theorem Protects.refl (database : Database) : Protects database database :=
  fun _id cents present => ⟨cents, present, fun nonneg => nonneg, fun _ => le_refl _⟩

theorem Protects.trans (first second third : Database) (earlier : Protects first second)
    (later : Protects second third) : Protects first third := by
  intro id cents present
  rcases earlier id cents present with ⟨middle, presentMiddle, staysMiddle, risesMiddle⟩
  rcases later id middle presentMiddle with ⟨last, presentLast, staysLast, risesLast⟩
  refine ⟨last, presentLast, fun nonneg => staysLast (staysMiddle nonneg), fun negative => ?_⟩
  have risen := risesMiddle negative
  by_cases below : middle.value < 0
  · exact risen.trans (risesLast below)
  · have above := staysLast (not_lt.mp below)
    exact negative.le.trans above

namespace Acceptance

variable {database : Database} {call : TransferCall} {generated : Generated}

/-- From a number the debit stores a number at or above zero. -/
theorem debited_nonneg (accepted : Acceptance database call generated) {decimal : Decimal}
    (finite : accepted.amount = .finite decimal) {cents : Cents}
    (number : accepted.source.balance = .cents cents) :
    Exists fun debited : Cents => accepted.debited = .cents debited ∧ 0 ≤ debited.value := by
  have covered := accepted.covered_of_finite finite number
  rcases accepted.debited_of_finite finite number with ⟨inRange, debited⟩
  refine ⟨_, debited, intCast_le_roundAway (K := ℚ) ?_⟩
  push_cast
  linarith

/-- To a number the credit stores a number that is not smaller. -/
theorem credited_ge (accepted : Acceptance database call generated) {decimal : Decimal}
    (finite : accepted.amount = .finite decimal) {cents : Cents}
    (number : (afterDebit accepted.source accepted.destination accepted.debited).balance =
      .cents cents) :
    Exists fun credited : Cents => accepted.credited = .cents credited ∧
      cents.value ≤ credited.value := by
  have positive := accepted.positive
  rw [finite, Numeric.zero_less_finite] at positive
  have above := inCents_pos positive
  rcases accepted.credited_of_finite finite number with ⟨inRange, credited⟩
  refine ⟨_, credited, intCast_le_roundAway (K := ℚ) ?_⟩
  linarith

/-- An accepted call on numbers protects every account. -/
theorem result_protects (accepted : Acceptance database call generated) {amount : Decimal}
    (finite : accepted.amount = .finite amount) {sourceCents destinationCents : Cents}
    (sourceNumber : accepted.source.balance = .cents sourceCents)
    (destinationNumber : accepted.destination.balance = .cents destinationCents) :
    Protects database accepted.result := by
  have positive := accepted.positive
  rw [finite, Numeric.zero_less_finite] at positive
  have covered := accepted.covered_of_finite finite sourceNumber
  have sourceNonneg : 0 ≤ sourceCents.value := by
    have above := inCents_pos positive
    exact_mod_cast (by linarith : (0 : ℚ) ≤ sourceCents.value)
  rcases accepted.debited_nonneg finite sourceNumber with ⟨debited, debitedIs, debitedNonneg⟩
  intro id cents present
  rw [accepted.result_balance?]
  by_cases atDestination : id = accepted.destination.accountId
  · subst atDestination
    rw [if_pos rfl]
    rw [accepted.destination_balance?, destinationNumber] at present
    cases present
    by_cases same : accepted.destination.accountId = accepted.source.accountId
    · have stays : (afterDebit accepted.source accepted.destination accepted.debited).balance =
          .cents debited := by
        rw [afterDebit, if_pos same]
        exact debitedIs
      have sameRow : some destinationCents = some sourceCents := by
        have row := accepted.destination_balance?
        rw [same, accepted.source_balance?, sourceNumber, destinationNumber] at row
        cases row
        rfl
      cases sameRow
      rcases accepted.credited_ge finite stays with ⟨credited, creditedIs, above⟩
      refine ⟨credited, congrArg some creditedIs, fun _ => debitedNonneg.trans above, ?_⟩
      intro negative
      exact absurd sourceNonneg (not_le.mpr negative)
    · have stays : (afterDebit accepted.source accepted.destination accepted.debited).balance =
          .cents destinationCents := by
        rw [afterDebit, if_neg same]
        exact destinationNumber
      rcases accepted.credited_ge finite stays with ⟨credited, creditedIs, above⟩
      exact ⟨credited, congrArg some creditedIs, fun nonneg => nonneg.trans above, fun _ => above⟩
  · rw [if_neg atDestination]
    by_cases atSource : id = accepted.source.accountId
    · subst atSource
      rw [if_pos rfl]
      rw [accepted.source_balance?, sourceNumber] at present
      cases present
      refine ⟨debited, congrArg some debitedIs, fun _ => debitedNonneg, ?_⟩
      intro negative
      exact absurd sourceNonneg (not_le.mpr negative)
    · rw [if_neg atSource]
      exact ⟨cents, present, fun nonneg => nonneg, fun _ => le_refl _⟩

end Acceptance

theorem protects_attempt {database : Database} (ordinary : Ordinary database) (request : Attempt) :
    Protects database (attempt database request) := by
  rcases attempt_cases database request with unchanged | ⟨accepted, same⟩
  · rw [unchanged]
    exact Protects.refl database
  · rw [same]
    rcases ordinary _ _ accepted.source_balance? with ⟨sourceCents, sourceNumber⟩
    rcases ordinary _ _ accepted.destination_balance? with ⟨destinationCents, destinationNumber⟩
    rcases accepted.amount_cases with special | ⟨decimal, finite, _⟩
    · rw [accepted.source_of_nan special] at sourceNumber
      cases sourceNumber
    · exact accepted.result_protects finite sourceNumber destinationNumber

theorem attempt_accountIds (database : Database) (request : Attempt) :
    (attempt database request).accountIds = database.accountIds := by
  rcases attempt_cases database request with unchanged | ⟨accepted, same⟩
  · rw [unchanged]
  · rw [same, accepted.result_accountIds]

/-- Calls never turn a number into `NaN`, nor open an account. -/
theorem ordinary_attempt {database : Database} (ordinary : Ordinary database) (request : Attempt) :
    Ordinary (attempt database request) := by
  intro id money present
  have exists_before : Exists fun before => database.balance? id = some before := by
    have member : id ∈ (attempt database request).accountIds := by
      rw [← Database.account?_isSome_iff]
      rcases Option.map_eq_some_iff.mp present with ⟨account, found, _⟩
      rw [found]
      rfl
    rw [attempt_accountIds, ← Database.account?_isSome_iff] at member
    rcases Option.isSome_iff_exists.mp member with ⟨account, found⟩
    exact ⟨account.balance, by rw [Database.balance?, found]; rfl⟩
  rcases exists_before with ⟨before, presentBefore⟩
  rcases ordinary id before presentBefore with ⟨cents, rfl⟩
  rcases protects_attempt ordinary request id cents presentBefore with ⟨later, presentLater, _⟩
  rw [presentLater] at present
  exact ⟨later, (Option.some.inj present).symm⟩

theorem ordinary_run {opening : Database} (ordinary : Ordinary opening) (requests : List Attempt) :
    Ordinary (run attempt opening requests) :=
  invariant_of_step Ordinary (fun _ request holds => ordinary_attempt holds request) ordinary requests

/-- In every run from ordinary balances, between any two states an account at
or above zero stays there, an account below zero does not fall, and every
balance of every state is a number below 10^12 in magnitude. -/
theorem noOverdraft_of_run (opening : Database) (ordinary : Ordinary opening)
    (earlier later : List Attempt) :
    (forall id cents, (run attempt opening earlier).balance? id = some (.cents cents) ->
      Exists fun final : Cents =>
        (run attempt opening (earlier ++ later)).balance? id = some (.cents final) ∧
        (0 ≤ cents.value -> 0 ≤ final.value) ∧ (cents.value < 0 -> cents.value ≤ final.value)) ∧
    forall account, account ∈ (run attempt opening earlier).accounts ->
      Exists fun cents : Cents => account.balance = .cents cents ∧
        |(cents.value : ℚ) / 100| < 10 ^ 12 := by
  have middle := ordinary_run ordinary earlier
  constructor
  · rw [run_append]
    exact run_related Protects.refl Protects.trans (fun _ request holds => protects_attempt holds request)
      (Along.of_invariant Ordinary (fun _ request holds => ordinary_attempt holds request) middle
        later)
  · intro account member
    have present : (run attempt opening earlier).balance? account.accountId = some account.balance := by
      rw [Database.balance?, Database.account?_of_mem member, Option.map_some]
    rcases middle _ _ present with ⟨cents, number⟩
    exact ⟨cents, number, Money.abs_lt_of_cents cents⟩

theorem ordinary_twoAccounts (first second : Cents) :
    Ordinary (twoAccounts (.cents first) (.cents second)) := by
  intro id money present
  rcases Option.map_eq_some_iff.mp present with ⟨account, found, rfl⟩
  rcases List.mem_cons.mp (Database.mem_of_account? found) with same | member
  · exact ⟨first, by rw [same]⟩
  · exact ⟨second, by rw [List.mem_singleton.mp member]⟩

theorem noOverdraft_of_run_thirtyCents :
    Exists fun final : Cents =>
      (run attempt (twoAccounts (.cents ⟨100, by decide⟩) .zero) [thirtyCents]).balance? 1 =
        some (.cents final) ∧ 0 ≤ final.value := by
  have holds := noOverdraft_of_run _ (ordinary_twoAccounts ⟨100, by decide⟩ ⟨0, by decide⟩) []
    [thirtyCents]
  rcases holds.1 1 ⟨100, by decide⟩ rfl with ⟨final, present, stays, _⟩
  exact ⟨final, present, stays (by decide)⟩

end CoreBank
