import CoreBank.Server.DataAccess
import CoreBank.Server.Doubles

namespace CoreBank

open Foundation

/-!
# Printed balances

A balance leaves the table as a decimal, passes through a double and is printed
with six significant digits.  The double is close enough to every balance to
lose nothing; the output keeps exactly the balances that have no more than six
digits, zeros at the end not counted.
-/

/-! ## From the column to the text -/

/-- A number of cents is large enough for all 53 bits. -/
theorem normal_cents (cents : ℤ) : binary64.Normal ((cents : ℚ) / 100) := by
  intro nonzero least bounded
  cases bounded
  have centsNonzero : cents ≠ 0 := by
    rintro rfl
    simp at nonzero
  have one : (1 : ℚ) ≤ |(cents : ℚ)| := by
    exact_mod_cast Int.one_le_abs centsNonzero
  have large : ((2 : ℕ) : ℚ) ^ (-7 : ℤ) ≤ |(cents : ℚ) / 100| := by
    rw [abs_div]
    norm_num
    linarith
  have log := (Int.zpow_le_iff_le_log (by norm_num) (abs_pos.mpr nonzero)).mp large
  change (-1074 : ℤ) ≤ Int.log 2 _ - ((53 : ℕ) - 1)
  omega

theorem abs_nearest_cents_lt (amount : Cents) :
    |binary64.nearest ((amount.value : ℚ) / 100)| < 2 ^ 1024 := by
  let x : ℚ := (amount.value : ℚ) / 100
  have error : |x - binary64.nearest x| * (2 * ((2 : ℕ) : ℚ) ^ (53 - 1)) ≤ |x| :=
    FloatFormat.abs_sub_nearest_le_of_normal (normal_cents amount.value)
  have small : |x| ≤ 2 ^ 40 := by
    have range : |(amount.value : ℚ)| < 10 ^ 14 := by exact_mod_cast amount.inRange
    rw [abs_div]
    norm_num at range ⊢
    linarith
  have near : |x - binary64.nearest x| ≤ |x| := by
    have nonneg := abs_nonneg (x - binary64.nearest x)
    norm_num at error
    linarith
  have total := abs_sub_abs_le_abs_sub (binary64.nearest x) x
  rw [abs_sub_comm] at total
  calc |binary64.nearest x| ≤ 2 ^ 41 := by linarith
    _ < 2 ^ 1024 := pow_lt_pow_right₀ (by norm_num) (by norm_num)

/-- The conversion of the column to the nearest double. -/
def Cents.toDouble (amount : Cents) : FiniteDouble where
  value := binary64.nearest ((amount.value : ℚ) / 100)
  represented := FloatFormat.represents_nearest _
  inRange := abs_nearest_cents_lt amount

def Money.toDouble : Money -> Double
  | .nan => .nan
  | .cents amount => .finite amount.toDouble

/-- The value of a balance that is a number. -/
def Money.amount : Money -> Option ℚ
  | .nan => none
  | .cents amount => some (amount.value / 100)

/-- A number of at most six digits, zeros at the end not counted. -/
def Money.HasSixDigits (money : Money) : Prop :=
  Exists fun amount : Cents => money = .cents amount ∧
    Exists fun m : ℤ => Exists fun k : ℕ => amount.value = m * 10 ^ k ∧ |m| < 10 ^ 6

/-- What follows the account in a reply to `BALANCE`, if it is one, reads as the
stored balance. -/
def PrintsExactly (reply : String) (accId : ℤ) (balance : Money) : Prop :=
  forall printed, reply = "BALANCE " ++ toString accId ++ " " ++ printed ++ "\n" ->
    Exists fun amount => balance.amount = some amount ∧ decimalValue (ascii printed) = some amount

/-- The database answers a query, and every column of the account can be
converted. -/
structure DatabaseAnswers (work : DatabaseWork) (database : Database) (account : Account) : Prop where
  undisturbed : work.beginFails = none ∧ work.execFails = none
  commits : (work.commit database).reported = .ok ()
  currency : account.currency ≠ none

/-! ## Six digits -/

theorem represents_iff (cents : ℤ) :
    generalOutput.Represents ((cents : ℚ) / 100) ↔
      Exists fun m : ℤ => Exists fun k : ℕ => cents = m * 10 ^ k ∧ |m| < 10 ^ 6 := by
  constructor
  · rintro ⟨m, e, bounded, _, value⟩
    have scaled : (cents : ℚ) = m * 10 ^ (e + 2) := by
      have base : ((generalOutput.base : ℕ) : ℚ) = 10 := rfl
      rw [base] at value
      rw [zpow_add₀ (by norm_num), zpow_ofNat]
      linarith
    by_cases whole : 0 ≤ e + 2
    · rcases Int.eq_ofNat_of_zero_le whole with ⟨k, power⟩
      rw [power, zpow_natCast] at scaled
      exact ⟨m, k, by exact_mod_cast scaled, bounded⟩
    · -- With digits behind the cents the number is small, and fits as it is.
      have shrinks : (10 : ℚ) ^ (e + 2) ≤ 1 := zpow_le_one_of_nonpos₀ (by norm_num) (by omega)
      have smaller : |(cents : ℚ)| ≤ |(m : ℚ)| := by
        rw [scaled, abs_mul, abs_of_pos (zpow_pos (by norm_num : (0 : ℚ) < 10) _)]
        exact mul_le_of_le_one_right (abs_nonneg _) shrinks
      have smallerInt : |cents| ≤ |m| := by exact_mod_cast smaller
      exact ⟨cents, 0, by rw [pow_zero, mul_one], smallerInt.trans_lt bounded⟩
  · rintro ⟨m, k, rfl, bounded⟩
    refine ⟨m, k - 2, bounded, fun least impossible => (by cases impossible), ?_⟩
    have power : ((generalOutput.base : ℕ) : ℚ) ^ ((k : ℤ) - 2) = 10 ^ k / 100 := by
      have base : ((generalOutput.base : ℕ) : ℚ) = 10 := rfl
      rw [base, zpow_sub₀ (by norm_num), zpow_natCast]
      norm_num
    rw [power]
    push_cast
    ring

/-- A printed balance is read back as it was stored exactly if it has no more
than six digits. -/
theorem decimalValue_toDouble_iff (amount : Cents) :
    decimalValue (ascii (showDouble (Money.cents amount).toDouble)) = some ((amount.value : ℚ) / 100) ↔
      (Money.cents amount).HasSixDigits := by
  have shown : showDouble (Money.cents amount).toDouble =
      generalText (binary64.nearest ((amount.value : ℚ) / 100)) := rfl
  rw [shown, decimalValue_generalText, Option.some.injEq,
    FloatFormat.nearest_nearest_eq_iff rfl (by decide) (normal_cents amount.value), represents_iff]
  constructor
  · intro digits
    exact ⟨amount, rfl, digits⟩
  · rintro ⟨other, same, digits⟩
    cases same
    exact digits

/-- Balances of six digits that are printed alike are equal. -/
theorem eq_of_printed_alike {first second : Money} (firstDigits : first.HasSixDigits)
    (secondDigits : second.HasSixDigits)
    (alike : showDouble first.toDouble = showDouble second.toDouble) : first = second := by
  rcases firstDigits with ⟨firstAmount, rfl, firstSix⟩
  rcases secondDigits with ⟨secondAmount, rfl, secondSix⟩
  have read := (decimalValue_toDouble_iff firstAmount).mpr ⟨firstAmount, rfl, firstSix⟩
  have readSecond := (decimalValue_toDouble_iff secondAmount).mpr ⟨secondAmount, rfl, secondSix⟩
  rw [alike, readSecond] at read
  have values : (secondAmount.value : ℚ) = firstAmount.value := by
    have same := Option.some.inj read
    linarith
  have integers : firstAmount.value = secondAmount.value := by exact_mod_cast values.symm
  cases firstAmount
  cases secondAmount
  cases integers
  rfl

/-! ## The reply -/

section Replies

variable {driver : Driver Double} {work : DatabaseWork} {database : Database} {accId : ℤ}
  {account : Account}

/-- libpqxx with the conversion of the column to a double. -/
def withDoubles (driver : Driver Double) : Driver Double :=
  { driver with readBalance := Money.toDouble }

/-- Both conversions, and the texts of `numericDriver`. -/
def doubleDriver : Driver Double where
  parameter := Double.parameter
  readBalance := Money.toDouble
  what := numericDriver.what
  whatNull := numericDriver.whatNull

variable (driver) in
/-- A failed call to the database is an exception; an answer is the stored
balance as a double. -/
theorem getBalance_cases (found : database.account? accId = some account) :
    (DatabaseAnswers work database account ∧
        AccountService.getBalance (withDoubles driver) work accId database = .ok account.balance.toDouble) ∨
      (¬ DatabaseAnswers work database account ∧ Exists fun what =>
        AccountService.getBalance (withDoubles driver) work accId database = .error what) := by
  cases begins : work.beginFails with
  | some what =>
      refine Or.inr ⟨fun answers => ?_, what, ?_⟩
      · cases begins.symm.trans answers.undisturbed.1
      · rw [AccountService.getBalance, AccountService.getAccount, begins]
        rfl
  | none =>
      cases executes : work.execFails with
      | some what =>
          refine Or.inr ⟨fun answers => ?_, what, ?_⟩
          · cases executes.symm.trans answers.undisturbed.2
          · rw [AccountService.getBalance, AccountService.getAccount, begins, executes]
            rfl
      | none =>
          cases commits : (work.commit database).reported with
          | error what =>
              refine Or.inr ⟨fun answers => ?_, what, ?_⟩
              · cases commits.symm.trans answers.commits
              · rw [AccountService.getBalance, AccountService.getAccount, begins, executes, commits]
                rfl
          | ok _ =>
              have committed : work.commit database = .committed := by
                cases outcome : work.commit database with
                | committed => rfl
                | refused what => cases (outcome ▸ commits : CommitOutcome.reported (.refused what) = _)
                | inDoubt what durable =>
                    cases (outcome ▸ commits : CommitOutcome.reported (.inDoubt what durable) = _)
              rw [AccountService.getBalance_eq ⟨begins, executes⟩ committed, found]
              by_cases null : account.currency = none
              · exact Or.inr ⟨fun answers => answers.currency null, _, if_pos null⟩
              · exact Or.inl ⟨⟨⟨begins, executes⟩, commits, null⟩, if_neg null⟩

theorem balanceReply_eq_iff (accId : ℤ) (balance : Double) (printed : String) :
    balanceReply showDouble accId (.ok balance) =
        "BALANCE " ++ toString accId ++ " " ++ printed ++ "\n" ↔ printed = showDouble balance := by
  constructor
  · intro same
    have letters := congrArg String.toList same
    simp only [balanceReply, String.toList_append] at letters
    have text := List.append_cancel_left (List.append_cancel_right letters)
    exact String.toList_inj.mp text.symm
  · rintro rfl
    rfl

theorem errorReply_ne_balance (what : String) (accId : ℤ) (printed : String) :
    errorReply what ≠ "BALANCE " ++ toString accId ++ " " ++ printed ++ "\n" := by
  intro same
  have letters := congrArg (fun reply => reply.toList.head?) same
  simp [errorReply, String.toList_append] at letters

/-- An answered `BALANCE` prints the stored balance exactly if it is a number
with no more than six digits. -/
theorem printsExactly_iff (driver : Driver Double) (work : DatabaseWork) (generated : Generated)
    (found : database.account? accId = some account) :
    PrintsExactly (respond (bankServices (withDoubles driver) showDouble work generated)
        (.balance accId) database).1 accId account.balance ↔
      (DatabaseAnswers work database account -> account.balance.HasSixDigits) := by
  have reply : (respond (bankServices (withDoubles driver) showDouble work generated)
      (.balance accId) database).1 = balanceReply showDouble accId
        (AccountService.getBalance (withDoubles driver) work accId database) := rfl
  rw [reply]
  rcases getBalance_cases driver found with ⟨answers, balance⟩ | ⟨fails, what, failed⟩
  · rw [balance]
    unfold PrintsExactly
    simp only [balanceReply_eq_iff, forall_eq]
    cases stored : account.balance with
    | nan =>
        constructor
        · rintro ⟨amount, impossible, _⟩
          cases impossible
        · intro digits
          rcases digits answers with ⟨amount, impossible, _⟩
          cases impossible
    | cents amount =>
        rw [← decimalValue_toDouble_iff]
        constructor
        · rintro ⟨value, same, read⟩ _
          cases same
          exact read
        · intro read
          exact ⟨_, rfl, read answers⟩
  · rw [failed]
    constructor
    · intro _ answers
      exact absurd answers fails
    · intro _ printed same
      exact absurd same (errorReply_ne_balance what accId printed)

end Replies

/-- Two accounts with more than a million dollars, one cent apart. -/
def millions : Database :=
  twoAccounts (.cents ⟨123456789, by decide⟩) (.cents ⟨123456788, by decide⟩)

theorem printsExactly_iff_millions :
    PrintsExactly (respond (bankServices (withDoubles doubleDriver) showDouble
        (dependable fun _ => none) ⟨none, none⟩) (.balance 1) millions).1 1
        (.cents ⟨123456789, by decide⟩) ↔
      (DatabaseAnswers (dependable fun _ => none) millions
          ⟨1, 1, .checking, .cents ⟨123456789, by decide⟩, some ⟨"USD", by decide⟩⟩ ->
        (Money.cents ⟨123456789, by decide⟩).HasSixDigits) := by
  have found : millions.account? 1 =
      some ⟨1, 1, .checking, .cents ⟨123456789, by decide⟩, some ⟨"USD", by decide⟩⟩ := rfl
  exact printsExactly_iff doubleDriver (dependable fun _ => none) ⟨none, none⟩ found

/-- Both accounts print the same amount, which neither of them has. -/
theorem not_printsExactly_of_every_account :
    (¬ forall (driver : Driver Double) (work : DatabaseWork) (generated : Generated)
      (database : Database) (accId : ℤ) (account : Account),
      database.account? accId = some account ->
        PrintsExactly (respond (bankServices (withDoubles driver) showDouble work generated)
          (.balance accId) database).1 accId account.balance) ∧
      showDouble (Money.cents ⟨123456789, by decide⟩).toDouble =
        showDouble (Money.cents ⟨123456788, by decide⟩).toDouble := by
  refine ⟨?_, by decide +kernel⟩
  intro always
  have found : millions.account? 1 =
      some ⟨1, 1, .checking, .cents ⟨123456789, by decide⟩, some ⟨"USD", by decide⟩⟩ := rfl
  have exact := always doubleDriver (dependable fun _ => none) ⟨none, none⟩ millions 1 _ found
  rcases exact "1.23457e+06" (by decide +kernel) with ⟨amount, stored, read⟩
  cases stored
  exact absurd read (by decide +kernel)

end CoreBank
