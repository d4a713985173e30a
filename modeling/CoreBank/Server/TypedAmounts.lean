import CoreBank.Database.ExactTransfers
import CoreBank.Server.ExistingAccounts
import CoreBank.Server.PrintedBalances
import CoreBank.Server.TruthfulReplies
import CoreBank.Server.WellFormedCommands

namespace CoreBank

open Foundation

/-!
# Amounts as they are typed

The amount of a `TRANSFER` is a decimal in the line, the nearest double in the
handler, and again a decimal in the parameter of the statement.  With at most
fifteen digits the two decimals are the same, so a transfer of whole cents that
the column can hold means what `transferMoney` means for exactly these cents,
although neither the double nor the procedure rounds to cents.
-/

/-- The words of a line ask for a transfer of so many cents. -/
def TypedTransfer (line : List Byte) (fromId toId cents : ℤ) : Prop :=
  Exists fun source => Exists fun destination => Exists fun sum => Exists fun description =>
    words line = ascii "TRANSFER" :: source :: destination :: sum :: description ∧
      intValue source = some fromId ∧ intValue destination = some toId ∧
      decimalValue sum = some ((cents : ℚ) / 100)

/-! ## Through the double -/

/-- The decimal with the digits and the exponent of a rounded number. -/
theorem value_decimal (digits exponent : ℤ) :
    (⟨digits * 10 ^ exponent.toNat, (-exponent).toNat⟩ : Decimal).value = digits * 10 ^ exponent := by
  rw [Decimal.value]
  rcases le_total 0 exponent with whole | fraction
  · have scale : (-exponent).toNat = 0 := by omega
    have power : (exponent.toNat : ℤ) = exponent := Int.toNat_of_nonneg whole
    rw [scale, pow_zero, div_one]
    push_cast
    rw [← zpow_natCast, power]
  · have power : ((-exponent).toNat : ℤ) = -exponent := Int.toNat_of_nonneg (by omega)
    have whole : exponent.toNat = 0 := by omega
    rw [whole, pow_zero, mul_one, ← zpow_natCast (10 : ℚ), power, zpow_neg, div_inv_eq_mul]

theorem shortest_eq (number : FiniteDouble) {m e : ℤ}
    (search : binary64.shortest 10 generalOutput.one_lt_base 17 number.value = some (m, e))
    (exact : 0 < e -> number.value = m * 10 ^ e) : number.shortest.value = m * 10 ^ e := by
  rw [FiniteDouble.shortest, search, Option.getD_some]
  dsimp only
  by_cases fixed : 0 < e ∧ e ≤ if m.natAbs < 10 then 4 else 5
  · have natural : (e.toNat : ℤ) = e := Int.toNat_of_nonneg fixed.1.le
    have whole : number.value = ((m * 10 ^ e.toNat : ℤ) : ℚ) := by
      rw [exact fixed.1, ← natural, zpow_natCast]
      push_cast
      rfl
    rw [if_pos fixed, ← exact fixed.1, Decimal.value, whole, Rat.num_intCast, pow_zero, div_one]
  · rw [if_neg fixed]
    exact value_decimal m e

/-- What is read as some cents has all 53 bits. -/
theorem normal_of_nearest_cents {cents : ℤ} (nonzero : cents ≠ 0) {q : ℚ}
    (same : binary64.nearest q = binary64.nearest ((cents : ℚ) / 100)) : binary64.Normal q := by
  have one : (1 : ℚ) ≤ |(cents : ℚ)| := by
    exact_mod_cast Int.one_le_abs nonzero
  have kept := FloatFormat.abs_le_two_mul_abs_nearest (normal_cents cents)
  rw [abs_div, abs_of_pos (by norm_num : (0 : ℚ) < 100)] at kept
  apply FloatFormat.normal_of_nearest
  intro least bounded
  cases bounded
  have tiny : ((binary64.base : ℕ) : ℚ) ^ ((-1074 : ℤ) + (binary64.digits : ℕ)) ≤ 1 / 1024 := by
    calc ((2 : ℕ) : ℚ) ^ ((-1074 : ℤ) + ((53 : ℕ) : ℤ)) ≤ ((2 : ℕ) : ℚ) ^ (-10 : ℤ) :=
          zpow_le_zpow_right₀ (by norm_num) (by norm_num)
      _ = 1 / 1024 := by norm_num
  rw [same]
  linarith

/-- Whole dollars that the column can hold are a double. -/
theorem represents_of_dollars (amount : Cents) {m e : ℤ} (positive : 0 < e)
    (dollars : (m : ℚ) * 10 ^ e = (amount.value : ℚ) / 100) :
    binary64.Represents ((amount.value : ℚ) / 100) := by
  have natural : (e.toNat : ℤ) = e := Int.toNat_of_nonneg positive.le
  have whole : (amount.value : ℚ) / 100 = ((m * 10 ^ e.toNat : ℤ) : ℚ) := by
    rw [← dollars, ← natural, zpow_natCast]
    push_cast
    rfl
  refine ⟨m * 10 ^ e.toNat, 0, ?_, fun least bounded => ?_, ?_⟩
  · have cents : amount.value = m * 10 ^ e.toNat * 100 := by
      rw [div_eq_iff (by norm_num)] at whole
      exact_mod_cast whole
    have inRange := amount.inRange
    rw [cents, abs_mul] at inRange
    change |m * 10 ^ e.toNat| < 2 ^ 53
    norm_num at inRange ⊢
    omega
  · cases bounded
    decide
  · rw [whole, zpow_zero, mul_one]

/-- Whole cents come out of the double as they have gone in. -/
theorem value_shortest (amount : Cents) : amount.toDouble.shortest.value = (amount.value : ℚ) / 100 := by
  by_cases zero : amount.value = 0
  · have nothing : amount.toDouble.value = 0 := by
      change binary64.nearest ((amount.value : ℚ) / 100) = 0
      rw [zero, Int.cast_zero, zero_div, FloatFormat.nearest_zero]
    have search : binary64.shortest 10 generalOutput.one_lt_base 17 amount.toDouble.value =
        some (0, 0) := by
      rw [nothing]
      decide +kernel
    rw [shortest_eq amount.toDouble search (fun impossible => absurd impossible (lt_irrefl 0)), zero]
    norm_num
  · have fits : (FloatFormat.unbounded 10 generalOutput.one_lt_base 14).Represents
        ((amount.value : ℚ) / 100) := by
      refine ⟨amount.value, -2, amount.inRange.trans (by decide),
        fun least impossible => (by cases impossible), ?_⟩
      change (amount.value : ℚ) / 100 = amount.value * ((10 : ℕ) : ℚ) ^ (-2 : ℤ)
      norm_num
      ring
    rcases FloatFormat.exists_shortest generalOutput.one_lt_base (by norm_num : 14 < 17) (by decide) fits
      (fun q same => normal_of_nearest_cents zero same) with ⟨m, e, search, value⟩
    have written : (m : ℚ) * 10 ^ e = (amount.value : ℚ) / 100 := by exact_mod_cast value
    rw [← written]
    refine shortest_eq amount.toDouble search fun positive => ?_
    have represents := represents_of_dollars amount positive written
    exact (FloatFormat.nearest_of_represents represents).trans written.symm

theorem inCents_shortest (amount : Cents) : amount.toDouble.shortest.inCents = amount.value := by
  rw [Decimal.inCents, value_shortest]
  norm_num

/-- A decimal of whole cents that the column can hold is read as their
double. -/
theorem strtod_cents {text : List Byte} (amount : Cents)
    (value : decimalValue text = some ((amount.value : ℚ) / 100)) :
    strtod text = some (.finite amount.toDouble) := by
  have nearest : FiniteDouble.nearest ((amount.value : ℚ) / 100) = some amount.toDouble :=
    dif_pos (abs_nearest_cents_lt amount)
  rw [strtod, value, Option.bind_some, nearest, Option.map_some]

theorem TypedTransfer.parse {line : List Byte} {fromId toId : ℤ} {amount : Cents}
    (typed : TypedTransfer line fromId toId amount.value) :
    parseCommand strtod line = .transfer fromId toId (.finite amount.toDouble) := by
  rcases typed with ⟨source, destination, sum, description, split, fromValue, toValue, value⟩
  have is : IsTransfer line fromId toId (.finite amount.toDouble) :=
    ⟨source, destination, sum, description, split, fromValue, toValue, strtod_cents amount value⟩
  rcases is.reads with ⟨word, afterSource, afterDestination, rest, first, second, third, _⟩
  exact parseCommand_eq_transfer_iff.mpr ⟨word, rest,
    transferArguments_eq_some_iff.mpr ⟨afterSource, afterDestination, first, second, third⟩⟩

/-! ## Through the procedure -/

/-- libpqxx with the text of a double in the parameter. -/
def withParameters (driver : Driver Double) : Driver Double :=
  { driver with parameter := Double.parameter }

/-- The connection works, and every commit takes effect. -/
structure Commits (work : DatabaseWork) : Prop where
  undisturbed : work.beginFails = none ∧ work.execFails = none
  commits : forall tables, work.commit tables = .committed

/-- What an answer says about a transfer of so many cents: after `OK` exactly
these cents have been moved, and after anything else nothing, unless the commit
was in doubt.  A permitted transfer is carried out when the connection works. -/
structure CarriesOut (work : DatabaseWork) (generated : Generated) (database : Database)
    (fromId toId : ℤ) (amount : Cents) (answer : String × Database) : Prop where
  moves : answer.1 = "OK\n" -> Permits database fromId toId amount.value ∧ generated.IsFresh database ∧
    Moves database answer.2 fromId toId amount.value (some "Server transfer") generated
  keeps : answer.1 ≠ "OK\n" -> IsError answer.1 ∧ (answer.2 = database ∨ CommitsInDoubt work generated
    (wholeTransfer fromId toId amount.toDouble.shortest (some "Server transfer")) database)
  succeeds : Commits work -> Permits database fromId toId amount.value -> generated.IsFresh database ->
    answer.1 = "OK\n"

section Server

variable {Double : Type} {driver : Driver Double} {work : DatabaseWork} {database after : Database}
  {generated : Generated}

/-- On a working connection `transfer` does what the procedure does. -/
theorem transfer_of_success (commits : Commits work) {fromId toId : ℤ} {amount : Double}
    {description : String} (success : callTransferMoney
      (TransactionService.transferCall driver fromId toId amount description) generated database =
        .ok after) :
    TransactionService.transfer driver work generated fromId toId amount description database =
      (.ok (), after) := by
  unfold TransactionService.transfer TransactionService.exec
  simp only [commits.undisturbed.1, commits.undisturbed.2, success, Except.mapError, commits.commits]
  rfl

end Server

theorem TypedTransfer.carriesOut {database : Database} (regular : Regular database)
    (driver : Driver Double) (work : DatabaseWork) (generated : Generated) {line : List Byte}
    {fromId toId : ℤ} {amount : Cents} (typed : TypedTransfer line fromId toId amount.value) :
    CarriesOut work generated database fromId toId amount
      (respond (bankServices (withParameters driver) showDouble work generated)
        (parseCommand strtod line) database) := by
  have whole := inCents_shortest amount
  have ends := transferEnds (withParameters driver) work generated fromId toId
    (.finite amount.toDouble) "Server transfer" database
  have success : Commits work -> Permits database fromId toId amount.value -> generated.IsFresh database ->
      (TransactionService.transfer (withParameters driver) work generated fromId toId
        (.finite amount.toDouble) "Server transfer" database).1 = .ok () := by
    intro commits permits fresh
    rcases permits.call_succeeds (regular.at fromId) (regular.at toId) none whole
      (some "Server transfer") fresh with ⟨after, success⟩
    have called : callTransferMoney (TransactionService.transferCall (withParameters driver) fromId toId
        (.finite amount.toDouble) "Server transfer") generated database = .ok after := success
    rw [transfer_of_success commits called]
  rw [typed.parse]
  simp only [respond, bankServices]
  generalize TransactionService.transfer (withParameters driver) work generated fromId toId
    (.finite amount.toDouble) "Server transfer" database = answer at ends success
  cases ends with
  | returned accepted _ =>
      have called : callTransferMoneyUnder none (wholeTransfer fromId toId amount.toDouble.shortest
          (some "Server transfer")) generated database = .ok accepted.result :=
        callTransferMoney_eq_ok_iff.mpr ⟨accepted, rfl⟩
      rcases permits_of_call (regular.at fromId) (regular.at toId) whole called with
        ⟨permits, fresh, moves⟩
      exact ⟨fun _ => ⟨permits, fresh, moves⟩, fun other => absurd rfl other, fun _ _ _ => rfl⟩
  | undone what _ =>
      refine ⟨fun same => absurd same (errorReply_ne_ok what), fun _ => ?_, fun commits permits fresh => ?_⟩
      · exact ⟨isError_errorReply what, Or.inl rfl⟩
      · cases success commits permits fresh
  | inDoubt what accepted doubtful =>
      refine ⟨fun same => absurd same (errorReply_ne_ok what), fun _ => ?_, fun commits permits fresh => ?_⟩
      · exact ⟨isError_errorReply what, Or.inr doubtful⟩
      · cases success commits permits fresh

/-- A transfer of whole cents that is typed in a line is carried out to the
cent. -/
theorem carriesOut_typed {database : Database} (regular : Regular database) (driver : Driver Double)
    (work : DatabaseWork) (generated : Generated) {line : List Byte} {fromId toId : ℤ} {amount : Cents}
    (typed : TypedTransfer line fromId toId amount.value) :
    CarriesOut work generated database fromId toId amount
      (respond (bankServices (withParameters driver) showDouble work generated)
        (parseCommand strtod line) database) :=
  typed.carriesOut regular driver work generated

theorem carriesOut_typed_thirtyCents : CarriesOut working ⟨some 1, none⟩ (twoAccounts .oneDollar .zero) 1 2
    ⟨30, by decide⟩ (respond (bankServices (withParameters doubleDriver) showDouble working ⟨some 1, none⟩)
      (parseCommand strtod (ascii "TRANSFER 1 2 0.30")) (twoAccounts .oneDollar .zero)) := by
  have typed : TypedTransfer (ascii "TRANSFER 1 2 0.30") 1 2 30 :=
    ⟨ascii "1", ascii "2", ascii "0.30", [], by decide, by decide, by decide, by decide +kernel⟩
  have regular : Regular (twoAccounts .oneDollar .zero) :=
    regular_twoAccounts ⟨100, by decide⟩ ⟨0, by decide⟩
  exact carriesOut_typed regular doubleDriver working ⟨some 1, none⟩ typed

end CoreBank
