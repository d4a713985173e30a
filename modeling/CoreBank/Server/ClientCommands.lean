import CoreBank.Server.AnsweredTransfers
import CoreBank.Server.Configuration
import CoreBank.Server.Framing
import CoreBank.Server.TypedAmounts

namespace CoreBank

open Foundation

/-!
# Commands that a client prints

The client of the tests talks to the server as any other program would: it
prints a command into a line, and reads the reply with the extraction operators.
A number that it prints has six significant digits, like the numbers in the
replies.  What has more of them arrives changed, in either direction.
-/

/-! ## The client -/

/-- `"TRANSFER 1 2 " << amount`, for any two accounts. -/
def transferCommand (fromId toId : ℤ) (amount : Double) : List Byte :=
  ascii "TRANSFER" ++ 32 :: (intText fromId ++ 32 :: (intText toId ++ 32 :: ascii (showDouble amount)))

/-- The bytes that `sendCommand` sends. -/
def commandLine (cmd : List Byte) : List Byte :=
  cmd ++ [lineFeed]

/-- The reply of the server to a command that is sent on a connection of its own,
if it gives one. -/
def answerTo {Bank : Type} (services : Services Bank Double) (cmd : List Byte) (bank : Bank) :
    Option (String × Bank) :=
  (receive strtod (commandLine cmd)).map fun command => respond services command bank

example (amount : Double) : transferCommand 1 2 amount =
    ascii "TRANSFER 1 2 " ++ ascii (showDouble amount) := rfl

/-! ## Printed words -/

theorem isWord_of_all {word : List Byte} (filled : word ≠ [])
    (solid : (word.all fun byte => !isSpace byte) = true) : IsWord word where
  filled := filled
  solid byte member := by simpa using List.all_eq_true.mp solid byte member

theorem isWord_intText (n : ℤ) : IsWord (intText n) where
  filled := (isBareWord_intText n).filled
  solid _ member := ((isBareWord_intText n).solid _ member).1

/-- A decimal number is a word. -/
theorem isWord_of_decimalValue {text : List Byte} {value : ℚ} (whole : decimalValue text = some value) :
    IsWord text := by
  rcases decimalValue_eq_some whole with ⟨sign, body, rfl, part, ⟨magnitude, unsigned⟩, _⟩
  have filled : body ≠ [] := by
    rintro rfl
    cases unsigned
  -- the whole of it is found by the extraction, which stops at white space
  have none : AtWordEnd [] := fun _ impossible => by cases impossible
  have rest := floatText_unsigned unsigned none
  rcases floatText_kept false false false false (body ++ []) with ⟨found, split, _, solid⟩
  rw [rest, List.append_nil, List.append_nil] at split
  subst split
  exact isWord_append part filled solid

theorem isWord_showDouble (amount : Double) : IsWord (ascii (showDouble amount)) := by
  cases amount with
  | nan => exact isWord_of_all (by decide) (by decide)
  | infinity negative =>
      cases negative with
      | false => exact isWord_of_all (by decide) (by decide)
      | true => exact isWord_of_all (by decide) (by decide)
  | finite number => exact isWord_of_decimalValue (decimalValue_generalText number.value)

theorem words_word_space {word : List Byte} (isWord : IsWord word) (rest : List Byte) :
    words (word ++ 32 :: rest) = word :: words rest := by
  have ends : AtWordEnd (32 :: rest) := by
    intro byte first
    cases first
    decide
  rw [words_append isWord ends, words_space (by decide)]

theorem words_word {word : List Byte} (isWord : IsWord word) : words word = [word] := by
  have ends : AtWordEnd [] := fun _ impossible => by cases impossible
  have split := words_append isWord ends
  rw [List.append_nil] at split
  exact split

theorem isWord_command : IsWord (ascii "TRANSFER") ∧ IsWord (ascii "BALANCE") :=
  ⟨isWord_of_all (by decide) (by decide), isWord_of_all (by decide) (by decide)⟩

theorem words_transferCommand (fromId toId : ℤ) (amount : Double) :
    words (transferCommand fromId toId amount) =
      [ascii "TRANSFER", intText fromId, intText toId, ascii (showDouble amount)] := by
  rw [transferCommand, words_word_space isWord_command.1, words_word_space (isWord_intText fromId),
    words_word_space (isWord_intText toId), words_word (isWord_showDouble amount)]

/-! ## What the handler receives -/

/-- A text whose last word goes up to its end. -/
def EndsInWord (text : List Byte) : Prop :=
  Exists fun front => Exists fun word => text = front ++ word ∧ IsWord word

theorem EndsInWord.append {text : List Byte} (ends : EndsInWord text) (front : List Byte) :
    EndsInWord (front ++ text) := by
  rcases ends with ⟨middle, word, rfl, isWord⟩
  exact ⟨front ++ middle, word, (List.append_assoc front middle word).symm, isWord⟩

theorem IsWord.endsInWord {word : List Byte} (isWord : IsWord word) : EndsInWord word :=
  ⟨[], word, rfl, isWord⟩

theorem endsInWord_transferCommand (fromId toId : ℤ) (amount : Double) :
    EndsInWord (transferCommand fromId toId amount) := by
  have last := (isWord_showDouble amount).endsInWord
  exact (((last.append [32]).append (intText toId)).append [32]
    |>.append (intText fromId) |>.append [32]).append (ascii "TRANSFER")

/-- The line feed of the client is taken off again, and nothing else. -/
theorem lineOf_commandLine {cmd : List Byte} (ends : EndsInWord cmd) : lineOf (commandLine cmd) = cmd := by
  rcases ends with ⟨front, word, rfl, isWord⟩
  have last := List.dropLast_append_getLast isWord.filled
  have solid : ¬ isLineEnd (word.getLast isWord.filled) = true := by
    intro lineEnd
    have blank := isSpace_of_isLineEnd lineEnd
    rw [isWord.solid _ (List.getLast_mem isWord.filled)] at blank
    cases blank
  rw [lineOf, commandLine, List.rdropWhile_concat_pos _ _ _ (by decide), ← last, ← List.append_assoc,
    List.rdropWhile_concat_neg _ _ _ solid]

theorem receive_commandLine {cmd : List Byte} (ends : EndsInWord cmd) :
    receive strtod (commandLine cmd) = some (parseCommand strtod cmd) := by
  have filled : cmd ≠ [] := by
    rcases ends with ⟨front, word, rfl, isWord⟩
    exact List.append_ne_nil_of_right_ne_nil front isWord.filled
  rw [receive, lineOf_commandLine ends, if_neg filled]

theorem answerTo_eq {Bank : Type} (services : Services Bank Double) {cmd : List Byte}
    (ends : EndsInWord cmd) (bank : Bank) :
    answerTo services cmd bank = some (respond services (parseCommand strtod cmd) bank) := by
  rw [answerTo, receive_commandLine ends, Option.map_some]

theorem intValue_intText {n : ℤ} (fits : FitsInt n) : intValue (intText n) = some n :=
  intValue_eq_some_iff.mpr ⟨integerValue_intText n, fits⟩

/-- A printed transfer means what the text of its amount means. -/
theorem typedTransfer_transferCommand {fromId toId : ℤ} (fromFits : FitsInt fromId) (toFits : FitsInt toId)
    {amount : Double} {cents : ℤ} (value : decimalValue (ascii (showDouble amount)) = some ((cents : ℚ) / 100)) :
    TypedTransfer (transferCommand fromId toId amount) fromId toId cents :=
  ⟨_, _, _, [], words_transferCommand fromId toId amount, intValue_intText fromFits,
    intValue_intText toFits, value⟩

/-! ## Six digits -/

theorem decimalValue_cents (amount : Cents) :
    decimalValue (ascii (showDouble (Money.cents amount).toDouble)) =
      some (generalOutput.nearest amount.toDouble.value) :=
  decimalValue_generalText amount.toDouble.value

theorem nearest_eq_iff (amount : Cents) :
    generalOutput.nearest amount.toDouble.value = (amount.value : ℚ) / 100 ↔
      (Money.cents amount).HasSixDigits := by
  rw [← decimalValue_toDouble_iff, decimalValue_cents, Option.some.injEq]

/-- A small amount has no more than six digits. -/
theorem hasSixDigits_of_small {amount : Cents} (small : |amount.value| < 10 ^ 6) :
    (Money.cents amount).HasSixDigits :=
  ⟨amount, rfl, amount.value, 0, by rw [pow_zero, mul_one], small⟩

/-- Whole cents are printed as whole cents. -/
theorem exists_printed (amount : Cents) : Exists fun sent : ℤ =>
    generalOutput.nearest amount.toDouble.value = (sent : ℚ) / 100 := by
  have represented : generalOutput.Represents (generalOutput.nearest amount.toDouble.value) :=
    FloatFormat.represents_nearest _
  rcases represented with ⟨m, e, bounded, _, value⟩
  have base : ((generalOutput.base : ℕ) : ℚ) = 10 := rfl
  rw [base] at value
  by_cases whole : -2 ≤ e
  · rcases Int.eq_ofNat_of_zero_le (by omega : 0 ≤ e + 2) with ⟨k, power⟩
    refine ⟨m * 10 ^ k, ?_⟩
    have split : e = (k : ℤ) - 2 := by omega
    rw [value, split, zpow_sub₀ (by norm_num), zpow_natCast, zpow_ofNat]
    push_cast
    ring
  · -- what is printed with a digit behind the cents is small, and then it is exact
    refine ⟨amount.value, (nearest_eq_iff amount).mpr (hasSixDigits_of_small ?_)⟩
    have digits : |(m : ℚ)| < 10 ^ 6 := by exact_mod_cast bounded
    have shrinks : (10 : ℚ) ^ e ≤ 10 ^ (-3 : ℤ) := zpow_le_zpow_right₀ (by norm_num) (by omega)
    have positive : (0 : ℚ) < 10 ^ e := zpow_pos (by norm_num) e
    have printedSmall : |generalOutput.nearest amount.toDouble.value| ≤ 10 ^ 3 := by
      rw [value, abs_mul, abs_of_pos positive]
      calc |(m : ℚ)| * 10 ^ e ≤ 10 ^ 6 * 10 ^ (-3 : ℤ) :=
            mul_le_mul digits.le shrinks positive.le (by norm_num)
        _ = 10 ^ 3 := by norm_num
    have printedNear : |amount.toDouble.value - generalOutput.nearest amount.toDouble.value| *
        (2 * ((10 : ℕ) : ℚ) ^ (6 - 1)) ≤ |amount.toDouble.value| :=
      FloatFormat.abs_sub_nearest_le_of_normal (FloatFormat.normal_of_unbounded rfl _)
    have doubleNear : |(amount.value : ℚ) / 100 - amount.toDouble.value| * (2 * ((2 : ℕ) : ℚ) ^ (53 - 1)) ≤
        |(amount.value : ℚ) / 100| :=
      FloatFormat.abs_sub_nearest_le_of_normal (normal_cents amount.value)
    have first := abs_sub_abs_le_abs_sub amount.toDouble.value
      (generalOutput.nearest amount.toDouble.value)
    have second := abs_sub_abs_le_abs_sub ((amount.value : ℚ) / 100) amount.toDouble.value
    have cents : |(amount.value : ℚ) / 100| < 10 ^ 4 := by
      norm_num at printedNear doubleNear printedSmall ⊢
      linarith
    rw [abs_div, div_lt_iff₀ (by norm_num)] at cents
    norm_num at cents
    exact_mod_cast cents

/-! ## Transfers -/

/-- A transfer of whole cents that a client prints is carried out to the cent for
what has been printed, which is the amount of the client exactly if that has no
more than six digits. -/
theorem carriesOut_printed {database : Database} (regular : Regular database) (driver : Driver Double)
    (work : DatabaseWork) (generated : Generated) {fromId toId : ℤ} (fromFits : FitsInt fromId)
    (toFits : FitsInt toId) (amount : Cents)
    (inColumn : |generalOutput.nearest amount.toDouble.value| < 10 ^ 12) :
    Exists fun sent : Cents => generalOutput.nearest amount.toDouble.value = (sent.value : ℚ) / 100 ∧
      (sent = amount ↔ (Money.cents amount).HasSixDigits) ∧
      Exists fun answer => answerTo (bankServices (withParameters driver) showDouble work generated)
          (transferCommand fromId toId (.finite amount.toDouble)) database = some answer ∧
        CarriesOut work generated database fromId toId sent answer := by
  rcases exists_printed amount with ⟨sent, printed⟩
  have inRange : |sent| < 10 ^ 14 := by
    rw [printed, abs_div, div_lt_iff₀ (by norm_num)] at inColumn
    norm_num at inColumn
    exact_mod_cast inColumn
  have value : decimalValue (ascii (showDouble (.finite amount.toDouble))) =
      some (((⟨sent, inRange⟩ : Cents).value : ℚ) / 100) := by
    rw [← printed]
    exact decimalValue_cents amount
  have typed := typedTransfer_transferCommand fromFits toFits value
  refine ⟨⟨sent, inRange⟩, printed, ?_, _, answerTo_eq _ (endsInWord_transferCommand fromId toId _) database,
    typed.carriesOut regular driver work generated⟩
  rw [← nearest_eq_iff, printed]
  constructor
  · rintro rfl
    rfl
  · intro same
    have cents : (sent : ℚ) = amount.value := by linarith
    have integers : sent = amount.value := by exact_mod_cast cents
    cases amount
    cases integers
    rfl

/-- Of $12345.67 arrive $12345.70. -/
theorem carriesOut_printed_sevenDigits : Exists fun sent : Cents =>
    generalOutput.nearest (⟨1234567, by decide⟩ : Cents).toDouble.value = (sent.value : ℚ) / 100 ∧
      (sent = ⟨1234567, by decide⟩ ↔ (Money.cents ⟨1234567, by decide⟩).HasSixDigits) ∧
      Exists fun answer => answerTo (bankServices (withParameters doubleDriver) showDouble working
          ⟨some 1, none⟩) (transferCommand 1 2 (.finite (⟨1234567, by decide⟩ : Cents).toDouble))
          (twoAccounts (.cents ⟨2000000, by decide⟩) .zero) = some answer ∧
        CarriesOut working ⟨some 1, none⟩ (twoAccounts (.cents ⟨2000000, by decide⟩) .zero) 1 2 sent
          answer := by
  have regular : Regular (twoAccounts (.cents ⟨2000000, by decide⟩) .zero) :=
    regular_twoAccounts ⟨2000000, by decide⟩ ⟨0, by decide⟩
  exact carriesOut_printed regular doubleDriver working ⟨some 1, none⟩ ⟨by decide, by decide⟩
    ⟨by decide, by decide⟩ ⟨1234567, by decide⟩ (by decide +kernel)

/-! ## Many clients at once -/

section Concurrent

variable {Client : Type} [Fintype Client] {driver : Driver Double}

variable [DecidableEq Client]

end Concurrent

end CoreBank
