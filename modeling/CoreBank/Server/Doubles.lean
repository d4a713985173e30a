import CoreBank.Database.Numeric
import CoreBank.Foundation.ShortestDigits
import CoreBank.Server.Protocol

namespace CoreBank

open Foundation

/-!
# Doubles and their texts

`decimalValue` says which texts are decimal numbers, and their values.  A double
is read from such a text as the nearest one, and written by an output stream
with at most six significant digits, without zeros behind the last of them; the
exponent decides between the two notations.

The sign of a zero is not kept: no balance and no parameter of a statement
shows it.
-/

/-! ## Decimal numbers in text -/

/-- A sign in front: whether it is a minus, and the rest. -/
def splitSign : List Byte -> Bool × List Byte
  | [] => (false, [])
  | byte :: rest =>
      if byte = 45 then (true, rest) else if byte = 43 then (false, rest) else (false, byte :: rest)

/-- Digits only, and at least one. -/
def naturalValue (text : List Byte) : Option ℕ :=
  if text ≠ [] ∧ text.all isDigit then some (digitsValue text) else none

/-- A natural number behind an optional sign. -/
def integerValue (text : List Byte) : Option ℤ :=
  (naturalValue (splitSign text).2).map fun value : ℕ =>
    if (splitSign text).1 then -(value : ℤ) else value

/-- The exponent of a decimal number, which may be absent. -/
def exponentValue : List Byte -> Option ℤ
  | [] => some 0
  | byte :: rest => if byte = 101 ∨ byte = 69 then integerValue rest else none

/-- The digits behind a decimal point, which may be absent, and the rest. -/
def splitFraction : List Byte -> List Byte × List Byte
  | [] => ([], [])
  | byte :: rest =>
      if byte = 46 then (rest.takeWhile isDigit, rest.dropWhile isDigit) else ([], byte :: rest)

/-- Digits with an optional point among them and an optional exponent. -/
def unsignedValue (text : List Byte) : Option ℚ :=
  let whole := text.takeWhile isDigit
  let (fraction, rest) := splitFraction (text.dropWhile isDigit)
  if whole ++ fraction = [] then none
  else (exponentValue rest).map fun exponent : ℤ =>
    (digitsValue (whole ++ fraction) : ℚ) * 10 ^ (exponent - (fraction.length : ℤ))

/-- The value of a text that is in full a decimal number. -/
def decimalValue (text : List Byte) : Option ℚ :=
  (unsignedValue (splitSign text).2).map fun value => if (splitSign text).1 then -value else value

/-! ## Digits -/

theorem ascii_append (first second : String) : ascii (first ++ second) = ascii first ++ ascii second := by
  unfold ascii
  rw [String.toList_append, List.map_append]

theorem digitsValue_append_singleton (digits : List Byte) (digit : Byte) :
    digitsValue (digits ++ [digit]) = 10 * digitsValue digits + digitValue digit := by
  rw [digitsValue, List.foldl_append]
  rfl

theorem digitsValue_append (first second : List Byte) :
    digitsValue (first ++ second) = digitsValue first * 10 ^ second.length + digitsValue second := by
  induction second using List.reverseRecOn with
  | nil => simp [digitsValue]
  | append_singleton second digit inductionHypothesis =>
      rw [← List.append_assoc, digitsValue_append_singleton, digitsValue_append_singleton,
        inductionHypothesis, List.length_append, List.length_singleton, pow_succ]
      ring

/-- Digits that write a number, possibly behind zeros. -/
structure Writes (text : List Byte) (n : ℕ) : Prop where
  digits : forall byte, byte ∈ text -> isDigit byte = true
  value : digitsValue text = n

theorem Writes.append {first second : List Byte} {n m : ℕ} (writes : Writes first n)
    (also : Writes second m) : Writes (first ++ second) (n * 10 ^ second.length + m) where
  digits := by
    intro byte member
    exact (List.mem_append.mp member).elim (writes.digits byte) (also.digits byte)
  value := by
    rw [digitsValue_append, writes.value, also.value]

theorem writes_digit {n : ℕ} (small : n < 10) : Writes (ascii (toString n)) n := by
  have all : forall m : Fin 10, (ascii (toString m.val)).all isDigit = true ∧
      digitsValue (ascii (toString m.val)) = m.val := by decide
  rcases all ⟨n, small⟩ with ⟨digits, value⟩
  exact ⟨List.all_eq_true.mp digits, value⟩

theorem length_ascii (text : String) : (ascii text).length = text.length := by
  unfold ascii
  rw [List.length_map, String.length_toList]

/-- The text of a number writes it. -/
theorem writes_toString (n : ℕ) : Writes (ascii (toString n)) n := by
  induction n using Nat.strong_induction_on with
  | _ n inductionHypothesis =>
      by_cases small : n < 10
      · exact writes_digit small
      · have split : toString n = toString (n / 10) ++ toString (n % 10) :=
          Nat.repr_eq_repr_append_repr (not_lt.mp small)
        have last : n % 10 < 10 := Nat.mod_lt n (by norm_num)
        have one : (ascii (toString (n % 10))).length = 1 := by
          have all : forall m : Fin 10, (ascii (toString m.val)).length = 1 := by decide
          exact all ⟨n % 10, last⟩
        have both := (inductionHypothesis (n / 10) (by omega)).append (writes_digit last)
        rw [one, pow_one, Nat.div_add_mod' n 10] at both
        rw [split, ascii_append]
        exact both

theorem ascii_zeros (count : ℕ) :
    ascii (String.ofList (List.replicate count '0')) = List.replicate count 48 := by
  unfold ascii
  rw [String.toList_ofList, List.map_replicate]
  rfl

theorem writes_zeros (count : ℕ) : Writes (List.replicate count 48) 0 where
  digits := by
    intro byte member
    rw [List.eq_of_mem_replicate member]
    decide
  value := by
    induction count with
    | zero => rfl
    | succ count inductionHypothesis =>
        rw [List.replicate_succ', digitsValue_append_singleton, inductionHypothesis]
        rfl

theorem ascii_padded (width n : ℕ) : ascii (Decimal.padded width n) =
    List.replicate (width - (toString n).length) 48 ++ ascii (toString n) := by
  unfold Decimal.padded
  rw [ascii_append, ascii_zeros]

theorem writes_padded (width n : ℕ) : Writes (ascii (Decimal.padded width n)) n := by
  have both := (writes_zeros (width - (toString n).length)).append (writes_toString n)
  rw [zero_mul, zero_add] at both
  rw [ascii_padded]
  exact both

/-- Padded with zeros, a number that fits has exactly the width. -/
theorem length_padded {width n : ℕ} (fits : n < 10 ^ width) (wide : 0 < width) :
    (ascii (Decimal.padded width n)).length = width := by
  have short : (toString n).length ≤ width := (Nat.length_repr_le_iff wide).mpr fits
  rw [ascii_padded, List.length_append, List.length_replicate, length_ascii]
  omega

/-! ## Reading a printed decimal -/

/-- A text goes on with something else than a digit. -/
def Stops (rest : List Byte) : Prop :=
  forall byte, rest.head? = some byte -> isDigit byte = false

theorem takeWhile_digits {text rest : List Byte} (digits : forall byte, byte ∈ text -> isDigit byte = true)
    (stops : Stops rest) : (text ++ rest).takeWhile isDigit = text ∧
      (text ++ rest).dropWhile isDigit = rest := by
  rw [List.takeWhile_append_of_pos digits, List.dropWhile_append_of_pos digits]
  cases rest with
  | nil => exact ⟨List.append_nil text, rfl⟩
  | cons byte rest =>
      have other := stops byte rfl
      rw [List.takeWhile_cons_of_neg (by simp [other]), List.dropWhile_cons_of_neg (by simp [other])]
      exact ⟨List.append_nil text, rfl⟩

/-- An exponent is empty or starts with its letter. -/
theorem splitFraction_of_exponent {rest : List Byte} {e : ℤ} (exponent : exponentValue rest = some e) :
    Stops rest ∧ splitFraction rest = ([], rest) := by
  cases rest with
  | nil => exact ⟨fun byte impossible => (by cases impossible), rfl⟩
  | cons byte rest =>
      rw [exponentValue] at exponent
      split_ifs at exponent with letter
      have other : isDigit byte = false ∧ byte ≠ 46 := by
        rcases letter with rfl | rfl
        · decide
        · decide
      refine ⟨?_, if_neg other.2⟩
      intro first same
      cases same
      exact other.1

theorem unsignedValue_whole {whole rest : List Byte} {n : ℕ} {e : ℤ} (writes : Writes whole n)
    (filled : whole ≠ []) (exponent : exponentValue rest = some e) :
    unsignedValue (whole ++ rest) = some ((n : ℚ) * 10 ^ e) := by
  rcases splitFraction_of_exponent exponent with ⟨stops, noPoint⟩
  rcases takeWhile_digits writes.digits stops with ⟨taken, left⟩
  unfold unsignedValue
  simp only [taken, left, noPoint, List.append_nil, if_neg filled, exponent, Option.map_some,
    writes.value, List.length_nil, Nat.cast_zero, sub_zero]

theorem unsignedValue_fraction {whole fraction rest : List Byte} {n m : ℕ} {e : ℤ}
    (writes : Writes whole n) (filled : whole ≠ []) (behind : Writes fraction m)
    (exponent : exponentValue rest = some e) :
    unsignedValue (whole ++ 46 :: (fraction ++ rest)) =
      some (((n * 10 ^ fraction.length + m : ℕ) : ℚ) * 10 ^ (e - (fraction.length : ℤ))) := by
  have point : Stops (46 :: (fraction ++ rest)) := by
    intro byte same
    cases same
    decide
  rcases takeWhile_digits writes.digits point with ⟨taken, left⟩
  rcases takeWhile_digits behind.digits (splitFraction_of_exponent exponent).1 with
    ⟨takenBehind, leftBehind⟩
  have filledBoth : whole ++ fraction ≠ [] := List.append_ne_nil_of_left_ne_nil filled fraction
  unfold unsignedValue
  simp only [taken, left, splitFraction, if_true, takenBehind, leftBehind, if_neg filledBoth, exponent,
    Option.map_some, (writes.append behind).value]

theorem splitSign_of_writes {text : List Byte} {n : ℕ} (writes : Writes text n) (filled : text ≠ [])
    (rest : List Byte) : splitSign (text ++ rest) = (false, text ++ rest) := by
  cases text with
  | nil => exact absurd rfl filled
  | cons byte text =>
      have digit := writes.digits byte List.mem_cons_self
      have other : byte ≠ 45 ∧ byte ≠ 43 := by
        constructor
        · rintro rfl
          exact absurd digit (by decide)
        · rintro rfl
          exact absurd digit (by decide)
      rw [List.cons_append, splitSign, if_neg other.1, if_neg other.2]

theorem toString_filled (n : ℕ) : ascii (toString n) ≠ [] := by
  apply List.ne_nil_of_length_pos
  rw [length_ascii]
  exact Nat.length_repr_pos

/-- The digits of a decimal without its sign. -/
def Decimal.unsignedText (decimal : Decimal) : String :=
  if decimal.scale = 0 then toString (decimal.unscaled.natAbs / 10 ^ decimal.scale)
  else toString (decimal.unscaled.natAbs / 10 ^ decimal.scale) ++ "." ++
    Decimal.padded decimal.scale (decimal.unscaled.natAbs % 10 ^ decimal.scale)

theorem Decimal.text_eq (decimal : Decimal) :
    decimal.text = (if decimal.unscaled < 0 then "-" else "") ++ decimal.unsignedText := by
  unfold Decimal.text Decimal.unsignedText
  split_ifs with negative whole
  all_goals simp only [String.append_assoc]

/-- The digits give the magnitude back, in front of any exponent. -/
theorem unsignedValue_text (decimal : Decimal) {rest : List Byte} {e : ℤ}
    (exponent : exponentValue rest = some e) :
    unsignedValue (ascii decimal.unsignedText ++ rest) = some (|decimal.value| * 10 ^ e) ∧
      splitSign (ascii decimal.unsignedText ++ rest) = (false, ascii decimal.unsignedText ++ rest) := by
  have magnitude : |decimal.value| = (decimal.unscaled.natAbs : ℚ) / 10 ^ decimal.scale := by
    rw [Decimal.value, abs_div, abs_of_pos (by positivity : (0 : ℚ) < 10 ^ decimal.scale),
      Nat.cast_natAbs, Int.cast_abs]
  unfold Decimal.unsignedText
  split_ifs with whole
  · rw [magnitude, whole, pow_zero, pow_zero, Nat.div_one, div_one]
    exact ⟨unsignedValue_whole (writes_toString _) (toString_filled _) exponent,
      splitSign_of_writes (writes_toString _) (toString_filled _) rest⟩
  · have fits := Nat.mod_lt decimal.unscaled.natAbs (by positivity : 0 < 10 ^ decimal.scale)
    have behind := writes_padded decimal.scale (decimal.unscaled.natAbs % 10 ^ decimal.scale)
    have width := length_padded fits (Nat.pos_of_ne_zero whole)
    have parts : ascii (toString (decimal.unscaled.natAbs / 10 ^ decimal.scale) ++ "." ++
          Decimal.padded decimal.scale (decimal.unscaled.natAbs % 10 ^ decimal.scale)) ++ rest =
        ascii (toString (decimal.unscaled.natAbs / 10 ^ decimal.scale)) ++
          46 :: (ascii (Decimal.padded decimal.scale (decimal.unscaled.natAbs % 10 ^ decimal.scale)) ++
            rest) := by
      have point : ascii "." = [46] := rfl
      rw [ascii_append, ascii_append, point, List.append_assoc, List.append_assoc, List.singleton_append]
    rw [parts]
    refine ⟨?_, splitSign_of_writes (writes_toString _) (toString_filled _) _⟩
    have read := unsignedValue_fraction (writes_toString (decimal.unscaled.natAbs / 10 ^ decimal.scale))
      (toString_filled _) behind exponent
    rw [width, Nat.div_add_mod'] at read
    rw [read, magnitude, zpow_sub₀ (by norm_num : (10 : ℚ) ≠ 0), zpow_natCast, ← mul_div_assoc,
      div_mul_eq_mul_div]

/-- A printed decimal, in front of any exponent, is read back as its value. -/
theorem decimalValue_text (decimal : Decimal) {rest : List Byte} {e : ℤ}
    (exponent : exponentValue rest = some e) :
    decimalValue (ascii decimal.text ++ rest) = some (decimal.value * 10 ^ e) := by
  rcases unsignedValue_text decimal exponent with ⟨value, sign⟩
  rw [Decimal.text_eq]
  by_cases negative : decimal.unscaled < 0
  · have below : decimal.value < 0 :=
      div_neg_of_neg_of_pos (Int.cast_lt_zero.mpr negative) (by positivity)
    rw [if_pos negative, ascii_append, List.append_assoc]
    have minus : splitSign (ascii "-" ++ (ascii decimal.unsignedText ++ rest)) =
      (true, ascii decimal.unsignedText ++ rest) := rfl
    rw [decimalValue, minus, value, abs_of_neg below]
    simp
  · have above : 0 ≤ decimal.value :=
      div_nonneg (Int.cast_nonneg (not_lt.mp negative)) (by positivity)
    rw [if_neg negative, String.empty_append, decimalValue, sign, value, abs_of_nonneg above]
    rfl

/-! ## Doubles -/

/-- Binary64: 53 bits, the smallest unit being 2^-1074. -/
def binary64 : FloatFormat where
  base := 2
  digits := 53
  least := some (-1074)
  one_lt_base := by decide
  digits_pos := by decide

/-- A finite binary64 number. -/
structure FiniteDouble where
  value : ℚ
  represented : binary64.Represents value
  inRange : |value| < 2 ^ 1024

inductive Double where
  | nan
  | infinity (negative : Bool)
  | finite (number : FiniteDouble)

/-- The nearest double, unless that is out of range. -/
def FiniteDouble.nearest (x : ℚ) : Option FiniteDouble :=
  if inRange : |binary64.nearest x| < 2 ^ 1024 then
    some ⟨binary64.nearest x, FloatFormat.represents_nearest x, inRange⟩
  else none

/-- `strtod` where the whole text has to be read, as a stream requires it; a
number out of range fails. -/
def strtod (text : List Byte) : Option Double :=
  (decimalValue text).bind fun value => (FiniteDouble.nearest value).map .finite

/-! ## Output -/

/-- An output stream keeps six significant digits. -/
def generalOutput : FloatFormat where
  base := 10
  digits := 6
  least := none
  one_lt_base := by decide
  digits_pos := by decide

/-- Without zeros behind the last digit of the fraction. -/
def stripZeros (unscaled : ℤ) : ℕ -> Decimal
  | 0 => ⟨unscaled, 0⟩
  | scale + 1 => if unscaled % 10 = 0 then stripZeros (unscaled / 10) scale else ⟨unscaled, scale + 1⟩

/-- A signed exponent with two digits at least. -/
def exponentText (exponent : ℤ) : String :=
  "e" ++ (if exponent < 0 then "-" else "+") ++ Decimal.padded 2 exponent.natAbs

/-- The six digits and the exponent of the first one. -/
def generalDigits (x : ℚ) : ℤ × ℤ :=
  let digits := generalOutput.significand x
  let exponent := generalOutput.exponent x + 5
  if digits.natAbs = 10 ^ 6 then (digits / 10, exponent + 1) else (digits, exponent)

/-- A number in the format `%g` with six digits. -/
def generalText (x : ℚ) : String :=
  let (digits, exponent) := generalDigits x
  if -4 ≤ exponent ∧ exponent < 6 then (stripZeros digits (5 - exponent).toNat).text
  else (stripZeros digits 5).text ++ exponentText exponent

/-- `<<` of a `double`. -/
def showDouble : Double -> String
  | .nan => "nan"
  | .infinity negative => if negative then "-inf" else "inf"
  | .finite number => generalText number.value

/-- What `std::to_chars` writes of a double: the fewest digits that are read back
as the same one.  A whole number has all of its digits where the fixed notation
is not longer than the scientific one. -/
def FiniteDouble.shortest (number : FiniteDouble) : Decimal :=
  let (digits, exponent) :=
    (binary64.shortest 10 generalOutput.one_lt_base 17 number.value).getD (0, 0)
  if 0 < exponent ∧ exponent ≤ (if digits.natAbs < 10 then 4 else 5) then ⟨number.value.num, 0⟩
  else ⟨digits * 10 ^ exponent.toNat, (-exponent).toNat⟩

/-- A double as the parameter of a statement. -/
def Double.parameter : Double -> Numeric
  | .nan => .nan
  | .infinity negative => if negative then .negInfinity else .posInfinity
  | .finite number => .finite number.shortest

/-! ## Reading the output back -/

theorem value_stripZeros (unscaled : ℤ) (scale : ℕ) :
    (stripZeros unscaled scale).value = unscaled / 10 ^ scale := by
  induction scale generalizing unscaled with
  | zero => rfl
  | succ scale inductionHypothesis =>
      rw [stripZeros]
      split_ifs with trailing
      · have tens : unscaled = unscaled / 10 * 10 := by omega
        have cast : (unscaled : ℚ) = ((unscaled / 10 : ℤ) : ℚ) * 10 := by exact_mod_cast tens
        rw [inductionHypothesis, cast, pow_succ, mul_div_mul_right _ _ (by norm_num)]
      · rfl

theorem value_generalDigits (x : ℚ) :
    ((generalDigits x).1 : ℚ) * 10 ^ ((generalDigits x).2 - 5) = generalOutput.nearest x := by
  have shown : generalOutput.nearest x =
      (generalOutput.significand x : ℚ) * 10 ^ generalOutput.exponent x := rfl
  unfold generalDigits
  rw [shown]
  dsimp only
  split_ifs with carry
  · have tens : generalOutput.significand x = generalOutput.significand x / 10 * 10 := by omega
    have cast : (generalOutput.significand x : ℚ) = ((generalOutput.significand x / 10 : ℤ) : ℚ) * 10 := by
      exact_mod_cast tens
    have exponent : generalOutput.exponent x + 5 + 1 - 5 = generalOutput.exponent x + 1 := by ring
    rw [cast, exponent, zpow_add_one₀ (by norm_num)]
    ring
  · rw [add_sub_cancel_right]

theorem exponentValue_exponentText (exponent : ℤ) :
    exponentValue (ascii (exponentText exponent)) = some exponent := by
  have writes := writes_padded 2 exponent.natAbs
  have filled : ascii (Decimal.padded 2 exponent.natAbs) ≠ [] := by
    rw [ascii_padded]
    exact List.append_ne_nil_of_right_ne_nil _ (toString_filled _)
  have natural : naturalValue (ascii (Decimal.padded 2 exponent.natAbs)) = some exponent.natAbs := by
    rw [naturalValue, if_pos ⟨filled, List.all_eq_true.mpr writes.digits⟩, writes.value]
  unfold exponentText
  rw [ascii_append, ascii_append]
  split_ifs with negative
  · have parts : ascii "e" ++ ascii "-" = [101, 45] := rfl
    have minus : forall digits : List Byte, exponentValue ([101, 45] ++ digits) =
      (naturalValue digits).map fun value : ℕ => -(value : ℤ) := fun _ => rfl
    have value : -(exponent.natAbs : ℤ) = exponent := by omega
    rw [parts, minus, natural, Option.map_some, value]
  · have parts : ascii "e" ++ ascii "+" = [101, 43] := rfl
    have plus : forall digits : List Byte, exponentValue ([101, 43] ++ digits) =
      (naturalValue digits).map fun value : ℕ => (value : ℤ) := fun _ => rfl
    have value : (exponent.natAbs : ℤ) = exponent := by omega
    rw [parts, plus, natural, Option.map_some, value]

/-- The output is a decimal number: the nearest one with six significant
digits. -/
theorem decimalValue_generalText (x : ℚ) :
    decimalValue (ascii (generalText x)) = some (generalOutput.nearest x) := by
  rw [← value_generalDigits]
  unfold generalText
  dsimp only
  generalize (generalDigits x).1 = digits
  generalize (generalDigits x).2 = exponent
  split_ifs with fixed
  · have plain : exponentValue [] = some 0 := rfl
    have read := decimalValue_text (stripZeros digits (5 - exponent).toNat) plain
    rcases Int.toNat_of_nonneg (by omega : 0 ≤ 5 - exponent) with scale
    rw [List.append_nil, zpow_zero, mul_one, value_stripZeros] at read
    rw [read, ← zpow_natCast, scale, div_eq_mul_inv, ← zpow_neg, neg_sub]
  · have read := decimalValue_text (stripZeros digits 5) (exponentValue_exponentText exponent)
    rw [ascii_append, read, value_stripZeros, zpow_sub₀ (by norm_num : (10 : ℚ) ≠ 0), zpow_ofNat,
      div_mul_eq_mul_div, mul_div_assoc]

example : generalText (123456789 / 100) = "1.23457e+06" := by
  decide +kernel

end CoreBank
