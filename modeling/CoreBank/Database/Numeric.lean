import CoreBank.Foundation.Rounding
import Mathlib.Algebra.Order.Monoid.WithTop
import Mathlib.Algebra.Order.Floor.Semiring
import Mathlib.Data.Rat.Floor
import Mathlib.Tactic.FieldSimp

namespace CoreBank

open Foundation

/-!
# PostgreSQL numeric values and the column NUMERIC(14,2)

An expression of type `numeric` has no bound on its scale and may be `NaN` or
one of the infinities.  A column of type `NUMERIC(14,2)` rounds what is stored
in it to two decimals, half away from zero; it keeps `NaN`, refuses the
infinities, and refuses a rounded magnitude of 10^12 or more.

`NaN` equals itself and is greater than every other value.  An operand that is
`NULL` is an absent value here, and a comparison with it is neither true nor
false.
-/

/-- A finite decimal: `unscaled` divided by ten to the display scale. -/
structure Decimal where
  unscaled : ℤ
  scale : ℕ
  deriving DecidableEq, Repr

namespace Decimal

def value (decimal : Decimal) : ℚ :=
  decimal.unscaled / 10 ^ decimal.scale

/-- Rewrite a decimal at a larger scale. -/
def rescale (decimal : Decimal) (scale : ℕ) : ℤ :=
  decimal.unscaled * 10 ^ (scale - decimal.scale)

/-- The sum keeps the larger display scale. -/
def add (left right : Decimal) : Decimal where
  unscaled := left.rescale (max left.scale right.scale) + right.rescale (max left.scale right.scale)
  scale := max left.scale right.scale

def neg (decimal : Decimal) : Decimal where
  unscaled := -decimal.unscaled
  scale := decimal.scale

theorem value_rescale (decimal : Decimal) {scale : ℕ} (enough : decimal.scale ≤ scale) :
    (decimal.rescale scale : ℚ) / 10 ^ scale = decimal.value := by
  rcases Nat.exists_eq_add_of_le enough with ⟨extra, rfl⟩
  have power : (10 : ℚ) ^ decimal.scale ≠ 0 := pow_ne_zero _ (by norm_num)
  have extraPower : (10 : ℚ) ^ extra ≠ 0 := pow_ne_zero _ (by norm_num)
  rw [rescale, value, Nat.add_sub_cancel_left, pow_add]
  push_cast
  field_simp

@[simp] theorem value_add (left right : Decimal) :
    (left.add right).value = left.value + right.value := by
  rw [← value_rescale left (le_max_left left.scale right.scale),
    ← value_rescale right (le_max_right left.scale right.scale), ← add_div]
  simp only [value, add, Int.cast_add]

@[simp] theorem value_neg (decimal : Decimal) : decimal.neg.value = -decimal.value := by
  simp only [value, neg, Int.cast_neg, neg_div]

@[simp] theorem value_zero : Decimal.value ⟨0, 0⟩ = 0 := by
  simp only [value, Int.cast_zero, zero_div]

theorem value_cents (cents : ℤ) : Decimal.value ⟨cents, 2⟩ = (cents : ℚ) / 100 := by
  simp only [value]
  norm_num

/-- The digits of a natural number, padded with zeros on the left. -/
def padded (width number : ℕ) : String :=
  let digits := toString number
  String.ofList (List.replicate (width - digits.length) '0') ++ digits

/-- The text of a decimal at its display scale. -/
def text (decimal : Decimal) : String :=
  let magnitude := decimal.unscaled.natAbs
  let sign := if decimal.unscaled < 0 then "-" else ""
  let whole := toString (magnitude / 10 ^ decimal.scale)
  if decimal.scale = 0 then sign ++ whole
  else sign ++ whole ++ "." ++ padded decimal.scale (magnitude % 10 ^ decimal.scale)

end Decimal

/-- A value of type `numeric`. -/
inductive Numeric where
  | nan
  | negInfinity
  | finite (decimal : Decimal)
  | posInfinity
  deriving DecidableEq, Repr

namespace Numeric

def zero : Numeric :=
  .finite ⟨0, 0⟩

def neg : Numeric -> Numeric
  | .nan => .nan
  | .negInfinity => .posInfinity
  | .finite decimal => .finite decimal.neg
  | .posInfinity => .negInfinity

/-- Addition; opposite infinities have no sum. -/
def add : Numeric -> Numeric -> Numeric
  | .nan, _ | _, .nan => .nan
  | .negInfinity, .posInfinity | .posInfinity, .negInfinity => .nan
  | .negInfinity, _ | _, .negInfinity => .negInfinity
  | .posInfinity, _ | _, .posInfinity => .posInfinity
  | .finite left, .finite right => .finite (left.add right)

def sub (left right : Numeric) : Numeric :=
  left.add right.neg

/-- The order of `numeric`: `NaN` is above every other value. -/
def less : Numeric -> Numeric -> Bool
  | .nan, _ => false
  | _, .nan => true
  | _, .negInfinity => false
  | .negInfinity, _ => true
  | .posInfinity, _ => false
  | _, .posInfinity => true
  | .finite left, .finite right => decide (left.value < right.value)

def lessOrEqual (left right : Numeric) : Bool :=
  !right.less left

@[simp] theorem less_finite (left right : Decimal) :
    (Numeric.finite left).less (.finite right) = true ↔ left.value < right.value :=
  decide_eq_true_iff

@[simp] theorem zero_less_finite (decimal : Decimal) :
    zero.less (.finite decimal) = true ↔ 0 < decimal.value := by
  rw [zero, less_finite, Decimal.value_zero]

@[simp] theorem finite_less_zero (decimal : Decimal) :
    (Numeric.finite decimal).less zero = true ↔ decimal.value < 0 := by
  rw [zero, less_finite, Decimal.value_zero]

def text : Numeric -> String
  | .nan => "NaN"
  | .negInfinity => "-Infinity"
  | .finite decimal => decimal.text
  | .posInfinity => "Infinity"

end Numeric

/-- A comparison in a condition: true only when both operands are present and
the comparison holds. -/
def holds (compare : Numeric -> Numeric -> Bool) : Option Numeric -> Option Numeric -> Bool
  | some left, some right => compare left right
  | _, _ => false

/-- The whole cents a NUMERIC(14,2) column can hold. -/
structure Cents where
  value : ℤ
  inRange : |value| < 10 ^ 14
  deriving DecidableEq, Repr

/-- A value stored in a NUMERIC(14,2) column. -/
inductive Money where
  | nan
  | cents (amount : Cents)
  deriving DecidableEq, Repr

namespace Money

/-- Read a stored value back as a `numeric` of display scale two. -/
def toNumeric : Money -> Numeric
  | .nan => .nan
  | .cents amount => .finite ⟨amount.value, 2⟩

/-- Store a `numeric` in the column; nothing is stored on a field overflow. -/
def store : Numeric -> Option Money
  | .nan => some .nan
  | .finite decimal =>
      if inRange : |roundAway (decimal.value * 100)| < 10 ^ 14 then
        some (.cents ⟨roundAway (decimal.value * 100), inRange⟩)
      else none
  | .negInfinity | .posInfinity => none

def zero : Money :=
  .cents ⟨0, by decide⟩

/-- The value in cents, with `NaN` as the greatest and absorbing element. -/
def measure : Money -> WithTop ℤ
  | .nan => ⊤
  | .cents amount => (amount.value : WithTop ℤ)

/-- The measure of a value that leaves an account; `NaN` has no opposite. -/
def outflow : Money -> WithTop ℤ
  | .nan => ⊤
  | .cents amount => ((-amount.value : ℤ) : WithTop ℤ)

@[simp] theorem measure_nan : Money.nan.measure = ⊤ := rfl

@[simp] theorem measure_cents (amount : Cents) :
    (Money.cents amount).measure = (amount.value : WithTop ℤ) := rfl

@[simp] theorem outflow_nan : Money.nan.outflow = ⊤ := rfl

@[simp] theorem outflow_cents (amount : Cents) :
    (Money.cents amount).outflow = ((-amount.value : ℤ) : WithTop ℤ) := rfl

theorem store_finite_eq_some {decimal : Decimal} {stored : Money}
    (success : store (.finite decimal) = some stored) :
    Exists fun inRange => stored = .cents ⟨roundAway (decimal.value * 100), inRange⟩ := by
  simp only [store] at success
  split at success
  · rename_i inRange
    exact ⟨inRange, (Option.some.inj success).symm⟩
  · cases success

/-- What was stored once is stored again without change. -/
theorem store_toNumeric (money : Money) : store money.toNumeric = some money := by
  cases money with
  | nan => rfl
  | cents amount =>
      have exact : (Decimal.value ⟨amount.value, 2⟩) * 100 = (amount.value : ℚ) := by
        rw [Decimal.value_cents]
        ring
      simp only [toNumeric, store, exact, roundAway_intCast, amount.inRange, dif_pos]

end Money

namespace Decimal

/-- The number of cents of a decimal, before any rounding. -/
def inCents (decimal : Decimal) : ℚ :=
  decimal.value * 100

theorem inCents_neg (decimal : Decimal) : decimal.neg.inCents = -decimal.inCents := by
  rw [inCents, inCents, value_neg, neg_mul]

/-- A whole number of cents, the amounts the documentation works with. -/
def IsWholeCent (decimal : Decimal) : Prop :=
  decimal.inCents = ⌊decimal.inCents⌋

/-- An odd number of half cents. -/
def IsHalfCent (decimal : Decimal) : Prop :=
  IsTie decimal.inCents

instance (decimal : Decimal) : Decidable decimal.IsWholeCent :=
  inferInstanceAs (Decidable (_ = _))

instance (decimal : Decimal) : Decidable decimal.IsHalfCent :=
  inferInstanceAs (Decidable (IsTie _))

theorem IsWholeCent.not_isHalfCent {decimal : Decimal} (whole : decimal.IsWholeCent) :
    ¬ decimal.IsHalfCent := by
  intro tie
  rw [IsHalfCent, IsTie, Int.fract, ← whole, sub_self] at tie
  norm_num at tie

end Decimal

namespace Money

/-- Storing a stored balance plus a finite amount. -/
theorem store_add (amount : Cents) (decimal : Decimal) :
    store ((Money.cents amount).toNumeric.add (.finite decimal)) =
      if inRange : |roundAway ((amount.value : ℚ) + decimal.inCents)| < 10 ^ 14 then
        some (.cents ⟨roundAway ((amount.value : ℚ) + decimal.inCents), inRange⟩)
      else none := by
  have sum : (Decimal.add ⟨amount.value, 2⟩ decimal).value * 100 =
      (amount.value : ℚ) + decimal.inCents := by
    rw [Decimal.value_add, Decimal.inCents, Decimal.value_cents]
    ring
  simp only [toNumeric, Numeric.add, store, sum]

/-- Storing a stored balance less a finite amount. -/
theorem store_sub (amount : Cents) (decimal : Decimal) :
    store ((Money.cents amount).toNumeric.sub (.finite decimal)) =
      if inRange : |roundAway ((amount.value : ℚ) - decimal.inCents)| < 10 ^ 14 then
        some (.cents ⟨roundAway ((amount.value : ℚ) - decimal.inCents), inRange⟩)
      else none := by
  rw [Numeric.sub, Numeric.neg, store_add, Decimal.inCents_neg]
  simp only [sub_eq_add_neg]

end Money

/-! ## Sums

Addition takes the larger display scale, so neither it nor a sum over rows
depends on the order of the operands. -/

namespace Decimal

theorem rescale_rescale (decimal : Decimal) {between scale : ℕ} (enough : decimal.scale ≤ between)
    (more : between ≤ scale) :
    decimal.rescale between * 10 ^ (scale - between) = decimal.rescale scale := by
  rw [rescale, rescale, mul_assoc, ← pow_add]
  congr 2
  omega

theorem rescale_add (left right : Decimal) {scale : ℕ} (enough : max left.scale right.scale ≤ scale) :
    (left.add right).rescale scale = left.rescale scale + right.rescale scale := by
  have sum : (left.add right).rescale scale =
      (left.rescale (max left.scale right.scale) + right.rescale (max left.scale right.scale)) *
        10 ^ (scale - max left.scale right.scale) := rfl
  rw [sum, add_mul, rescale_rescale left (le_max_left _ _) enough,
    rescale_rescale right (le_max_right _ _) enough]

theorem add_eq_add_iff {first second third fourth : Decimal}
    (scales : max first.scale second.scale = max third.scale fourth.scale)
    (values : first.rescale (max third.scale fourth.scale) + second.rescale (max third.scale fourth.scale) =
      third.rescale (max third.scale fourth.scale) + fourth.rescale (max third.scale fourth.scale)) :
    first.add second = third.add fourth := by
  rw [add, add, scales, values]

protected theorem add_comm (left right : Decimal) : left.add right = right.add left := by
  refine add_eq_add_iff (max_comm _ _) ?_
  rw [add_comm]

protected theorem add_assoc (first second third : Decimal) :
    (first.add second).add third = first.add (second.add third) := by
  refine add_eq_add_iff (max_assoc _ _ _) ?_
  have outer : max first.scale second.scale ≤ max first.scale (second.add third).scale :=
    max_le_max le_rfl (le_max_left _ _)
  have inner : max second.scale third.scale ≤ max first.scale (second.add third).scale :=
    le_max_right _ _
  rw [rescale_add first second outer, rescale_add second third inner, add_assoc]

protected theorem zero_add (decimal : Decimal) : Decimal.add ⟨0, 0⟩ decimal = decimal := by
  rcases decimal with ⟨unscaled, scale⟩
  simp [add, rescale]

end Decimal

namespace Numeric

protected theorem add_comm (left right : Numeric) : left.add right = right.add left := by
  cases left <;> cases right <;> first | rfl | exact congrArg finite (Decimal.add_comm _ _)

protected theorem add_assoc (first second third : Numeric) :
    (first.add second).add third = first.add (second.add third) := by
  cases first <;> cases second <;> cases third <;>
    first | rfl | exact congrArg finite (Decimal.add_assoc _ _ _)

protected theorem zero_add (value : Numeric) : zero.add value = value := by
  cases value with
  | finite decimal => exact congrArg finite decimal.zero_add
  | nan => rfl
  | negInfinity => rfl
  | posInfinity => rfl

instance : Zero Numeric := ⟨zero⟩

instance : Add Numeric := ⟨add⟩

instance : AddCommMonoid Numeric where
  add_assoc := Numeric.add_assoc
  add_comm := Numeric.add_comm
  zero_add := Numeric.zero_add
  add_zero value := (Numeric.add_comm value zero).trans value.zero_add
  nsmul := nsmulRec

theorem sub_eq_add (left right : Numeric) : left.sub right = left + right.neg := rfl

theorem add_eq_add (left right : Numeric) : left.add right = left + right := rfl

end Numeric

end CoreBank
