import Mathlib.Algebra.Order.Round
import Mathlib.Data.Int.ConditionallyCompleteOrder
import Mathlib.Data.Int.Log
import Mathlib.Tactic.FieldSimp
import Mathlib.Tactic.Linarith
import Mathlib.Tactic.NormNum
import Mathlib.Tactic.Positivity
import Mathlib.Tactic.Ring

namespace CoreBank
namespace Foundation

/-!
# Rounding to significant digits

A format keeps a fixed number of digits in some base, and rounds to the nearest
number that has no more of them, a tie going to an even last digit.  Binary
floating point and the general output format of numbers are both of this kind.

A number that passes through a fine format and then through a coarse one comes
out unchanged exactly if it fits into the coarse one: the error of the first
rounding is too small for the second to miss it.
-/

variable {K : Type*} [Field K] [LinearOrder K] [IsStrictOrderedRing K] [FloorRing K]

/-! ## The nearest integer -/

/-- The nearest integer, a tie going to the even one. -/
def roundEven (x : K) : ℤ :=
  if Int.fract x < 1 - Int.fract x then ⌊x⌋
  else if 1 - Int.fract x < Int.fract x then ⌊x⌋ + 1
  else if Even ⌊x⌋ then ⌊x⌋
  else ⌊x⌋ + 1

theorem abs_sub_roundEven_le (x : K) : |x - roundEven x| ≤ 1 / 2 := by
  have parts := Int.floor_add_fract x
  have nonneg := Int.fract_nonneg x
  have ltOne := Int.fract_lt_one x
  rw [abs_le, roundEven]
  split_ifs with below above even
  all_goals push_cast
  all_goals constructor
  all_goals linarith

/-- An integer that is closer than one half is the nearest one. -/
theorem roundEven_eq_of_close {x : K} {n : ℤ} (close : |x - n| < 1 / 2) : roundEven x = n := by
  have nearest := abs_le.mp (abs_sub_roundEven_le x)
  have closeTo := abs_lt.mp close
  have below : (roundEven x : K) < ((n + 1 : ℤ) : K) := by
    push_cast
    linarith
  have above : (n : K) < ((roundEven x + 1 : ℤ) : K) := by
    push_cast
    linarith
  have first := Int.cast_lt.mp below
  have second := Int.cast_lt.mp above
  omega

@[simp] theorem roundEven_intCast (n : ℤ) : roundEven (n : K) = n := by
  apply roundEven_eq_of_close
  rw [sub_self, abs_zero]
  norm_num

/-! ## Formats -/

/-- Numbers with a bounded number of digits in a base; `least` is the exponent
of the last digit of the smallest numbers, if there is one. -/
structure FloatFormat where
  base : ℕ
  digits : ℕ
  least : Option ℤ
  one_lt_base : 1 < base
  digits_pos : 0 < digits

namespace FloatFormat

variable (format : FloatFormat)

/-- The exponent of the last digit of a number. -/
def exponent (x : K) : ℤ :=
  match format.least with
  | none => Int.log format.base |x| - (format.digits - 1)
  | some least => max least (Int.log format.base |x| - (format.digits - 1))

/-- The value of one in the last digit. -/
def spacing (x : K) : K :=
  (format.base : K) ^ format.exponent x

/-- The number in units of its last digit. -/
def significand (x : K) : ℤ :=
  roundEven (x / format.spacing x)

/-- The nearest number of the format. -/
def nearest (x : K) : K :=
  format.significand x * format.spacing x

/-- The number has no more digits than the format keeps. -/
def Represents (x : K) : Prop :=
  Exists fun m : ℤ => Exists fun e : ℤ => |m| < (format.base : ℤ) ^ format.digits ∧
    (forall least, format.least = some least -> least ≤ e) ∧ x = m * (format.base : K) ^ e

/-- The number is zero or large enough to keep all its digits. -/
def Normal (x : K) : Prop :=
  x ≠ 0 -> forall least, format.least = some least ->
    least ≤ Int.log format.base |x| - (format.digits - 1)

variable {format}

omit [FloorRing K] in
theorem base_pos : (0 : K) < format.base :=
  Nat.cast_pos.mpr (Nat.zero_lt_of_lt format.one_lt_base)

variable (format) in
theorem spacing_pos (x : K) : 0 < format.spacing x :=
  zpow_pos base_pos _

variable (format) in
omit [IsStrictOrderedRing K] in
theorem own_le_exponent (x : K) :
    Int.log format.base |x| - (format.digits - 1) ≤ format.exponent x := by
  unfold exponent
  cases format.least with
  | none => exact le_refl _
  | some least => exact le_max_right _ _

variable (format) in
omit [IsStrictOrderedRing K] in
theorem least_le_exponent (x : K) {least : ℤ} (bounded : format.least = some least) :
    least ≤ format.exponent x := by
  unfold exponent
  rw [bounded]
  exact le_max_left _ _

omit [IsStrictOrderedRing K] in
/-- A normal number keeps as many digits as there are. -/
theorem exponent_of_normal {x : K} (nonzero : x ≠ 0) (normal : format.Normal x) :
    format.exponent x = Int.log format.base |x| - (format.digits - 1) := by
  unfold exponent
  cases bounded : format.least with
  | none => rfl
  | some least => exact max_eq_right (normal nonzero least bounded)

@[simp] theorem nearest_zero : format.nearest (0 : K) = 0 := by
  have zero : roundEven (0 : K) = 0 := by simpa using roundEven_intCast (K := K) 0
  rw [nearest, significand, zero_div, zero, Int.cast_zero, zero_mul]

theorem abs_sub_nearest_le (x : K) : |x - format.nearest x| ≤ format.spacing x / 2 := by
  have positive := format.spacing_pos x
  have split : x - format.nearest x =
      (x / format.spacing x - roundEven (x / format.spacing x)) * format.spacing x := by
    rw [nearest, significand, sub_mul, div_mul_cancel₀ x positive.ne']
  rw [split, abs_mul, abs_of_pos positive]
  have close := abs_sub_roundEven_le (x / format.spacing x)
  calc |x / format.spacing x - roundEven (x / format.spacing x)| * format.spacing x
      ≤ 1 / 2 * format.spacing x := mul_le_mul_of_nonneg_right close positive.le
    _ = format.spacing x / 2 := by ring

/-- A multiple of the last digit that is closer than half of it is the nearest
number. -/
theorem nearest_eq_of_close {x : K} (n : ℤ) (close : |x - n * format.spacing x| < format.spacing x / 2) :
    format.nearest x = n * format.spacing x := by
  have positive := format.spacing_pos x
  have same : format.significand x = n := by
    apply roundEven_eq_of_close
    have split : x / format.spacing x - n = (x - n * format.spacing x) / format.spacing x := by
      rw [sub_div, mul_div_cancel_right₀ _ positive.ne']
    rw [split, abs_div, abs_of_pos positive, div_lt_iff₀ positive]
    linarith
  rw [nearest, same]

/-! ## Numbers of the format -/

variable (format) in
theorem abs_lt_spacing (x : K) :
    |x| < (format.base : K) ^ format.digits * format.spacing x := by
  have one_lt : (1 : K) < format.base := Nat.one_lt_cast.mpr format.one_lt_base
  have below := Int.lt_zpow_succ_log_self format.one_lt_base |x|
  have own := format.own_le_exponent x
  rw [spacing, ← zpow_natCast, ← zpow_add₀ base_pos.ne']
  apply below.trans_le
  apply zpow_le_zpow_right₀ one_lt.le
  omega

variable (format) in
theorem abs_significand_le (x : K) : |format.significand x| ≤ (format.base : ℤ) ^ format.digits := by
  have positive := format.spacing_pos x
  have scaled : |x / format.spacing x| < (format.base : K) ^ format.digits := by
    rw [abs_div, abs_of_pos positive, div_lt_iff₀ positive]
    exact format.abs_lt_spacing x
  have close := abs_le.mp (abs_sub_roundEven_le (x / format.spacing x))
  have range := abs_lt.mp scaled
  have upper : (format.significand x : K) < ((format.base ^ format.digits + 1 : ℤ) : K) := by
    push_cast
    rw [significand]
    linarith
  have lower : ((-(format.base ^ format.digits) - 1 : ℤ) : K) < format.significand x := by
    push_cast
    rw [significand]
    linarith
  have first := Int.cast_lt.mp upper
  have second := Int.cast_lt.mp lower
  rw [abs_le]
  omega

/-- Up to the next power of the base, a multiple of the last digit is a number
of the format. -/
theorem represents_mul_spacing {x : K} {m : ℤ} (bound : |m| ≤ (format.base : ℤ) ^ format.digits) :
    format.Represents (m * format.spacing x) := by
  have positive : (1 : ℤ) < format.base := Nat.one_lt_cast.mpr format.one_lt_base
  rcases lt_or_eq_of_le bound with fits | carry
  · exact ⟨m, format.exponent x, fits, fun least bounded => format.least_le_exponent x bounded, rfl⟩
  · -- The next power of the base is one with a larger exponent.
    rcases Nat.exists_eq_add_of_le format.digits_pos with ⟨more, digits⟩
    refine ⟨m.sign * (format.base : ℤ) ^ more, format.exponent x + 1, ?_, ?_, ?_⟩
    · have nonzero : m ≠ 0 := by
        intro zero
        rw [zero, abs_zero] at carry
        exact (pow_pos (by omega) _).ne carry
      rw [abs_mul, Int.abs_sign_of_ne_zero nonzero, one_mul, abs_of_pos (pow_pos (by omega) _), digits]
      exact pow_lt_pow_right₀ positive (by omega)
    · intro least bounded
      have start := format.least_le_exponent x bounded
      omega
    · have split := Int.sign_mul_abs m
      rw [carry, digits] at split
      have value : (m : K) = m.sign * (format.base : K) ^ (Nat.succ 0 + more) := by
        exact_mod_cast split.symm
      rw [value, spacing, zpow_add_one₀ base_pos.ne', pow_add]
      push_cast
      ring

/-- What the rounding gives has no more digits than the format keeps. -/
theorem represents_nearest (x : K) : format.Represents (format.nearest x) :=
  represents_mul_spacing (format.abs_significand_le x)

/-- A number of the format is its own nearest one. -/
theorem nearest_of_represents {x : K} (represents : format.Represents x) : format.nearest x = x := by
  rcases represents with ⟨m, e, bounded, enough, value⟩
  by_cases zero : x = 0
  · rw [zero, nearest_zero]
  · have digit : (0 : K) < (format.base : K) ^ e := zpow_pos base_pos e
    have below : |x| < (format.base : K) ^ ((format.digits : ℤ) + e) := by
      have cast : (|m| : K) < (format.base : K) ^ format.digits := by exact_mod_cast bounded
      rw [zpow_add₀ base_pos.ne', zpow_natCast, value, abs_mul, abs_of_pos digit]
      exact mul_lt_mul_of_pos_right cast digit
    have log := (Int.lt_zpow_iff_log_lt format.one_lt_base (abs_pos.mpr zero)).mp below
    have small : format.exponent x ≤ e := by
      unfold exponent
      cases least : format.least with
      | none =>
          change Int.log format.base |x| - (format.digits - 1) ≤ e
          omega
      | some first => exact max_le (enough first least) (by omega)
    rcases Int.le.dest small with ⟨more, rfl⟩
    have multiple : x = ((m * (format.base : ℤ) ^ more : ℤ) : K) * format.spacing x := by
      conv_lhs => rw [value]
      rw [spacing, zpow_add₀ base_pos.ne', zpow_natCast]
      push_cast
      ring
    have close : |x - ((m * (format.base : ℤ) ^ more : ℤ) : K) * format.spacing x| <
        format.spacing x / 2 := by
      rw [← multiple, sub_self, abs_zero]
      exact half_pos (format.spacing_pos x)
    rw [nearest_eq_of_close _ close, ← multiple]

/-- A number is normal if its nearest one is large enough. -/
theorem normal_of_nearest {x : K} (large : forall least, format.least = some least ->
    (format.base : K) ^ (least + format.digits) ≤ |format.nearest x|) : format.Normal x := by
  intro nonzero least bounded
  by_contra tiny
  have reaches := large least bounded
  have digit : (0 : K) < (format.base : K) ^ least := zpow_pos base_pos least
  have exponent : format.exponent x = least := by
    unfold FloatFormat.exponent
    rw [bounded]
    exact max_eq_left (by omega)
  have close : |x - format.nearest x| ≤ format.spacing x / 2 := abs_sub_nearest_le x
  rw [abs_sub_comm, spacing, exponent] at close
  have apart := abs_sub_abs_le_abs_sub (format.nearest x) x
  have one_lt : (1 : K) < format.base := Nat.one_lt_cast.mpr format.one_lt_base
  have below : |x| < (format.base : K) ^ (least + format.digits - 1) := by
    apply (Int.lt_zpow_succ_log_self format.one_lt_base |x|).trans_le
    apply zpow_le_zpow_right₀ one_lt.le
    omega
  have grows : (format.base : K) ^ least ≤ (format.base : K) ^ (least + format.digits - 1) := by
    apply zpow_le_zpow_right₀ one_lt.le
    have some := format.digits_pos
    omega
  have twice : (2 : K) ≤ format.base := by exact_mod_cast format.one_lt_base
  have next : (format.base : K) ^ (least + format.digits) =
      format.base * (format.base : K) ^ (least + format.digits - 1) := by
    rw [← zpow_one_add₀ base_pos.ne']
    congr 1
    ring
  have doubled := mul_le_mul_of_nonneg_right twice (digit.le.trans grows)
  linarith

/-- The last digit of a normal number is small against the number. -/
theorem spacing_le_of_normal {x : K} (nonzero : x ≠ 0) (normal : format.Normal x) :
    format.spacing x * (format.base : K) ^ (format.digits - 1) ≤ |x| := by
  have above := Int.zpow_log_le_self format.one_lt_base (abs_pos.mpr nonzero)
  rw [spacing, exponent_of_normal nonzero normal, ← zpow_natCast, ← zpow_add₀ base_pos.ne']
  have cast : ((format.digits - 1 : ℕ) : ℤ) = (format.digits : ℤ) - 1 := by
    have some := format.digits_pos
    omega
  rw [cast, sub_add_cancel]
  exact above

theorem abs_sub_nearest_le_of_normal {x : K} (normal : format.Normal x) :
    |x - format.nearest x| * (2 * (format.base : K) ^ (format.digits - 1)) ≤ |x| := by
  by_cases zero : x = 0
  · subst zero
    rw [nearest_zero, sub_zero, abs_zero, zero_mul]
  · have power : (0 : K) < (format.base : K) ^ (format.digits - 1) := pow_pos base_pos _
    calc |x - format.nearest x| * (2 * (format.base : K) ^ (format.digits - 1))
        ≤ format.spacing x / 2 * (2 * (format.base : K) ^ (format.digits - 1)) :=
          mul_le_mul_of_nonneg_right (abs_sub_nearest_le x) (by positivity)
      _ = format.spacing x * (format.base : K) ^ (format.digits - 1) := by ring
      _ ≤ |x| := spacing_le_of_normal zero normal

/-! ## One format after another -/

section Near

variable {x q : K}

omit [IsStrictOrderedRing K] in
theorem normal_of_unbounded (unbounded : format.least = none) (x : K) : format.Normal x := by
  intro _ least bounded
  rw [unbounded] at bounded
  cases bounded

/-- A number of the format that is near enough has its last digit at or above
the one of the rounded number. -/
theorem exponent_le_of_near (unbounded : format.least = none) (nonzero : x ≠ 0) {m k : ℤ}
    (bounded : |m| < (format.base : ℤ) ^ format.digits) (value : q = m * (format.base : K) ^ k)
    (near : |x - q| * (4 * (format.base : K) ^ format.digits) ≤ |q|) : format.exponent x ≤ k := by
  by_contra smaller
  have one_lt : (1 : K) < format.base := Nat.one_lt_cast.mpr format.one_lt_base
  have digit : (0 : K) < (format.base : K) ^ k := zpow_pos base_pos k
  have power : (0 : K) < (format.base : K) ^ format.digits := pow_pos base_pos _
  have magnitude : |q| ≤ ((format.base : K) ^ format.digits - 1) * (format.base : K) ^ k := by
    have integral : |m| ≤ (format.base : ℤ) ^ format.digits - 1 := by omega
    have cast : (|m| : K) ≤ (format.base : K) ^ format.digits - 1 := by exact_mod_cast integral
    rw [value, abs_mul, abs_of_pos digit]
    exact mul_le_mul_of_nonneg_right cast digit.le
  have reaches : (format.base : K) ^ format.digits * (format.base : K) ^ k ≤ |x| := by
    apply le_trans _ (spacing_le_of_normal nonzero (normal_of_unbounded unbounded x))
    rw [spacing, ← zpow_natCast, ← zpow_natCast, ← zpow_add₀ base_pos.ne', ← zpow_add₀ base_pos.ne']
    apply zpow_le_zpow_right₀ one_lt.le
    have some := format.digits_pos
    omega
  have apart := abs_sub_abs_le_abs_sub x q
  have gap : (format.base : K) ^ k ≤ |x - q| := by linarith
  have scaled := mul_le_mul_of_nonneg_right gap
    (mul_pos four_pos power : (0 : K) < 4 * (format.base : K) ^ format.digits).le
  have product := mul_pos digit power
  linarith

theorem abs_sub_lt_of_near (near : |x - q| * (4 * (format.base : K) ^ format.digits) ≤ |q|) :
    |x - q| < format.spacing x / 2 := by
  have oneLe : (1 : K) ≤ (format.base : K) ^ format.digits :=
    one_le_pow₀ (Nat.one_le_cast.mpr format.one_lt_base.le)
  have upper := format.abs_lt_spacing x
  have apart := abs_sub_abs_le_abs_sub q x
  rw [abs_sub_comm q x] at apart
  have nonneg := abs_nonneg (x - q)
  by_contra far
  have scaled := mul_le_mul_of_nonneg_left (not_lt.mp far) (zero_le_one.trans oneLe)
  have grows := mul_le_mul_of_nonneg_left oneLe nonneg
  linarith

/-- A number of a format is the nearest one to everything that is close enough
to it, as measured by the number of digits. -/
theorem nearest_of_near (unbounded : format.least = none) (represents : format.Represents q)
    (near : |x - q| * (4 * (format.base : K) ^ format.digits) ≤ |q|) : format.nearest x = q := by
  rcases represents with ⟨m, k, bounded, _, value⟩
  have close := abs_sub_lt_of_near near
  by_cases zero : x = 0
  · subst zero
    have oneLe : (1 : K) ≤ (format.base : K) ^ format.digits :=
      one_le_pow₀ (Nat.one_le_cast.mpr format.one_lt_base.le)
    have grows := mul_le_mul_of_nonneg_left oneLe (abs_nonneg q)
    rw [zero_sub, abs_neg] at near
    have none : |q| = 0 := by linarith [abs_nonneg q]
    rw [abs_eq_zero.mp none, nearest_zero]
  · have enough := exponent_le_of_near unbounded zero bounded value near
    rcases Int.le.dest enough with ⟨more, rfl⟩
    have multiple : q = ((m * (format.base : ℤ) ^ more : ℤ) : K) * format.spacing x := by
      rw [value, spacing, zpow_add₀ base_pos.ne', zpow_natCast]
      push_cast
      ring
    rw [multiple] at close ⊢
    exact nearest_eq_of_close _ close

end Near

/-- Through a fine format and then a coarse one: a number is kept exactly if the
coarse format has enough digits for it. -/
theorem nearest_nearest_eq_iff {fine coarse : FloatFormat} (unbounded : coarse.least = none)
    (finer : 2 * coarse.base ^ coarse.digits ≤ fine.base ^ (fine.digits - 1)) {q : K}
    (normal : fine.Normal q) :
    coarse.nearest (fine.nearest q) = q ↔ coarse.Represents q := by
  constructor
  · intro same
    rw [← same]
    exact represents_nearest _
  · intro represents
    apply nearest_of_near unbounded represents
    have finerCast : 2 * (coarse.base : K) ^ coarse.digits ≤ (fine.base : K) ^ (fine.digits - 1) := by
      exact_mod_cast finer
    have error := abs_sub_nearest_le_of_normal normal
    rw [abs_sub_comm]
    calc |q - fine.nearest q| * (4 * (coarse.base : K) ^ coarse.digits)
        = |q - fine.nearest q| * (2 * (2 * (coarse.base : K) ^ coarse.digits)) := by ring
      _ ≤ |q - fine.nearest q| * (2 * (fine.base : K) ^ (fine.digits - 1)) := by gcongr
      _ ≤ |q| := error

end FloatFormat

end Foundation
end CoreBank
