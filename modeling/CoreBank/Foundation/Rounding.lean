import Mathlib.Algebra.Order.Round
import Mathlib.Data.Int.ConditionallyCompleteOrder
import Mathlib.Tactic.Linarith
import Mathlib.Tactic.Ring
import Mathlib.Tactic.NormNum

namespace CoreBank
namespace Foundation

/-!
# Rounding half away from zero

Mathlib's `round` sends a tie upwards.  A decimal column sends it away from
zero, so the two roundings differ exactly on the ties below zero.  Off the ties
both commute with adding an integer; on a tie the rounding of a sum depends on
the sign of the sum.  Everything here is stated over an arbitrary ordered field
with a floor.
-/

variable {K : Type*} [Field K] [LinearOrder K] [IsStrictOrderedRing K] [FloorRing K]

/-- The nearest integer, a tie going away from zero. -/
def roundAway (x : K) : ℤ :=
  if 0 ≤ x then ⌊x + 1 / 2⌋ else ⌈x - 1 / 2⌉

/-- Halfway between two consecutive integers. -/
def IsTie (x : K) : Prop :=
  Int.fract x = 1 / 2

instance isTieDecidable [DecidableEq K] (x : K) : Decidable (IsTie x) :=
  inferInstanceAs (Decidable (Int.fract x = 1 / 2))

theorem roundAway_of_nonneg {x : K} (nonneg : 0 ≤ x) : roundAway x = round x := by
  rw [roundAway, if_pos nonneg, round_eq]

theorem roundAway_of_neg {x : K} (negative : x < 0) : roundAway x = -round (-x) := by
  rw [roundAway, if_neg (not_le.mpr negative), round_eq, ← Int.ceil_neg]
  congr 1
  ring

@[simp] theorem roundAway_intCast (n : ℤ) : roundAway (n : K) = n := by
  by_cases nonneg : (0 : K) ≤ n
  · rw [roundAway_of_nonneg nonneg, round_intCast]
  · have same : -(n : K) = ((-n : ℤ) : K) := (Int.cast_neg n).symm
    rw [roundAway_of_neg (not_le.mp nonneg), same, round_intCast, neg_neg]

/-- Negating a value negates its rounding: no direction is preferred. -/
theorem roundAway_neg (x : K) : roundAway (-x) = -roundAway x := by
  rcases lt_trichotomy x 0 with negative | zero | positive
  · rw [roundAway_of_neg negative, roundAway_of_nonneg (by linarith), neg_neg]
  · subst zero
    have atZero : roundAway (0 : K) = 0 := by simpa using roundAway_intCast (K := K) 0
    rw [neg_zero, atZero, neg_zero]
  · rw [roundAway_of_neg (by linarith : -x < 0), roundAway_of_nonneg positive.le, neg_neg]

/-- A tie is exactly an integer plus one half. -/
theorem isTie_iff (x : K) : IsTie x ↔ x = ⌊x⌋ + 1 / 2 := by
  have parts := Int.floor_add_fract x
  constructor
  · intro tie
    rw [IsTie] at tie
    linarith
  · intro equal
    rw [IsTie]
    linarith

/-- Off the ties the direction of a tie does not matter. -/
theorem roundAway_of_not_isTie {x : K} (untied : ¬ IsTie x) : roundAway x = round x := by
  by_cases nonneg : 0 ≤ x
  · exact roundAway_of_nonneg nonneg
  · rw [roundAway, if_neg nonneg, round_eq]
    have parts := Int.floor_add_fract x
    have fractNonneg := Int.fract_nonneg x
    have fractLtOne := Int.fract_lt_one x
    rcases lt_or_gt_of_ne untied with below | above
    · have ceiling : ⌈x - 1 / 2⌉ = ⌊x⌋ := by
        rw [Int.ceil_eq_iff]
        constructor <;> linarith
      have floor : ⌊x + 1 / 2⌋ = ⌊x⌋ := by
        rw [Int.floor_eq_iff]
        constructor <;> linarith
      rw [ceiling, floor]
    · have ceiling : ⌈x - 1 / 2⌉ = ⌊x⌋ + 1 := by
        rw [Int.ceil_eq_iff]
        push_cast
        constructor <;> linarith
      have floor : ⌊x + 1 / 2⌋ = ⌊x⌋ + 1 := by
        rw [Int.floor_eq_iff]
        push_cast
        constructor <;> linarith
      rw [ceiling, floor]

theorem isTie_intCast_add (n : ℤ) (x : K) : IsTie ((n : K) + x) ↔ IsTie x := by
  rw [IsTie, IsTie, Int.fract_intCast_add]

theorem isTie_neg (x : K) : IsTie (-x) ↔ IsTie x := by
  have forward : forall y : K, IsTie y -> IsTie (-y) := by
    intro y tie
    have nonzero : Int.fract y ≠ 0 := by
      rw [IsTie] at tie
      rw [tie]
      norm_num
    rw [IsTie, Int.fract_neg nonzero, show Int.fract y = 1 / 2 from tie]
    norm_num
  exact ⟨fun tie => neg_neg x ▸ forward (-x) tie, forward x⟩

/-- Off the ties an integer passes through the rounding unchanged. -/
theorem roundAway_intCast_add {x : K} (untied : ¬ IsTie x) (n : ℤ) :
    roundAway ((n : K) + x) = n + roundAway x := by
  have shifted : ¬ IsTie ((n : K) + x) := fun tie => untied ((isTie_intCast_add n x).mp tie)
  rw [roundAway_of_not_isTie shifted, roundAway_of_not_isTie untied, round_intCast_add]

theorem roundAway_intCast_sub {x : K} (untied : ¬ IsTie x) (n : ℤ) :
    roundAway ((n : K) - x) = n - roundAway x := by
  have opposite : ¬ IsTie (-x) := fun tie => untied ((isTie_neg x).mp tie)
  rw [sub_eq_add_neg, roundAway_intCast_add opposite, roundAway_neg, sub_eq_add_neg]

/-- On a tie a sum that stays at or above zero is rounded up. -/
theorem roundAway_intCast_add_of_isTie {x : K} (tie : IsTie x) (n : ℤ) (nonneg : 0 ≤ (n : K) + x) :
    roundAway ((n : K) + x) = n + ⌊x⌋ + 1 := by
  have value := (isTie_iff x).mp tie
  rw [roundAway, if_pos nonneg, Int.floor_eq_iff]
  push_cast
  constructor <;> linarith

/-- On a tie a sum below zero is rounded down. -/
theorem roundAway_intCast_add_of_isTie_of_neg {x : K} (tie : IsTie x) (n : ℤ)
    (negative : (n : K) + x < 0) : roundAway ((n : K) + x) = n + ⌊x⌋ := by
  have value := (isTie_iff x).mp tie
  rw [roundAway, if_neg (not_le.mpr negative), Int.ceil_eq_iff]
  push_cast
  constructor <;> linarith

/-- On a tie a difference that stays at or above zero loses only the floor:
its tie is rounded up, against the subtraction. -/
theorem roundAway_intCast_sub_of_isTie {x : K} (tie : IsTie x) (n : ℤ) (nonneg : 0 ≤ (n : K) - x) :
    roundAway ((n : K) - x) = n - ⌊x⌋ := by
  have value := (isTie_iff x).mp tie
  rw [roundAway, if_pos nonneg, Int.floor_eq_iff]
  push_cast
  constructor <;> linarith

theorem roundAway_mono : Monotone (roundAway : K -> ℤ) := by
  intro x y ordered
  by_cases left : 0 ≤ x
  · rw [roundAway, if_pos left, roundAway, if_pos (left.trans ordered)]
    exact Int.floor_le_floor (by linarith)
  · by_cases right : 0 ≤ y
    · have below : roundAway x ≤ 0 := by
        rw [roundAway, if_neg left, Int.ceil_le]
        push_cast
        linarith
      have above : 0 ≤ roundAway y := by
        rw [roundAway, if_pos right, Int.le_floor]
        push_cast
        linarith
      exact below.trans above
    · rw [roundAway, if_neg left, roundAway, if_neg right]
      exact Int.ceil_le_ceil (by linarith)

theorem intCast_le_roundAway {n : ℤ} {x : K} (ordered : (n : K) ≤ x) : n ≤ roundAway x := by
  have monotone := roundAway_mono ordered
  rwa [roundAway_intCast] at monotone

/-- Rounding moves a value by one half at most. -/
theorem abs_roundAway_sub_le (x : K) : |(roundAway x : K) - x| ≤ 1 / 2 := by
  by_cases nonneg : 0 ≤ x
  · rw [roundAway_of_nonneg nonneg, abs_sub_comm]
    exact abs_sub_round x
  · have opposite := abs_sub_round (-x)
    rw [roundAway_of_neg (not_le.mp nonneg), Int.cast_neg]
    have turned : -(round (-x) : K) - x = -x - round (-x) := by ring
    rw [turned]
    exact opposite

end Foundation
end CoreBank
