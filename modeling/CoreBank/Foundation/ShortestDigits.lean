import CoreBank.Foundation.FloatingPoint
import Mathlib.Data.List.Basic

namespace CoreBank
namespace Foundation

/-!
# The fewest digits that come back

A number of a fine format is often written with the fewest digits of another
base that are read back as the same number.  If the number was the nearest one
to something that has few digits in that base, this is what is written: short
numbers lie too far apart for two of them to have the same nearest one.
-/

namespace FloatFormat

variable {K : Type*} [Field K] [LinearOrder K] [IsStrictOrderedRing K]

/-- Some digits in a base, and numbers of any size. -/
def unbounded (base : ℕ) (one_lt_base : 1 < base) (digits : ℕ) : FloatFormat where
  base := base
  digits := digits + 1
  least := none
  one_lt_base := one_lt_base
  digits_pos := Nat.succ_pos digits

omit [LinearOrder K] [IsStrictOrderedRing K] in
/-- What has few digits has no more than many. -/
theorem Represents.of_le {base first second : ℕ} {one_lt_base : 1 < base} (fewer : first ≤ second) {x : K}
    (represents : (unbounded base one_lt_base first).Represents x) :
    (unbounded base one_lt_base second).Represents x := by
  rcases represents with ⟨m, e, bounded, _, value⟩
  refine ⟨m, e, bounded.trans_le ?_, fun least impossible => (by cases impossible), value⟩
  have one_le : (1 : ℤ) ≤ base := by exact_mod_cast one_lt_base.le
  exact pow_le_pow_right₀ one_le (Nat.succ_le_succ fewer)

variable [FloorRing K]

/-- Rounding a normal number keeps half of it at least. -/
theorem abs_le_two_mul_abs_nearest {format : FloatFormat} {x : K} (normal : format.Normal x) :
    |x| ≤ 2 * |format.nearest x| := by
  have error := abs_sub_nearest_le_of_normal normal
  have oneLe : (1 : K) ≤ (format.base : K) ^ (format.digits - 1) :=
    one_le_pow₀ (Nat.one_le_cast.mpr format.one_lt_base.le)
  have nonneg := abs_nonneg (x - format.nearest x)
  have grows := mul_le_mul_of_nonneg_left oneLe nonneg
  have apart := abs_sub_abs_le_abs_sub x (format.nearest x)
  linarith

/-- Two numbers of a coarse format with the same nearest number of a fine one
are the same. -/
theorem eq_of_nearest_eq {fine coarse : FloatFormat} (unbounded : coarse.least = none)
    (finer : 2 * coarse.base ^ coarse.digits ≤ fine.base ^ (fine.digits - 1)) {first second : K}
    (firstNormal : fine.Normal first) (firstFits : coarse.Represents first)
    (secondNormal : fine.Normal second) (secondFits : coarse.Represents second)
    (same : fine.nearest first = fine.nearest second) : first = second := by
  calc first = coarse.nearest (fine.nearest first) :=
        ((nearest_nearest_eq_iff unbounded finer firstNormal).mpr firstFits).symm
    _ = coarse.nearest (fine.nearest second) := by rw [same]
    _ = second := (nearest_nearest_eq_iff unbounded finer secondNormal).mpr secondFits

/-! ## The search -/

/-- The multiples of the last digit on both sides of a number, the nearest one
first. -/
def neighbours (format : FloatFormat) (x : K) : List ℤ :=
  [format.significand x,
    if format.nearest x ≤ x then format.significand x + 1 else format.significand x - 1]

/-- The neighbour that is read back as the number, the nearest one if both are. -/
def comesBack (fine format : FloatFormat) (x : K) : Option ℤ :=
  (format.neighbours x).find? fun m => decide (fine.nearest ((m : K) * format.spacing x) = x)

/-- The fewest digits of a base that are read back as the number, with their
exponent. -/
def shortest (fine : FloatFormat) (base : ℕ) (one_lt_base : 1 < base) (count : ℕ) (x : K) :
    Option (ℤ × ℤ) := do
  let digits <- (List.range count).find? fun digits =>
    (fine.comesBack (unbounded base one_lt_base digits) x).isSome
  let m <- fine.comesBack (unbounded base one_lt_base digits) x
  pure (m, (unbounded base one_lt_base digits).exponent x)

theorem represents_of_mem_neighbours {format : FloatFormat} {x : K} {m : ℤ}
    (member : m ∈ format.neighbours x) : format.Represents (m * format.spacing x) := by
  have positive := format.spacing_pos x
  have bound := abs_le.mp (format.abs_significand_le x)
  have scaled : |x / format.spacing x| < (format.base : K) ^ format.digits := by
    rw [abs_div, abs_of_pos positive, div_lt_iff₀ positive]
    exact format.abs_lt_spacing x
  have range := abs_lt.mp scaled
  apply represents_mul_spacing
  rcases List.mem_cons.mp member with rfl | other
  · exact abs_le.mpr bound
  · have same := List.mem_singleton.mp other
    split_ifs at same with below
    · have under : (format.significand x : K) < ((format.base ^ format.digits : ℤ) : K) := by
        push_cast
        exact ((le_div_iff₀ positive).mpr below).trans_lt range.2
      have integral := Int.cast_lt.mp under
      rw [same, abs_le]
      omega
    · have above : ((-(format.base ^ format.digits) : ℤ) : K) < format.significand x := by
        push_cast
        exact range.1.trans ((div_lt_iff₀ positive).mpr (not_le.mp below))
      have integral := Int.cast_lt.mp above
      rw [same, abs_le]
      omega

/-- What comes back is a number of the format. -/
theorem comesBack_eq_some {fine format : FloatFormat} {x : K} {m : ℤ}
    (found : fine.comesBack format x = some m) :
    fine.nearest ((m : K) * format.spacing x) = x ∧ format.Represents ((m : K) * format.spacing x) := by
  have readBack := List.find?_some found
  exact ⟨of_decide_eq_true readBack, represents_of_mem_neighbours (List.mem_of_find?_eq_some found)⟩

/-- The search finds a number that has few enough digits. -/
theorem exists_shortest {fine : FloatFormat} {base : ℕ} (one_lt_base : 1 < base) {count enough : ℕ}
    (among : enough < count) (finer : 2 * base ^ (enough + 1) ≤ fine.base ^ (fine.digits - 1)) {x : K}
    (fits : (unbounded base one_lt_base enough).Represents x)
    (normal : forall q, fine.nearest q = fine.nearest x -> fine.Normal q) :
    Exists fun m : ℤ => Exists fun e : ℤ =>
      fine.shortest base one_lt_base count (fine.nearest x) = some (m, e) ∧ (m : K) * (base : K) ^ e = x := by
  have back : (unbounded base one_lt_base enough).nearest (fine.nearest x) = x :=
    (nearest_nearest_eq_iff rfl finer (normal x rfl)).mpr fits
  have succeeds : (fine.comesBack (unbounded base one_lt_base enough) (fine.nearest x)).isSome = true := by
    have first : (unbounded base one_lt_base enough).significand (fine.nearest x) *
        (unbounded base one_lt_base enough).spacing (fine.nearest x) = x := back
    rw [comesBack, neighbours, List.find?_cons_of_pos]
    · rfl
    · rw [first]
      exact decide_eq_true rfl
  cases search : (List.range count).find? fun digits =>
      (fine.comesBack (unbounded base one_lt_base digits) (fine.nearest x)).isSome with
  | none =>
      have fails := List.find?_range_eq_none.mp search enough among
      rw [succeeds] at fails
      cases fails
  | some digits =>
      rcases List.find?_range_eq_some.mp search with ⟨found, _, least⟩
      have few : digits ≤ enough := by
        by_contra more
        have fails := least enough (Nat.lt_of_not_le more)
        rw [succeeds] at fails
        cases fails
      rcases Option.isSome_iff_exists.mp found with ⟨m, isShortest⟩
      rcases comesBack_eq_some isShortest with ⟨same, represents⟩
      refine ⟨m, (unbounded base one_lt_base digits).exponent (fine.nearest x), ?_, ?_⟩
      · rw [shortest, search, Option.bind_eq_bind, Option.bind_some, isShortest]
        rfl
      · exact eq_of_nearest_eq rfl finer (normal _ same) (represents.of_le few) (normal x rfl) fits same

end FloatFormat

end Foundation
end CoreBank
