import Mathlib.Algebra.BigOperators.Group.Multiset.Basic
import Mathlib.Data.Multiset.Bind
import Mathlib.Data.Multiset.Dedup
import Mathlib.Data.Multiset.UnionInter

namespace CoreBank
namespace Foundation
namespace Query

/-!
# Outer joins, grouping and aggregates

Tables are bags of rows.  A left join keeps a row that matches nothing, once,
beside a null row; an aggregate reads a column that may be null and skips the
nulls, and a sum over no values is null.

When the grouping columns are a key of the left table, the groups of a left
join are its rows; when moreover each right row matches exactly one left row,
sums over the groups are sums over the right table.
-/

variable {Left Right Row Key Value M : Type*}

/-! ## The operators -/

section Operators

variable (on : Left -> Right -> Prop) [forall row, DecidablePred (on row)]

/-- The right rows a left row is joined with; a null row when there is none. -/
def partners (right : Multiset Right) (row : Left) : Multiset (Option Right) :=
  if (right.filter (on row)).card = 0 then {none} else (right.filter (on row)).map some

/-- `FROM left LEFT JOIN right ON on`. -/
def leftJoin (left : Multiset Left) (right : Multiset Right) : Multiset (Left × Option Right) :=
  left.bind fun row => (partners on right row).map (Prod.mk row)

end Operators

/-- `GROUP BY key`: each value of the key that occurs, once, with its rows. -/
def groupBy [DecidableEq Key] (key : Row -> Key) (rows : Multiset Row) : Multiset (Key × Multiset Row) :=
  (rows.map key).dedup.map fun value => (value, rows.filter fun row => key row = value)

/-- `COUNT(column)`. -/
def count (column : Row -> Option Value) (rows : Multiset Row) : ℕ :=
  (rows.filterMap column).card

/-- The sum of some values, null when there are none. -/
def sumOf [AddCommMonoid M] (values : Multiset M) : Option M :=
  if values.card = 0 then none else some values.sum

/-- `SUM(column)`. -/
def sum [AddCommMonoid M] (column : Row -> Option M) (rows : Multiset Row) : Option M :=
  sumOf (rows.filterMap column)

@[simp] theorem sumOf_zero [AddCommMonoid M] : sumOf (0 : Multiset M) = none := rfl

@[simp] theorem sumOf_cons [AddCommMonoid M] (value : M) (values : Multiset M) :
    sumOf (value ::ₘ values) = some (value + values.sum) := by
  rw [sumOf, Multiset.card_cons, if_neg (Nat.succ_ne_zero _), Multiset.sum_cons]

@[simp] theorem getD_sumOf [AddCommMonoid M] (values : Multiset M) :
    (sumOf values).getD 0 = values.sum := by
  induction values using Multiset.induction with
  | empty => rfl
  | cons value values _ => rw [sumOf_cons, Option.getD_some, Multiset.sum_cons]

/-! ## Keys -/

/-- A condition that pins the key of a table down selects one row of it. -/
theorem filter_key_eq_singleton [DecidableEq Key] {key : Row -> Key} {rows : Multiset Row}
    (unique : (rows.map key).Nodup) {row : Row} (member : row ∈ rows) :
    (rows.filter fun other => key other = key row) = {row} := by
  rcases Multiset.exists_cons_of_mem member with ⟨others, rfl⟩
  rw [Multiset.map_cons, Multiset.nodup_cons] at unique
  have absent : (others.filter fun other => key other = key row) = 0 := by
    rw [Multiset.filter_eq_nil]
    intro other otherMember same
    exact unique.1 (Multiset.mem_map.mpr ⟨other, otherMember, same⟩)
  have selected := Multiset.filter_cons_of_pos (p := fun other => key other = key row) others rfl
  rw [selected, absent, Multiset.cons_zero]

/-- A reference that resolves names exactly one row. -/
theorem card_filter_reference [DecidableEq Key] {key : Row -> Key} {rows : Multiset Row}
    (unique : (rows.map key).Nodup) {reference : Key} (resolves : reference ∈ rows.map key) :
    (rows.filter fun row => key row = reference).card = 1 := by
  rcases Multiset.mem_map.mp resolves with ⟨row, member, rfl⟩
  rw [filter_key_eq_singleton unique member, Multiset.card_singleton]

/-! ## The groups of a left join -/

section Groups

variable (on : Left -> Right -> Prop) [forall row, DecidablePred (on row)]

theorem exists_mem_partners (right : Multiset Right) (row : Left) :
    Exists fun partner => partner ∈ partners on right row := by
  unfold partners
  split_ifs with none
  · exact ⟨Option.none, Multiset.mem_singleton.mpr rfl⟩
  · rcases Multiset.card_pos_iff_exists_mem.mp (Nat.pos_of_ne_zero none) with ⟨partner, member⟩
    exact ⟨some partner, Multiset.mem_map_of_mem some member⟩

/-- The columns of the matching rows; the null row contributes none. -/
theorem filterMap_partners (column : Right -> Value) (right : Multiset Right) (row : Left) :
    ((partners on right row).map (Prod.mk row)).filterMap (fun joined => joined.2.map column) =
      (right.filter (on row)).map column := by
  rw [Multiset.filterMap_map, partners]
  split_ifs with none
  · rw [Multiset.card_eq_zero.mp none]
    rfl
  · rw [Multiset.filterMap_map]
    exact congrFun (Multiset.filterMap_eq_map column) (right.filter (on row))

@[simp] theorem count_partners (column : Right -> Value) (right : Multiset Right) (row : Left) :
    count (fun joined => joined.2.map column) ((partners on right row).map (Prod.mk row)) =
      (right.filter (on row)).card := by
  rw [count, filterMap_partners, Multiset.card_map]

@[simp] theorem sum_partners [AddCommMonoid M] (column : Right -> M) (right : Multiset Right)
    (row : Left) :
    sum (fun joined => joined.2.map column) ((partners on right row).map (Prod.mk row)) =
      sumOf ((right.filter (on row)).map column) := by
  rw [sum, filterMap_partners]

variable [DecidableEq Key] {key : Left -> Key} {left : Multiset Left}

theorem dedup_keys_leftJoin (unique : (left.map key).Nodup) (right : Multiset Right) :
    ((leftJoin on left right).map fun joined => key joined.1).dedup = left.map key := by
  rw [Multiset.Nodup.ext (Multiset.nodup_dedup _) unique]
  intro value
  rw [Multiset.mem_dedup, Multiset.mem_map, Multiset.mem_map]
  constructor
  · rintro ⟨joined, member, rfl⟩
    rcases Multiset.mem_bind.mp member with ⟨row, rowMember, joinedMember⟩
    rcases Multiset.mem_map.mp joinedMember with ⟨partner, _, rfl⟩
    exact ⟨row, rowMember, rfl⟩
  · rintro ⟨row, rowMember, rfl⟩
    rcases exists_mem_partners on right row with ⟨partner, partnerMember⟩
    have joinedMember := Multiset.mem_map_of_mem (Prod.mk row) partnerMember
    exact ⟨(row, partner), Multiset.mem_bind.mpr ⟨row, rowMember, joinedMember⟩, rfl⟩

/-- The rows of the group of a left row are those it was joined to. -/
theorem filter_leftJoin (unique : (left.map key).Nodup) (right : Multiset Right) {row : Left}
    (member : row ∈ left) :
    ((leftJoin on left right).filter fun joined => key joined.1 = key row) =
      (partners on right row).map (Prod.mk row) := by
  have selects : forall other : Left,
      (((partners on right other).map (Prod.mk other)).filter fun joined => key joined.1 = key row) =
        if key other = key row then (partners on right other).map (Prod.mk other) else 0 := by
    intro other
    split_ifs with same
    · refine Multiset.filter_eq_self.mpr fun joined joinedMember => ?_
      rcases Multiset.mem_map.mp joinedMember with ⟨partner, _, rfl⟩
      exact same
    · refine Multiset.filter_eq_nil.mpr fun joined joinedMember => ?_
      rcases Multiset.mem_map.mp joinedMember with ⟨partner, _, rfl⟩
      exact same
  rw [leftJoin, Multiset.filter_bind]
  simp only [selects]
  rw [← Multiset.bind_filter, filter_key_eq_singleton unique member, Multiset.singleton_bind]

/-- Grouped by a key of its left table, a left join has one group per left
row. -/
theorem groupBy_leftJoin (unique : (left.map key).Nodup) (right : Multiset Right) :
    groupBy (fun joined => key joined.1) (leftJoin on left right) =
      left.map fun row => (key row, (partners on right row).map (Prod.mk row)) := by
  rw [groupBy, dedup_keys_leftJoin on unique right, Multiset.map_map]
  refine Multiset.map_congr rfl fun row member => ?_
  rw [Function.comp_apply, filter_leftJoin on unique right member]

end Groups

/-! ## Totals over the groups -/

section Totals

variable (on : Left -> Right -> Prop) [forall row, DecidablePred (on row)] [AddCommMonoid M]

theorem sum_map_filter (weight : Right -> M) (right : Multiset Right) (row : Left) :
    ((right.filter (on row)).map weight).sum =
      (right.map fun other => if on row other then weight other else 0).sum := by
  induction right using Multiset.induction with
  | empty => rfl
  | cons other right inductionHypothesis =>
      rw [Multiset.map_cons, Multiset.sum_cons, ← inductionHypothesis]
      split_ifs with holds
      · rw [Multiset.filter_cons_of_pos right holds, Multiset.map_cons, Multiset.sum_cons]
      · rw [Multiset.filter_cons_of_neg right holds, zero_add]

theorem sum_map_indicator (left : Multiset Left) (other : Right) (weight : M) :
    (left.map fun row => if on row other then weight else 0).sum =
      (left.filter fun row => on row other).card • weight := by
  induction left using Multiset.induction with
  | empty => rw [Multiset.map_zero, Multiset.sum_zero, Multiset.filter_zero, Multiset.card_zero, zero_nsmul]
  | cons row left inductionHypothesis =>
      rw [Multiset.map_cons, Multiset.sum_cons, inductionHypothesis]
      split_ifs with holds
      · rw [Multiset.filter_cons_of_pos left holds, Multiset.card_cons, succ_nsmul, add_comm]
      · rw [Multiset.filter_cons_of_neg left holds, zero_add]

/-- When each right row matches one left row, nothing is counted twice and
nothing is left out. -/
theorem sum_over_groups (weight : Right -> M) {left : Multiset Left} {right : Multiset Right}
    (once : forall other, other ∈ right -> (left.filter fun row => on row other).card = 1) :
    (left.map fun row => ((right.filter (on row)).map weight).sum).sum = (right.map weight).sum := by
  calc (left.map fun row => ((right.filter (on row)).map weight).sum).sum
      = (left.map fun row =>
          (right.map fun other => if on row other then weight other else 0).sum).sum := by
        simp only [sum_map_filter]
    _ = (right.map fun other =>
          (left.map fun row => if on row other then weight other else 0).sum).sum :=
        Multiset.sum_map_sum_map left right
    _ = (right.map fun other => (left.filter fun row => on row other).card • weight other).sum := by
        simp only [sum_map_indicator]
    _ = (right.map weight).sum := by
        refine congrArg Multiset.sum (Multiset.map_congr rfl fun other member => ?_)
        rw [once other member, one_nsmul]

theorem card_over_groups {left : Multiset Left} {right : Multiset Right}
    (once : forall other, other ∈ right -> (left.filter fun row => on row other).card = 1) :
    (left.map fun row => (right.filter (on row)).card).sum = right.card := by
  have counted := sum_over_groups on (fun _ => 1) once
  have ones : forall rows : Multiset Right, (rows.map fun _ => 1).sum = rows.card := by
    intro rows
    rw [Multiset.map_const', Multiset.sum_replicate, Nat.nsmul_eq_mul, Nat.mul_one]
  simpa only [ones] using counted

end Totals

end Query
end Foundation
end CoreBank
