import Mathlib.Data.List.Basic

namespace CoreBank
namespace Foundation

/-!
# Changes to a table under way

A transaction that has not committed is known by the rows that it removes and
the rows that it adds, relative to the committed rows.  What it sees are the
committed rows with its own change applied, also after others have committed.
-/

variable {Row : Type*} [DecidableEq Row]

/-- The rows a transaction has removed and added; a changed row is both. -/
structure Change (Row : Type*) where
  removed : List Row
  added : List Row

namespace Change

def none : Change Row where
  removed := []
  added := []

/-- The rows with the change applied. -/
def apply (change : Change Row) (rows : List Row) : List Row :=
  (rows.filter fun row => decide (row ∉ change.removed)) ++ change.added

/-- The change that leads from some rows to others. -/
def between (before after : List Row) : Change Row where
  removed := before.filter fun row => decide (row ∉ after)
  added := after.filter fun row => decide (row ∉ before)

theorem mem_apply {change : Change Row} {rows : List Row} {row : Row} :
    row ∈ change.apply rows ↔ (row ∈ rows ∧ row ∉ change.removed) ∨ row ∈ change.added := by
  rw [apply, List.mem_append, List.mem_filter, decide_eq_true_eq]

/-- A change without removals keeps every row. -/
theorem subset_apply {change : Change Row} (keeps : change.removed = []) (rows : List Row) :
    rows ⊆ change.apply rows := by
  intro row member
  rw [mem_apply, keeps]
  exact Or.inl ⟨member, List.not_mem_nil⟩

theorem removed_between {before after : List Row} (kept : before ⊆ after) :
    (between before after).removed = [] := by
  rw [between, List.filter_eq_nil_iff]
  intro row member
  rw [decide_eq_true_eq, not_not]
  exact kept member

end Change

end Foundation
end CoreBank
