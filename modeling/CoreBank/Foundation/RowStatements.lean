import CoreBank.Foundation.Raising
import Mathlib.Algebra.BigOperators.Group.List.Basic
import Mathlib.Data.List.Nodup

namespace CoreBank
namespace Foundation

/-!
# Row-level statements on a table

A table is a list of rows.  A data-changing statement visits the rows that its
condition selects and runs a row action on each; the action stands for the
expressions, the row triggers and the row constraints together, and when it
raises the whole statement raises.  The accounting lemmas say what a statement
does to a total taken over the rows, in any commutative monoid: they need no
cancellation, so a total may have an absorbing element.
-/

namespace RowTable

variable {Row Error : Type} {M : Type*}

/-- Run the action of an update on a row if the row is selected. -/
def visit (selected : Row -> Bool) (update : Row -> Except Error Row) (row : Row) :
    Except Error Row :=
  if selected row then update row else pure row

/-- `UPDATE`: replace every selected row by the result of its action. -/
def updateRows (selected : Row -> Bool) (update : Row -> Except Error Row) :
    List Row -> Except Error (List Row)
  | [] => pure []
  | row :: rows => do
      let changed <- visit selected update row
      let rest <- updateRows selected update rows
      pure (changed :: rest)

/-- `DELETE`: drop every selected row that its action lets go. -/
def deleteRows (selected : Row -> Bool) (release : Row -> Except Error Unit) :
    List Row -> Except Error (List Row)
  | [] => pure []
  | row :: rows => do
      if selected row then
        release row
        deleteRows selected release rows
      else
        let rest <- deleteRows selected release rows
        pure (row :: rest)

/-- One proposed row of `INSERT ... ON CONFLICT DO UPDATE ... WHERE`.  A row
carries the flag that this command has inserted or updated it; a second conflict
with such a row is an error.  A row that the condition of the conflict action
leaves out stays as it is.  The flag returned says whether the candidate was
inserted. -/
def upsertRow (conflicts selected : Row -> Row -> Bool) (twice : Error)
    (update : Row -> Row -> Except Error Row) (candidate : Row) :
    List (Row × Bool) -> Except Error (List (Row × Bool) × Bool)
  | [] => pure ([(candidate, true)], true)
  | (row, touched) :: rows => do
      if conflicts row candidate then
        if touched then throw twice
        if selected row candidate then
          let changed <- update row candidate
          pure ((changed, true) :: rows, false)
        else pure ((row, touched) :: rows, false)
      else
        let (rest, inserted) <- upsertRow conflicts selected twice update candidate rows
        pure ((row, touched) :: rest, inserted)

/-- All proposed rows of one command, in order, with the rows it inserted. -/
def upsertRows (conflicts selected : Row -> Row -> Bool) (twice : Error)
    (update : Row -> Row -> Except Error Row) :
    List Row -> List (Row × Bool) -> Except Error (List (Row × Bool) × List Row)
  | [], rows => pure (rows, [])
  | candidate :: candidates, rows => do
      let (changed, inserted) <- upsertRow conflicts selected twice update candidate rows
      let (final, later) <- upsertRows conflicts selected twice update candidates changed
      pure (final, if inserted then candidate :: later else later)

section Inversion

theorem updateRows_cons_ok {selected : Row -> Bool} {update : Row -> Except Error Row}
    {row : Row} {rows result : List Row}
    (success : updateRows selected update (row :: rows) = .ok result) :
    Exists fun changed => Exists fun rest =>
      visit selected update row = .ok changed ∧
      updateRows selected update rows = .ok rest ∧ result = changed :: rest := by
  rw [updateRows, bind_eq_ok_iff] at success
  rcases success with ⟨changed, first, success⟩
  rcases bind_eq_ok_iff.mp success with ⟨rest, later, success⟩
  exact ⟨changed, rest, first, later, (Except.ok.inj success).symm⟩

/-- An update succeeds only if its action does on every selected row. -/
theorem update_of_updateRows {selected : Row -> Bool} {update : Row -> Except Error Row}
    {rows result : List Row} (success : updateRows selected update rows = .ok result) {row : Row}
    (member : row ∈ rows) (chosen : selected row = true) :
    Exists fun changed => update row = .ok changed := by
  induction rows generalizing result with
  | nil => cases member
  | cons first rows inductionHypothesis =>
      rcases updateRows_cons_ok success with ⟨changed, rest, visited, later, rfl⟩
      rcases List.mem_cons.mp member with same | member
      · rw [← same, visit, if_pos chosen] at visited
        exact ⟨changed, visited⟩
      · exact inductionHypothesis later member

theorem deleteRows_cons_ok {selected : Row -> Bool} {release : Row -> Except Error Unit}
    {row : Row} {rows result : List Row}
    (success : deleteRows selected release (row :: rows) = .ok result) :
    (selected row = true ∧ release row = .ok () ∧ deleteRows selected release rows = .ok result) ∨
    (selected row = false ∧ Exists fun rest =>
      deleteRows selected release rows = .ok rest ∧ result = row :: rest) := by
  rw [deleteRows] at success
  by_cases chosen : selected row = true
  · rw [if_pos chosen, bind_eq_ok_iff] at success
    rcases success with ⟨_, released, later⟩
    exact Or.inl ⟨chosen, released, later⟩
  · rw [if_neg chosen, bind_eq_ok_iff] at success
    rcases success with ⟨rest, later, success⟩
    exact Or.inr ⟨Bool.eq_false_iff.mpr chosen, rest, later, (Except.ok.inj success).symm⟩

theorem upsertRow_cons_ok {conflicts selected : Row -> Row -> Bool} {twice : Error}
    {update : Row -> Row -> Except Error Row} {candidate row : Row} {touched : Bool}
    {rows result : List (Row × Bool)} {inserted : Bool}
    (success : upsertRow conflicts selected twice update candidate ((row, touched) :: rows) =
      .ok (result, inserted)) :
    (Exists fun changed => update row candidate = .ok changed ∧
      result = (changed, true) :: rows ∧ inserted = false) ∨
    (result = (row, touched) :: rows ∧ inserted = false) ∨
    (Exists fun rest => upsertRow conflicts selected twice update candidate rows = .ok (rest, inserted) ∧
      result = (row, touched) :: rest) := by
  rw [upsertRow] at success
  by_cases conflict : conflicts row candidate = true
  · rw [if_pos conflict] at success
    cases touched with
    | true => cases success
    | false =>
        by_cases chosen : selected row candidate = true
        · rw [if_pos chosen] at success
          rcases bind_eq_ok_iff.mp success with ⟨changed, updated, success⟩
          cases success
          exact Or.inl ⟨changed, updated, rfl, rfl⟩
        · rw [if_neg chosen] at success
          cases success
          exact Or.inr (Or.inl ⟨rfl, rfl⟩)
  · rw [if_neg conflict, bind_eq_ok_iff] at success
    rcases success with ⟨pair, later, success⟩
    cases success
    exact Or.inr (Or.inr ⟨pair.1, later, rfl⟩)

theorem upsertRows_cons_ok {conflicts selected : Row -> Row -> Bool} {twice : Error}
    {update : Row -> Row -> Except Error Row} {candidate : Row} {candidates : List Row}
    {rows final : List (Row × Bool)} {added : List Row}
    (success : upsertRows conflicts selected twice update (candidate :: candidates) rows =
      .ok (final, added)) :
    Exists fun changed => Exists fun inserted => Exists fun later =>
      upsertRow conflicts selected twice update candidate rows = .ok (changed, inserted) ∧
      upsertRows conflicts selected twice update candidates changed = .ok (final, later) ∧
      added = if inserted then candidate :: later else later := by
  rw [upsertRows, bind_eq_ok_iff] at success
  rcases success with ⟨pair, first, success⟩
  rcases bind_eq_ok_iff.mp success with ⟨last, second, success⟩
  cases success
  exact ⟨pair.1, pair.2, last.2, first, second, rfl⟩

/-- An update whose action always raises gets through only where it selects no
row. -/
theorem updateRows_of_raises {selected : Row -> Bool} {update : Row -> Except Error Row}
    (raises : forall row changed, update row ≠ .ok changed) {rows result : List Row}
    (success : updateRows selected update rows = .ok result) : result = rows := by
  induction rows generalizing result with
  | nil =>
      cases success
      rfl
  | cons row rows inductionHypothesis =>
      rcases updateRows_cons_ok success with ⟨changed, rest, visited, later, rfl⟩
      rw [visit] at visited
      split_ifs at visited
      · exact False.elim (raises row changed visited)
      · cases visited
        rw [inductionHypothesis later]

theorem deleteRows_of_raises {selected : Row -> Bool} {release : Row -> Except Error Unit}
    (raises : forall row, release row ≠ .ok ()) {rows result : List Row}
    (success : deleteRows selected release rows = .ok result) : result = rows := by
  induction rows generalizing result with
  | nil =>
      cases success
      rfl
  | cons row rows inductionHypothesis =>
      rcases deleteRows_cons_ok success with ⟨_, released, _⟩ | ⟨_, rest, later, rfl⟩
      · exact False.elim (raises row released)
      · rw [inductionHypothesis later]

/-- An insertion whose conflict action always raises only adds rows. -/
theorem upsertRow_of_raises {conflicts selected : Row -> Row -> Bool} {twice : Error}
    {update : Row -> Row -> Except Error Row}
    (raises : forall row candidate changed, update row candidate ≠ .ok changed) {candidate : Row}
    {rows result : List (Row × Bool)} {inserted : Bool}
    (success : upsertRow conflicts selected twice update candidate rows = .ok (result, inserted)) :
    rows ⊆ result := by
  induction rows generalizing result with
  | nil => exact List.nil_subset result
  | cons entry rows inductionHypothesis =>
      rcases upsertRow_cons_ok success with ⟨changed, updated, _, _⟩ | ⟨rfl, _⟩ | ⟨rest, later, rfl⟩
      · exact False.elim (raises entry.1 candidate changed updated)
      · exact List.Subset.refl _
      · exact List.cons_subset_cons entry (inductionHypothesis later)

theorem upsertRows_of_raises {conflicts selected : Row -> Row -> Bool} {twice : Error}
    {update : Row -> Row -> Except Error Row}
    (raises : forall row candidate changed, update row candidate ≠ .ok changed)
    {candidates : List Row} {rows final : List (Row × Bool)} {added : List Row}
    (success : upsertRows conflicts selected twice update candidates rows = .ok (final, added)) :
    rows ⊆ final := by
  induction candidates generalizing rows final added with
  | nil =>
      cases success
      exact List.Subset.refl rows
  | cons candidate candidates inductionHypothesis =>
      rcases upsertRows_cons_ok success with ⟨changed, inserted, later, first, rest, _⟩
      exact List.Subset.trans (upsertRow_of_raises raises first) (inductionHypothesis rest)

end Inversion

section Accounting

variable [AddCommMonoid M] (weight : Row -> M)

/-- An update whose action keeps the weight of a row keeps the total. -/
theorem updateRows_total {selected : Row -> Bool} {update : Row -> Except Error Row}
    (keeps : forall row changed, selected row = true -> update row = .ok changed ->
      weight changed = weight row)
    {rows result : List Row} (success : updateRows selected update rows = .ok result) :
    (result.map weight).sum = (rows.map weight).sum := by
  induction rows generalizing result with
  | nil =>
      cases success
      rfl
  | cons row rows inductionHypothesis =>
      rcases updateRows_cons_ok success with ⟨changed, rest, first, later, rfl⟩
      have same : weight changed = weight row := by
        by_cases chosen : selected row = true
        · rw [visit, if_pos chosen] at first
          exact keeps row changed chosen first
        · rw [visit, if_neg chosen] at first
          rw [Except.ok.inj first]
      simp only [List.map_cons, List.sum_cons, same, inductionHypothesis later]

/-- A deletion that only lets weightless rows go keeps the total. -/
theorem deleteRows_total {selected : Row -> Bool} {release : Row -> Except Error Unit}
    (weightless : forall row, selected row = true -> release row = .ok () -> weight row = 0)
    {rows result : List Row} (success : deleteRows selected release rows = .ok result) :
    (result.map weight).sum = (rows.map weight).sum := by
  induction rows generalizing result with
  | nil =>
      cases success
      rfl
  | cons row rows inductionHypothesis =>
      rcases deleteRows_cons_ok success with ⟨chosen, released, later⟩ | ⟨_, rest, later, rfl⟩
      · simp only [List.map_cons, List.sum_cons, weightless row chosen released, zero_add,
          inductionHypothesis later]
      · simp only [List.map_cons, List.sum_cons, inductionHypothesis later]

theorem upsertRow_total {conflicts selected : Row -> Row -> Bool} {twice : Error}
    {update : Row -> Row -> Except Error Row} {candidate : Row}
    (keeps : forall row changed, update row candidate = .ok changed -> weight changed = weight row)
    {rows result : List (Row × Bool)} {inserted : Bool}
    (success : upsertRow conflicts selected twice update candidate rows = .ok (result, inserted)) :
    (result.map fun entry => weight entry.1).sum =
      (rows.map fun entry => weight entry.1).sum + if inserted then weight candidate else 0 := by
  induction rows generalizing result with
  | nil =>
      cases success
      simp only [List.map_cons, List.map_nil, List.sum_cons, List.sum_nil, if_true, add_zero,
        zero_add]
  | cons entry rows inductionHypothesis =>
      rcases entry with ⟨row, touched⟩
      rcases upsertRow_cons_ok success with ⟨changed, updated, rfl, rfl⟩ | ⟨rfl, rfl⟩ |
        ⟨rest, later, rfl⟩
      · simp only [List.map_cons, List.sum_cons, keeps row changed updated, Bool.false_eq_true,
          if_false, add_zero]
      · simp only [Bool.false_eq_true, if_false, add_zero]
      · simp only [List.map_cons, List.sum_cons, inductionHypothesis later, add_assoc]

/-- An upsert whose conflict action keeps the weight of a row raises the total
by exactly the weights of the rows it inserts. -/
theorem upsertRows_total {conflicts selected : Row -> Row -> Bool} {twice : Error}
    {update : Row -> Row -> Except Error Row} {candidates : List Row}
    (keeps : forall candidate row changed, update row candidate = .ok changed ->
      weight changed = weight row)
    {rows final : List (Row × Bool)} {added : List Row}
    (success : upsertRows conflicts selected twice update candidates rows = .ok (final, added)) :
    (final.map fun entry => weight entry.1).sum =
      (rows.map fun entry => weight entry.1).sum + (added.map weight).sum := by
  induction candidates generalizing rows final added with
  | nil =>
      cases success
      simp only [List.map_nil, List.sum_nil, add_zero]
  | cons candidate candidates inductionHypothesis =>
      rcases upsertRows_cons_ok success with ⟨changed, inserted, later, first, second, rfl⟩
      rw [inductionHypothesis second, upsertRow_total weight (keeps candidate) first, add_assoc]
      cases inserted with
      | false => simp only [Bool.false_eq_true, if_false, zero_add]
      | true => simp only [if_true, List.map_cons, List.sum_cons]

end Accounting

/-! ## Updating the one row with a given key -/

section Keyed

variable {Key : Type*} [DecidableEq Key] (key : Row -> Key)

/-- Replace the rows with a given key by their image. -/
def replaceAt (target : Key) (change : Row -> Row) (rows : List Row) : List Row :=
  rows.map fun row => if key row = target then change row else row

theorem replaceAt_of_absent {target : Key} {rows : List Row} (absent : target ∉ rows.map key)
    (change : Row -> Row) : replaceAt key target change rows = rows := by
  refine (List.map_congr_left fun row member => ?_).trans (List.map_id' rows)
  rw [if_neg fun same : key row = target => absent (same ▸ List.mem_map_of_mem member)]

theorem find?_of_absent {target : Key} {rows : List Row} (absent : target ∉ rows.map key) :
    (rows.find? fun row => decide (key row = target)) = none := by
  rw [List.find?_eq_none]
  intro row member
  rw [decide_eq_true_eq]
  intro same
  exact absent (same ▸ List.mem_map_of_mem member)

/-- With unique keys a selection by key has at most one row. -/
theorem filter_key (target : Key) {rows : List Row} (unique : (rows.map key).Nodup) :
    (rows.filter fun row => decide (key row = target)) =
      (rows.find? fun row => decide (key row = target)).toList := by
  induction rows with
  | nil => rfl
  | cons row rows inductionHypothesis =>
      have parts := List.nodup_cons.mp unique
      by_cases same : key row = target
      · rw [List.filter_cons_of_pos (by simpa only [decide_eq_true_eq] using same),
          List.find?_cons_of_pos (by simpa only [decide_eq_true_eq] using same),
          inductionHypothesis parts.2, find?_of_absent key (same ▸ parts.1)]
        rfl
      · rw [List.filter_cons_of_neg (by simpa only [decide_eq_true_eq] using same),
          List.find?_cons_of_neg (by simpa only [decide_eq_true_eq] using same)]
        exact inductionHypothesis parts.2

/-- With unique keys an update selected by key acts on the one row found. -/
theorem updateRows_at (target : Key) (update : Row -> Except Error Row) {rows : List Row}
    (unique : (rows.map key).Nodup) :
    updateRows (fun row => decide (key row = target)) update rows =
      match rows.find? fun row => decide (key row = target) with
      | none => .ok rows
      | some row => (update row).map fun changed => replaceAt key target (fun _ => changed) rows := by
  induction rows with
  | nil => rfl
  | cons row rows inductionHypothesis =>
      have parts := List.nodup_cons.mp unique
      simp only [updateRows, visit, bind, Except.bind, pure, Except.pure, inductionHypothesis parts.2]
      by_cases same : key row = target
      · have absent : target ∉ rows.map key := same ▸ parts.1
        simp only [same, decide_true, if_true, List.find?_cons_of_pos, find?_of_absent key absent]
        cases update row with
        | error problem => rfl
        | ok changed =>
            simp only [Except.map, replaceAt, List.map_cons, same, if_true]
            have untouched := replaceAt_of_absent key absent fun _ => changed
            exact congrArg Except.ok (congrArg (List.cons changed) untouched.symm)
      · simp only [same, decide_false, Bool.false_eq_true, if_false, not_false_eq_true,
          List.find?_cons_of_neg]
        cases rows.find? fun later => decide (key later = target) with
        | none => rfl
        | some found =>
            simp only
            cases update found with
            | error problem => rfl
            | ok changed => simp only [Except.map, replaceAt, List.map_cons, same, if_false]

/-- With unique keys the image of the found row is the only one that is used. -/
theorem replaceAt_found {target : Key} {found : Row} {rows : List Row}
    (unique : (rows.map key).Nodup)
    (present : (rows.find? fun row => decide (key row = target)) = some found)
    (change : Row -> Row) :
    replaceAt key target (fun _ => change found) rows = replaceAt key target change rows := by
  refine List.map_congr_left fun row member => ?_
  by_cases same : key row = target
  · have foundKey : key found = target := by simpa only [decide_eq_true_eq] using List.find?_some present
    have equal := List.inj_on_of_nodup_map unique member (List.mem_of_find?_eq_some present)
      (same.trans foundKey.symm)
    rw [if_pos same, if_pos same, equal]
  · rw [if_neg same, if_neg same]

/-- The total over the rows splits into the row with the key and the others,
and replacing that row leaves the others' share. -/
theorem replaceAt_total [AddCommMonoid M] (weight : Row -> M) {target : Key} {found : Row}
    {rows : List Row} (unique : (rows.map key).Nodup)
    (present : (rows.find? fun row => decide (key row = target)) = some found) :
    Exists fun others : M => (rows.map weight).sum = weight found + others ∧
      forall change : Row -> Row,
        ((replaceAt key target change rows).map weight).sum = weight (change found) + others := by
  induction rows with
  | nil => cases present
  | cons row rows inductionHypothesis =>
      have parts := List.nodup_cons.mp unique
      by_cases same : key row = target
      · have equal : row = found := by
          simpa only [List.find?_cons_of_pos, same, decide_true, Option.some.injEq] using present
        subst found
        refine ⟨(rows.map weight).sum, by rw [List.map_cons, List.sum_cons], fun change => ?_⟩
        have untouched := replaceAt_of_absent key (same ▸ parts.1) change
        rw [show replaceAt key target change (row :: rows) =
            change row :: replaceAt key target change rows from by
              simp only [replaceAt, List.map_cons, same, if_true],
          untouched, List.map_cons, List.sum_cons]
      · have later : (rows.find? fun row => decide (key row = target)) = some found := by
          simpa only [same, decide_false, Bool.false_eq_true, not_false_eq_true,
            List.find?_cons_of_neg] using present
        rcases inductionHypothesis parts.2 later with ⟨others, before, after⟩
        refine ⟨weight row + others, ?_, fun change => ?_⟩
        · rw [List.map_cons, List.sum_cons, before, add_left_comm]
        · rw [show replaceAt key target change (row :: rows) =
              row :: replaceAt key target change rows from by
                simp only [replaceAt, List.map_cons, same, if_false],
            List.map_cons, List.sum_cons, after change, add_left_comm]

end Keyed

end RowTable

end Foundation
end CoreBank
