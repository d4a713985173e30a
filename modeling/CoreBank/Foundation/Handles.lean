import Mathlib.Data.List.Induction
import Mathlib.Data.List.Nodup

namespace CoreBank
namespace Foundation

/-!
# Handles that are opened and closed

A handle may be used and closed while it is open, and opened while it is not.
Calls that keep to this lead from no open handles to the handles they leave
open.  Every handle has then been closed as often as it was opened, but for the
ones that are left.
-/

inductive HandleCall (Handle : Type*) where
  | opens (handle : Handle)
  | uses (handle : Handle)
  | closes (handle : Handle)
  deriving DecidableEq, Repr

variable {Handle : Type*} [DecidableEq Handle]

/-- The open handles after a call, if it is allowed. -/
def HandleCall.on (opened : List Handle) : HandleCall Handle -> Option (List Handle)
  | .opens handle => if handle ∈ opened then none else some (handle :: opened)
  | .uses handle => if handle ∈ opened then some opened else none
  | .closes handle => if handle ∈ opened then some (opened.erase handle) else none

/-- The calls are allowed one after the other, and leave these handles open. -/
def Leaves (calls : List (HandleCall Handle)) (opened : List Handle) : Prop :=
  calls.foldlM HandleCall.on [] = some opened

instance (calls : List (HandleCall Handle)) (opened : List Handle) : Decidable (Leaves calls opened) :=
  inferInstanceAs (Decidable (_ = _))

theorem leaves_nil : Leaves ([] : List (HandleCall Handle)) [] :=
  rfl

/-- One more call. -/
theorem leaves_concat_iff {calls : List (HandleCall Handle)} {call : HandleCall Handle}
    {opened : List Handle} :
    Leaves (calls ++ [call]) opened ↔
      Exists fun before => Leaves calls before ∧ HandleCall.on before call = some opened := by
  unfold Leaves
  rw [List.foldlM_append]
  constructor
  · intro allowed
    rcases Option.bind_eq_some_iff.mp allowed with ⟨before, earlier, last⟩
    rw [List.foldlM_cons] at last
    rcases Option.bind_eq_some_iff.mp last with ⟨after, called, rest⟩
    cases rest
    exact ⟨before, earlier, called⟩
  · rintro ⟨before, earlier, called⟩
    rw [earlier]
    change (HandleCall.on before call >>= fun after => some after) = some opened
    rw [called]
    rfl

section Calls

variable {calls : List (HandleCall Handle)} {opened : List Handle} {handle : Handle}

theorem Leaves.opens (leaves : Leaves calls opened) (fresh : handle ∉ opened) :
    Leaves (calls ++ [.opens handle]) (handle :: opened) :=
  leaves_concat_iff.mpr ⟨opened, leaves, if_neg fresh⟩

theorem Leaves.uses (leaves : Leaves calls opened) (isOpen : handle ∈ opened) :
    Leaves (calls ++ [.uses handle]) opened :=
  leaves_concat_iff.mpr ⟨opened, leaves, if_pos isOpen⟩

theorem Leaves.closes (leaves : Leaves calls (handle :: opened)) :
    Leaves (calls ++ [.closes handle]) opened := by
  refine leaves_concat_iff.mpr ⟨handle :: opened, leaves, ?_⟩
  rw [HandleCall.on, if_pos List.mem_cons_self, List.erase_cons_head]

/-- A call on a handle that is not opened by it finds it open. -/
theorem Leaves.mem_of_call {earlier later : List (HandleCall Handle)} {call : HandleCall Handle}
    (leaves : Leaves (earlier ++ call :: later) opened) (needs : call = .uses handle ∨ call = .closes handle) :
    Exists fun before => Leaves earlier before ∧ handle ∈ before := by
  unfold Leaves at leaves
  rw [List.foldlM_append] at leaves
  rcases Option.bind_eq_some_iff.mp leaves with ⟨before, allowed, rest⟩
  rw [List.foldlM_cons] at rest
  rcases Option.bind_eq_some_iff.mp rest with ⟨after, called, _⟩
  refine ⟨before, allowed, ?_⟩
  by_contra absent
  rcases needs with rfl | rfl
  · rw [HandleCall.on, if_neg absent] at called
    cases called
  · rw [HandleCall.on, if_neg absent] at called
    cases called

/-- No handle is open twice, and each is closed as often as it was opened, but
for the open ones. -/
theorem Leaves.balance (leaves : Leaves calls opened) : opened.Nodup ∧ forall handle,
    calls.count (.opens handle) = calls.count (.closes handle) + opened.count handle := by
  induction calls using List.reverseRecOn generalizing opened with
  | nil =>
      cases leaves
      exact ⟨List.nodup_nil, fun handle => rfl⟩
  | append_singleton calls call inductionHypothesis =>
      rcases leaves_concat_iff.mp leaves with ⟨before, earlier, called⟩
      rcases inductionHypothesis earlier with ⟨single, balance⟩
      cases call with
      | opens other =>
          rw [HandleCall.on] at called
          split_ifs at called with present
          cases called
          refine ⟨List.nodup_cons.mpr ⟨present, single⟩, fun handle => ?_⟩
          rw [List.count_append, List.count_append, balance handle]
          by_cases same : other = handle
          · simp [same]
            omega
          · simp [same]
      | uses other =>
          rw [HandleCall.on] at called
          split_ifs at called with present
          cases called
          refine ⟨single, fun handle => ?_⟩
          simpa [List.count_append] using balance handle
      | closes other =>
          rw [HandleCall.on] at called
          split_ifs at called with present
          cases called
          refine ⟨single.erase other, fun handle => ?_⟩
          rw [List.count_append, List.count_append, balance handle]
          by_cases same : other = handle
          · subst same
            have positive : 0 < before.count other := List.count_pos_iff.mpr present
            simp [List.count_erase_self]
            omega
          · simp [same, List.count_erase_of_ne (Ne.symm same)]

end Calls

/-! ## Handles that are numbered -/

/-- Calls whose handles have been given out as the numbers up to `issued`, each
of them once. -/
structure Numbered (calls : List (HandleCall ℕ)) (opened : List ℕ) (issued : ℕ) : Prop where
  leaves : Leaves calls opened
  below : forall handle, handle ∈ opened -> handle < issued
  once : forall handle, calls.count (.opens handle) = if handle < issued then 1 else 0

namespace Numbered

variable {calls : List (HandleCall ℕ)} {opened : List ℕ} {issued handle : ℕ}

theorem nil : Numbered [] [] 0 where
  leaves := leaves_nil
  below _ member := absurd member List.not_mem_nil
  once _ := rfl

theorem opens (numbered : Numbered calls opened issued) :
    Numbered (calls ++ [.opens issued]) (issued :: opened) (issued + 1) where
  leaves := numbered.leaves.opens fun member => Nat.lt_irrefl _ (numbered.below issued member)
  below handle member := by
    rcases List.mem_cons.mp member with rfl | member
    · exact Nat.lt_succ_self _
    · exact Nat.lt_succ_of_lt (numbered.below handle member)
  once handle := by
    rw [List.count_append, numbered.once handle]
    by_cases same : issued = handle
    · simp [same]
    · have others : (handle < issued ↔ handle < issued + 1) := by omega
      simp [same, others]

theorem uses (numbered : Numbered calls opened issued) (isOpen : handle ∈ opened) :
    Numbered (calls ++ [.uses handle]) opened issued where
  leaves := numbered.leaves.uses isOpen
  below := numbered.below
  once other := by
    rw [List.count_append, numbered.once other]
    simp

theorem closes (numbered : Numbered calls (handle :: opened) issued) :
    Numbered (calls ++ [.closes handle]) opened issued where
  leaves := numbered.leaves.closes
  below other member := numbered.below other (List.mem_cons_of_mem handle member)
  once other := by
    rw [List.count_append, numbered.once other]
    simp

/-- A handle that has been given out is open, or has been closed once. -/
theorem open_or_closed (numbered : Numbered calls opened issued) (given : handle < issued) :
    handle ∈ opened ∧ calls.count (.closes handle) = 0 ∨
      handle ∉ opened ∧ calls.count (.closes handle) = 1 := by
  rcases numbered.leaves.balance with ⟨single, balance⟩
  have total := balance handle
  rw [numbered.once handle, if_pos given] at total
  by_cases present : handle ∈ opened
  · rw [List.count_eq_one_of_mem single present] at total
    exact Or.inl ⟨present, by omega⟩
  · rw [List.count_eq_zero_of_not_mem present] at total
    exact Or.inr ⟨present, by omega⟩

/-- Nothing is done with a handle that has been closed. -/
theorem not_closed {earlier later : List (HandleCall ℕ)} {call : HandleCall ℕ}
    (numbered : Numbered (earlier ++ call :: later) opened issued)
    (needs : call = .uses handle ∨ call = .closes handle) : .closes handle ∉ earlier := by
  rcases numbered.leaves.mem_of_call needs with ⟨before, allowed, present⟩
  rcases allowed.balance with ⟨single, balance⟩
  have total := balance handle
  have atMostOnce : (earlier ++ call :: later).count (.opens handle) ≤ 1 := by
    rw [numbered.once handle]
    split_ifs <;> omega
  rw [List.count_append] at atMostOnce
  rw [List.count_eq_one_of_mem single present] at total
  exact List.count_eq_zero.mp (by omega)

end Numbered

end Foundation
end CoreBank
