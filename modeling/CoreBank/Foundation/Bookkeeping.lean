import CoreBank.Foundation.Runs
import Mathlib.Algebra.BigOperators.Group.List.Basic
import Mathlib.Algebra.Order.BigOperators.Group.List
import Mathlib.Algebra.Order.Group.Defs
import Mathlib.Tactic.Abel

namespace CoreBank
namespace Foundation

/-!
# Postings and their order

A posting moves an amount from one account to another.  What a list of postings
does to the balances is a sum over the list, so its order does not matter.  A
posting is admitted when its source covers it and its destination stays below a
limit.  A list whose outgoing sums are covered at the outset, and whose incoming
sums stay below the limit at the outset, is admitted posting by posting in
every order.
-/

structure Posting (Key Amount : Type*) where
  source : Key
  destination : Key
  amount : Amount

variable {Key Amount : Type*} [DecidableEq Key]

section Sums

variable [AddCommGroup Amount]

/-- The balances after one posting. -/
def post (balances : Key -> Amount) (posting : Posting Key Amount) : Key -> Amount := fun key =>
  balances key + (if posting.destination = key then posting.amount else 0) -
    (if posting.source = key then posting.amount else 0)

/-- What the postings bring to an account. -/
def received (key : Key) (postings : List (Posting Key Amount)) : Amount :=
  (postings.map fun posting => if posting.destination = key then posting.amount else 0).sum

/-- What the postings take from an account. -/
def paid (key : Key) (postings : List (Posting Key Amount)) : Amount :=
  (postings.map fun posting => if posting.source = key then posting.amount else 0).sum

theorem received_cons (key : Key) (posting : Posting Key Amount) (postings : List (Posting Key Amount)) :
    received key (posting :: postings) =
      (if posting.destination = key then posting.amount else 0) + received key postings := by
  rw [received, List.map_cons, List.sum_cons, received]

theorem paid_cons (key : Key) (posting : Posting Key Amount) (postings : List (Posting Key Amount)) :
    paid key (posting :: postings) =
      (if posting.source = key then posting.amount else 0) + paid key postings := by
  rw [paid, List.map_cons, List.sum_cons, paid]

theorem received_perm (key : Key) {first second : List (Posting Key Amount)}
    (permutes : first.Perm second) : received key first = received key second :=
  (permutes.map _).sum_eq

theorem paid_perm (key : Key) {first second : List (Posting Key Amount)}
    (permutes : first.Perm second) : paid key first = paid key second :=
  (permutes.map _).sum_eq

/-- The balances after a list of postings. -/
theorem run_post (balances : Key -> Amount) (postings : List (Posting Key Amount)) (key : Key) :
    run post balances postings key = balances key + received key postings - paid key postings := by
  induction postings generalizing balances with
  | nil =>
      change balances key = balances key + 0 - 0
      rw [add_zero, sub_zero]
  | cons posting postings inductionHypothesis =>
      change run post (post balances posting) postings key = _
      rw [inductionHypothesis, received_cons, paid_cons, post]
      abel

end Sums

section Order

variable [AddCommGroup Amount] [LinearOrder Amount] [IsOrderedAddMonoid Amount]

/-- A posting that can be made now. -/
structure Admits (limit : Amount) (balances : Key -> Amount) (posting : Posting Key Amount) : Prop where
  positive : 0 < posting.amount
  covered : posting.amount ≤ balances posting.source
  below : posting.source ≠ posting.destination ->
    balances posting.destination + posting.amount < limit

/-- The opening balances cover everything that is paid, and stay below the
limit with everything that is received. -/
structure Covers (limit : Amount) (balances : Key -> Amount) (postings : List (Posting Key Amount)) :
    Prop where
  positive : forall posting, posting ∈ postings -> 0 < posting.amount
  covered : forall posting, posting ∈ postings ->
    paid posting.source postings ≤ balances posting.source
  below : forall posting, posting ∈ postings ->
    balances posting.destination + received posting.destination postings < limit

variable {limit : Amount} {balances : Key -> Amount} {posting : Posting Key Amount}
  {postings : List (Posting Key Amount)}

omit [DecidableEq Key] [IsOrderedAddMonoid Amount] in
theorem share_nonneg (positive : 0 < posting.amount) (condition : Prop) [Decidable condition] :
    0 ≤ if condition then posting.amount else 0 := by
  split_ifs
  · exact positive.le
  · exact le_refl 0

theorem received_nonneg (key : Key) (positive : forall posting, posting ∈ postings -> 0 < posting.amount) :
    0 ≤ received key postings := by
  apply List.sum_nonneg
  intro share member
  rcases List.mem_map.mp member with ⟨posting, isPosting, rfl⟩
  exact share_nonneg (positive posting isPosting) _

theorem paid_nonneg (key : Key) (positive : forall posting, posting ∈ postings -> 0 < posting.amount) :
    0 ≤ paid key postings := by
  apply List.sum_nonneg
  intro share member
  rcases List.mem_map.mp member with ⟨posting, isPosting, rfl⟩
  exact share_nonneg (positive posting isPosting) _

omit [IsOrderedAddMonoid Amount] in
theorem Covers.perm {order : List (Posting Key Amount)} (covers : Covers limit balances postings)
    (permutes : order.Perm postings) : Covers limit balances order where
  positive posting member := covers.positive posting (permutes.mem_iff.mp member)
  covered posting member := by
    rw [paid_perm _ permutes]
    exact covers.covered posting (permutes.mem_iff.mp member)
  below posting member := by
    rw [received_perm _ permutes]
    exact covers.below posting (permutes.mem_iff.mp member)

theorem Covers.head (covers : Covers limit balances (posting :: postings)) :
    Admits limit balances posting where
  positive := covers.positive posting List.mem_cons_self
  covered := by
    have later : 0 ≤ paid posting.source postings :=
      paid_nonneg _ fun other member => covers.positive other (List.mem_cons_of_mem _ member)
    have whole := covers.covered posting List.mem_cons_self
    rw [paid_cons, if_pos rfl] at whole
    exact (le_add_of_nonneg_right later).trans whole
  below := by
    intro _
    have later : 0 ≤ received posting.destination postings :=
      received_nonneg _ fun other member => covers.positive other (List.mem_cons_of_mem _ member)
    have whole := covers.below posting List.mem_cons_self
    rw [received_cons, if_pos rfl, ← add_assoc] at whole
    exact (le_add_of_nonneg_right later).trans_lt whole

/-- What is still to be paid stays covered, and what is still to be received
stays below the limit. -/
theorem Covers.tail (covers : Covers limit balances (posting :: postings)) :
    Covers limit (post balances posting) postings := by
  have positive := covers.positive posting List.mem_cons_self
  constructor
  · intro other member
    exact covers.positive other (List.mem_cons_of_mem _ member)
  · intro other member
    have whole := covers.covered other (List.mem_cons_of_mem _ member)
    have brought := share_nonneg positive (posting.destination = other.source)
    rw [paid_cons] at whole
    rw [post, le_sub_iff_add_le, add_comm]
    exact whole.trans (le_add_of_nonneg_right brought)
  · intro other member
    have whole := covers.below other (List.mem_cons_of_mem _ member)
    have taken := share_nonneg positive (posting.source = other.destination)
    rw [received_cons, ← add_assoc] at whole
    refine lt_of_le_of_lt ?_ whole
    rw [post]
    exact add_le_add_left (sub_le_self _ taken) _

/-- Covered postings are admitted one by one, in the order they stand in. -/
theorem Covers.along (covers : Covers limit balances postings) :
    Along post (Admits limit) balances postings := by
  induction postings generalizing balances with
  | nil => exact trivial
  | cons posting postings inductionHypothesis =>
      exact ⟨covers.head, inductionHypothesis covers.tail⟩

end Order

end Foundation
end CoreBank
