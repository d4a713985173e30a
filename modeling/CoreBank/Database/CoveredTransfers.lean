import CoreBank.Database.ExactTransfers
import CoreBank.Foundation.Bookkeeping
import Mathlib.Data.Multiset.AddSub

namespace CoreBank

open Foundation

/-!
# Covered transfers commute

Among accounts of one currency whose opening balances cover everything they
will pay, and leave room for everything they will receive, each call of a list
is a posting.  The calls then succeed in every order, and the order leaves no
trace but in the keys and times of the ledger rows.

The sequence behind `transaction_id` gives each call a key; a key that is
missing or already in the ledger would make the call fail.
-/

/-- A transfer of a whole number of cents. -/
structure WholeTransfer where
  fromId : ℤ
  toId : ℤ
  amount : Decimal
  description : Option String
  whole : amount.IsWholeCent

/-- The columns of a ledger row that say what was transferred. -/
abbrev LedgerEntry : Type :=
  Option ℤ × Option ℤ × WithTop ℤ × Option String

def Transaction.entry (row : Transaction) : LedgerEntry :=
  (row.fromAccount, row.toAccount, row.amount.money.measure, row.description)

namespace WholeTransfer

def cents (transfer : WholeTransfer) : ℤ :=
  ⌊transfer.amount.inCents⌋

def call (transfer : WholeTransfer) : TransferCall :=
  wholeTransfer transfer.fromId transfer.toId transfer.amount transfer.description

def posting (transfer : WholeTransfer) : Posting ℤ ℤ where
  source := transfer.fromId
  destination := transfer.toId
  amount := transfer.cents

def entry (transfer : WholeTransfer) : LedgerEntry :=
  (some transfer.fromId, some transfer.toId, (transfer.cents : WithTop ℤ), transfer.description)

end WholeTransfer

/-- Call after call, each in a transaction of its own; the first error ends the
list. -/
def transferAll : List (WholeTransfer × Generated) -> Database -> Except SqlError Database
  | [], database => .ok database
  | (transfer, generated) :: later, database => do
      let after <- callTransferMoney transfer.call generated database
      transferAll later after

/-- The sequence gives as many keys, all different and none in the ledger. -/
def Issues (generated : List Generated) (database : Database) : Prop :=
  Exists fun ids : List ℤ => generated.map Generated.transactionId = ids.map some ∧ ids.Nodup ∧
    forall id, id ∈ ids -> id ∉ database.transactions.map Transaction.transactionId

/-- Transfers of positive amounts among some accounts of one currency, all of
which are covered by the opening balances and leave them below 10^12 currency
units. -/
structure CoveredTransfers (database : Database) (members : Set ℤ) (currency : Varchar 3)
    (transfers : List WholeTransfer) : Prop where
  between : forall transfer, transfer ∈ transfers ->
    transfer.fromId ∈ members ∧ transfer.toId ∈ members
  positive : forall transfer, transfer ∈ transfers -> 0 < transfer.cents
  accounts : forall id, id ∈ members -> Exists fun account =>
    database.account? id = some account ∧ account.currency = some currency ∧
    ((forall transfer, transfer ∈ transfers -> transfer.fromId ≠ id) ∨
      ((paid id (transfers.map WholeTransfer.posting) : ℤ) : WithTop ℤ) ≤ account.balance.measure) ∧
    account.balance.measure + ((received id (transfers.map WholeTransfer.posting) : ℤ) : WithTop ℤ) <
      ((10 ^ 14 : ℤ) : WithTop ℤ)

/-- The accounts hold the balances, in cents. -/
def Holds (members : Set ℤ) (currency : Varchar 3) (balances : ℤ -> ℤ) (database : Database) : Prop :=
  forall id, id ∈ members -> Exists fun account => database.account? id = some account ∧
    account.currency = some currency ∧ account.balance.measure = (balances id : WithTop ℤ)

/-! ## One call -/

theorem Money.isOrdinary_of_measure {money : Money} {cents : ℤ}
    (number : money.measure = (cents : WithTop ℤ)) :
    money.IsOrdinary := by
  cases money with
  | nan => exact absurd number.symm (WithTop.coe_ne_top)
  | cents amount => exact ⟨amount, rfl⟩

section Calls

variable {members : Set ℤ} {currency : Varchar 3} {balances : ℤ -> ℤ} {database : Database}

theorem Holds.regularAt (holds : Holds members currency balances database) {id : ℤ}
    (member : id ∈ members) : RegularAt database id := by
  rcases holds id member with ⟨account, found, currencyIs, number⟩
  constructor
  · intro other otherFound
    cases found.symm.trans otherFound
    rw [currencyIs]
    exact Option.some_ne_none currency
  · intro other otherFound
    cases found.symm.trans otherFound
    exact Money.isOrdinary_of_measure number

theorem Holds.permits (holds : Holds members currency balances database) {transfer : WholeTransfer}
    (source : transfer.fromId ∈ members) (destination : transfer.toId ∈ members)
    (admits : Admits (10 ^ 14) balances transfer.posting) :
    Permits database transfer.fromId transfer.toId transfer.cents := by
  rcases holds _ source with ⟨sourceRow, sourceFound, sourceCurrency, sourceNumber⟩
  rcases holds _ destination with
    ⟨destinationRow, destinationFound, destinationCurrency, destinationNumber⟩
  refine ⟨admits.positive, sourceRow, destinationRow, sourceFound, destinationFound, ?_, ?_, ?_⟩
  · rw [sourceCurrency, destinationCurrency]
  · rw [sourceNumber, WithTop.coe_le_coe]
    exact admits.covered
  · intro different
    rw [destinationNumber, ← WithTop.coe_add, WithTop.coe_lt_coe]
    exact admits.below different

/-- A transfer changes the balances as a posting does. -/
theorem Holds.moves (holds : Holds members currency balances database) {after : Database}
    {transfer : WholeTransfer} {generated : Generated}
    (moves : Moves database after transfer.fromId transfer.toId transfer.cents transfer.description
      generated) :
    Holds members currency (post balances transfer.posting) after := by
  intro id member
  rcases holds id member with ⟨account, found, currencyIs, number⟩
  by_cases only : transfer.fromId = transfer.toId
  · have unchanged : after.account? id = database.account? id := by
      rw [Database.account?, moves.onlyAccount only, Database.account?]
    refine ⟨account, unchanged.trans found, currencyIs, ?_⟩
    have same : post balances transfer.posting id = balances id := by
      simp only [post, WholeTransfer.posting, only, add_sub_cancel_right]
    rw [same, number]
  · by_cases atSource : transfer.fromId = id
    · subst atSource
      rcases moves.source only with ⟨row, balance, rowFound, later, debited⟩
      cases found.symm.trans rowFound
      refine ⟨_, later, currencyIs, ?_⟩
      have less : post balances transfer.posting transfer.fromId =
          balances transfer.fromId - transfer.cents := by
        simp only [post, WholeTransfer.posting, Ne.symm only, if_false, if_true, add_zero]
      cases balance with
      | nan =>
          rw [number, Money.measure_nan, top_add] at debited
          exact absurd debited WithTop.top_ne_coe
      | cents result =>
          rw [number, Money.measure_cents, ← WithTop.coe_add, WithTop.coe_inj] at debited
          rw [less, Money.measure_cents, ← debited, add_sub_cancel_right]
    · by_cases atDestination : transfer.toId = id
      · subst atDestination
        rcases moves.destination only with ⟨row, balance, rowFound, later, credited⟩
        cases found.symm.trans rowFound
        refine ⟨_, later, currencyIs, ?_⟩
        have more : post balances transfer.posting transfer.toId =
            balances transfer.toId + transfer.cents := by
          simp only [post, WholeTransfer.posting, only, if_false, if_true, sub_zero]
        rw [credited, number, more, WithTop.coe_add]
      · refine ⟨account, ?_, currencyIs, ?_⟩
        · rw [moves.others id (Ne.symm atSource) (Ne.symm atDestination), found]
        · have same : post balances transfer.posting id = balances id := by
            simp only [post, WholeTransfer.posting, atSource, atDestination, if_false, add_zero,
              sub_zero]
          rw [same, number]

/-! ## A list of calls -/

theorem Issues.head {generated : Generated} {later : List Generated}
    (issues : Issues (generated :: later) database) : generated.IsFresh database := by
  rcases issues with ⟨ids, given, _, unused⟩
  cases ids with
  | nil => cases given
  | cons id ids =>
      rw [List.map_cons, List.map_cons, List.cons.injEq] at given
      exact ⟨id, given.1, unused id List.mem_cons_self⟩

theorem Issues.tail {generated : Generated} {later : List Generated}
    (issues : Issues (generated :: later) database) {after : Database} {fromId toId cents : ℤ}
    {description : Option String}
    (moves : Moves database after fromId toId cents description generated) : Issues later after := by
  rcases issues with ⟨ids, given, different, unused⟩
  rcases moves.entry with ⟨row, appended, _, _, _, _, key, _, _⟩
  cases ids with
  | nil => cases given
  | cons id ids =>
      rw [List.map_cons, List.map_cons, List.cons.injEq] at given
      have sameKey : row.transactionId = id := Option.some.inj (key.symm.trans given.1)
      refine ⟨ids, given.2, (List.nodup_cons.mp different).2, fun other member => ?_⟩
      rw [appended, List.map_append, List.map_singleton, List.mem_append, List.mem_singleton,
        sameKey, not_or]
      refine ⟨unused other (List.mem_cons_of_mem _ member), ?_⟩
      rintro rfl
      exact (List.nodup_cons.mp different).1 member

/-- Admitted one by one, the calls succeed and leave the balances of their
postings; the ledger grows by one row for each, in their order. -/
theorem Holds.transferAll (holds : Holds members currency balances database)
    {order : List WholeTransfer}
    (between : forall transfer, transfer ∈ order -> transfer.fromId ∈ members ∧ transfer.toId ∈ members)
    (admitted : Along post (Admits (10 ^ 14)) balances (order.map WholeTransfer.posting))
    {generated : List Generated} (enough : generated.length = order.length)
    (issues : Issues generated database) :
    Exists fun final => CoreBank.transferAll (order.zip generated) database = .ok final ∧
      Holds members currency (run post balances (order.map WholeTransfer.posting)) final ∧
      (forall id, id ∉ members -> final.account? id = database.account? id) ∧
      Exists fun rows => final.transactions = database.transactions ++ rows ∧
        rows.map Transaction.entry = order.map WholeTransfer.entry := by
  induction order generalizing database balances generated with
  | nil =>
      have none : generated = [] := List.length_eq_zero_iff.mp enough
      subst none
      exact ⟨database, rfl, holds, fun _ _ => rfl, [], (List.append_nil _).symm, rfl⟩
  | cons transfer order inductionHypothesis =>
      cases generated with
      | nil => cases enough
      | cons first later =>
          rcases between transfer List.mem_cons_self with ⟨source, destination⟩
          have permits := holds.permits source destination admitted.1
          rcases permits.call_succeeds (holds.regularAt source) (holds.regularAt destination) none
            transfer.whole transfer.description issues.head with ⟨after, success⟩
          have moves := (permits_of_call (holds.regularAt source) (holds.regularAt destination)
            transfer.whole success).2.2
          rcases inductionHypothesis (holds.moves moves)
            (fun other member => between other (List.mem_cons_of_mem _ member)) admitted.2
            (Nat.succ.inj enough) (issues.tail moves) with
            ⟨final, succeeds, holdsFinal, frame, rows, appended, entries⟩
          rcases moves.entry with ⟨row, recorded, fromAccount, toAccount, amount, description, _⟩
          refine ⟨final, ?_, holdsFinal, ?_, row :: rows, ?_, ?_⟩
          · rw [List.zip_cons_cons, CoreBank.transferAll]
            exact bind_eq_ok_iff.mpr ⟨after, success, succeeds⟩
          · intro id outside
            rw [frame id outside]
            apply moves.others
            · rintro rfl
              exact outside source
            · rintro rfl
              exact outside destination
          · rw [appended, recorded, List.append_assoc]
            rfl
          · rw [List.map_cons, List.map_cons, entries, Transaction.entry, fromAccount, toAccount,
              amount, description]
            rfl

end Calls

/-! ## Every order -/

/-- The opening balances of a covered list, in cents. -/
theorem CoveredTransfers.exists_balances {database : Database} {members : Set ℤ}
    {currency : Varchar 3} {transfers : List WholeTransfer}
    (covered : CoveredTransfers database members currency transfers) :
    Exists fun opening => Holds members currency opening database ∧
      Covers (10 ^ 14) opening (transfers.map WholeTransfer.posting) := by
  have numbers : forall id, Exists fun cents : ℤ => id ∈ members ->
      Exists fun account => database.account? id = some account ∧
        account.currency = some currency ∧ account.balance.measure = (cents : WithTop ℤ) ∧
        ((forall transfer, transfer ∈ transfers -> transfer.fromId ≠ id) ∨
          paid id (transfers.map WholeTransfer.posting) ≤ cents) ∧
        cents + received id (transfers.map WholeTransfer.posting) < 10 ^ 14 := by
    intro id
    by_cases member : id ∈ members
    · rcases covered.accounts id member with ⟨account, found, currencyIs, enough, below⟩
      cases number : account.balance with
      | nan =>
          rw [number, Money.measure_nan, top_add] at below
          exact absurd below not_top_lt
      | cents amount =>
          rw [number, Money.measure_cents] at enough below
          rw [← WithTop.coe_add, WithTop.coe_lt_coe] at below
          rw [WithTop.coe_le_coe] at enough
          refine ⟨amount.value, fun _ => ⟨account, found, currencyIs, ?_, enough, below⟩⟩
          rw [number, Money.measure_cents]
    · exact ⟨0, fun inside => False.elim (member inside)⟩
  rcases Classical.axiomOfChoice numbers with ⟨opening, opens⟩
  refine ⟨opening, ?_, ?_, ?_, ?_⟩
  · intro id member
    rcases opens id member with ⟨account, found, currencyIs, number, _⟩
    exact ⟨account, found, currencyIs, number⟩
  · intro posting isPosting
    rcases List.mem_map.mp isPosting with ⟨transfer, member, rfl⟩
    exact covered.positive transfer member
  · intro posting isPosting
    rcases List.mem_map.mp isPosting with ⟨transfer, member, rfl⟩
    rcases opens transfer.fromId (covered.between transfer member).1 with
      ⟨_, _, _, _, unnamed | enough, _⟩
    · exact False.elim (unnamed transfer member rfl)
    · exact enough
  · intro posting isPosting
    rcases List.mem_map.mp isPosting with ⟨transfer, member, rfl⟩
    rcases opens transfer.toId (covered.between transfer member).2 with ⟨_, _, _, _, _, below⟩
    exact below

/-- In every order all calls succeed, and what they leave in the balances and
in the ledger does not mention the order. -/
theorem coveredTransfers_commute {database : Database} {members : Set ℤ} {currency : Varchar 3}
    {transfers : List WholeTransfer}
    (covered : CoveredTransfers database members currency transfers)
    {order : List WholeTransfer} (permutes : order.Perm transfers) {generated : List Generated}
    (enough : generated.length = order.length) (issues : Issues generated database) :
    Exists fun final => transferAll (order.zip generated) database = .ok final ∧
      (forall id, id ∈ members -> (final.balance? id).map Money.measure =
        (database.balance? id).map fun opening => opening.measure +
          ((received id (transfers.map WholeTransfer.posting) -
            paid id (transfers.map WholeTransfer.posting) : ℤ) : WithTop ℤ)) ∧
      (forall id, id ∉ members -> final.account? id = database.account? id) ∧
      (final.transactions.map Transaction.entry : Multiset LedgerEntry) =
        (database.transactions.map Transaction.entry : Multiset LedgerEntry) +
          (transfers.map WholeTransfer.entry : Multiset LedgerEntry) := by
  rcases covered.exists_balances with ⟨opening, holds, covers⟩
  have permutesPostings := permutes.map WholeTransfer.posting
  rcases holds.transferAll
    (fun transfer member => covered.between transfer (permutes.mem_iff.mp member))
    (covers.perm permutesPostings).along enough issues with
    ⟨final, succeeds, holdsFinal, frame, rows, appended, entries⟩
  refine ⟨final, succeeds, ?_, frame, ?_⟩
  · intro id member
    rcases holds id member with ⟨before, foundBefore, _, numberBefore⟩
    rcases holdsFinal id member with ⟨after, foundAfter, _, numberAfter⟩
    rw [Database.balance?, Database.balance?, foundBefore, foundAfter, Option.map_some,
      Option.map_some, Option.map_some, Option.map_some, numberBefore, numberAfter,
      ← WithTop.coe_add, run_post, received_perm id permutesPostings, paid_perm id permutesPostings,
      add_sub_assoc]
  · rw [appended, List.map_append, entries, ← Multiset.coe_add]
    exact congrArg _ (Multiset.coe_eq_coe.mpr (permutes.map WholeTransfer.entry))

/-- Thirty cents from the first account to the second. -/
def thirtyCentsOver : WholeTransfer where
  fromId := 1
  toId := 2
  amount := ⟨30, 2⟩
  description := none
  whole := by decide +kernel

/-- Twenty cents back. -/
def twentyCentsBack : WholeTransfer where
  fromId := 2
  toId := 1
  amount := ⟨20, 2⟩
  description := none
  whole := by decide +kernel

theorem coveredTransfers_twoWays :
    CoveredTransfers (twoAccounts (.cents ⟨100, by decide⟩) (.cents ⟨50, by decide⟩)) {1, 2}
      ⟨"USD", by decide⟩ [thirtyCentsOver, twentyCentsBack] where
  between := by
    intro transfer member
    rcases List.mem_cons.mp member with rfl | member
    · exact ⟨Or.inl rfl, Or.inr rfl⟩
    · cases List.mem_singleton.mp member
      exact ⟨Or.inr rfl, Or.inl rfl⟩
  positive := by decide +kernel
  accounts := by
    rintro id (rfl | rfl)
    · refine ⟨_, rfl, rfl, Or.inr (WithTop.coe_le_coe.mpr ?_), WithTop.coe_lt_coe.mpr ?_⟩
      · decide +kernel
      · decide +kernel
    · refine ⟨_, rfl, rfl, Or.inr (WithTop.coe_le_coe.mpr ?_), WithTop.coe_lt_coe.mpr ?_⟩
      · decide +kernel
      · decide +kernel

theorem coveredTransfers_commute_twoWays :
    Exists fun final => transferAll
      ([twentyCentsBack, thirtyCentsOver].zip [⟨some 1, none⟩, ⟨some 2, none⟩])
      (twoAccounts (.cents ⟨100, by decide⟩) (.cents ⟨50, by decide⟩)) = .ok final := by
  have issues : Issues [⟨some 1, none⟩, ⟨some 2, none⟩]
      (twoAccounts (.cents ⟨100, by decide⟩) (.cents ⟨50, by decide⟩)) :=
    ⟨[1, 2], rfl, by decide, fun _ _ => List.not_mem_nil⟩
  rcases coveredTransfers_commute coveredTransfers_twoWays (List.Perm.swap _ _ []) rfl issues with
    ⟨final, succeeds, _⟩
  exact ⟨final, succeeds⟩

/-- The one call of a covered list, on a ledger that already has the key that
the sequence is about to give. -/
theorem not_coveredTransfers_commute_of_every_sequence :
    ¬ forall (database : Database) (members : Set ℤ) (currency : Varchar 3)
      (transfers : List WholeTransfer), CoveredTransfers database members currency transfers ->
      forall order : List WholeTransfer, order.Perm transfers -> forall generated : List Generated,
      generated.length = order.length ->
      Exists fun final => transferAll (order.zip generated) database = .ok final := by
  intro always
  have covered : CoveredTransfers keyOneTaken {1, 2} ⟨"USD", by decide⟩ [thirtyCentsOver] := by
    refine ⟨?_, by decide +kernel, ?_⟩
    · intro transfer member
      cases List.mem_singleton.mp member
      exact ⟨Or.inl rfl, Or.inr rfl⟩
    · rintro id (rfl | rfl)
      · refine ⟨_, rfl, rfl, Or.inr (WithTop.coe_le_coe.mpr ?_), WithTop.coe_lt_coe.mpr ?_⟩
        · decide +kernel
        · decide +kernel
      · refine ⟨_, rfl, rfl, Or.inr (WithTop.coe_le_coe.mpr ?_), WithTop.coe_lt_coe.mpr ?_⟩
        · decide +kernel
        · decide +kernel
  rcases always keyOneTaken _ _ _ covered _ (List.Perm.refl _) [⟨some 1, none⟩] rfl with
    ⟨final, succeeds⟩
  rcases bind_eq_ok_iff.mp succeeds with ⟨after, success, _⟩
  rcases callTransferMoney_eq_ok_iff.mp success with ⟨accepted, _⟩
  have generates : accepted.transactionId = 1 := (Option.some.inj accepted.generates).symm
  exact accepted.fresh (by rw [generates]; decide)

end CoreBank
