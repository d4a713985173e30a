import CoreBank.Database.LedgerAgreement
import Mathlib.Data.List.TakeWhile

namespace CoreBank

open Foundation

/-!
# The days of the ledger

The id of a ledger row comes from a sequence, and its time from the clock, when
the transaction of the row begins.  On one connection the transactions come one
after the other, so that ids and times increase together and the view of the
transactions of a day is final when the day is over.

The sequence is not part of the transaction: a call that fails behind the
default leaves a gap.
-/

/-! ## The view -/

def microsecondsOfDay : ℤ :=
  24 * 60 * 60 * 1000000

/-- `timestamp::date`, as the number of the day. -/
def dateOf (timestamp : ℤ) : ℤ :=
  timestamp / microsecondsOfDay

/-- A row of `daily_transactions_view`. -/
structure DailyTransaction where
  transactionId : ℤ
  fromAccount : Option ℤ
  toAccount : Option ℤ
  amount : LedgerAmount
  description : Option String
  day : Option ℤ
  deriving DecidableEq, Repr

def Transaction.daily (row : Transaction) : DailyTransaction where
  transactionId := row.transactionId
  fromAccount := row.fromAccount
  toAccount := row.toAccount
  amount := row.amount
  description := row.description
  day := row.timestamp.map dateOf

def dailyTransactionsView (database : Database) : List DailyTransaction :=
  database.transactions.map Transaction.daily

/-- `WHERE day <= date`. -/
def DailyTransaction.isUntil (date : ℤ) (row : DailyTransaction) : Bool :=
  match row.day with
  | none => false
  | some day => decide (day ≤ date)

/-! ## Calls in the order of the clock -/

/-- A call of the procedure in a transaction that begins at a time. -/
structure TimedCall where
  call : TransferCall
  now : ℤ

/-- The tables, and the next value of `transactions_transaction_id_seq`. -/
structure Journal where
  database : Database
  nextValue : ℤ

/-- The call comes to the default of `transaction_id`. -/
def drawsId (call : TransferCall) (database : Database) : Bool :=
  Except.toBool do
    checkAmount call
    checkSelected call database
    let debited <- debit call ⟨database, some "on"⟩
    credit call debited.2

/-- The last value of a `SERIAL` column. -/
def maxInteger : ℤ :=
  2 ^ 31 - 1

namespace Journal

/-- The defaults of the row. -/
def generated (journal : Journal) (now : ℤ) : Generated where
  transactionId := if journal.nextValue ≤ maxInteger then some journal.nextValue else none
  timestamp := some now

def attempted (journal : Journal) (timed : TimedCall) : Attempt where
  call := timed.call
  generated := journal.generated timed.now

def step (journal : Journal) (timed : TimedCall) : Journal where
  database := attempt journal.database (journal.attempted timed)
  nextValue :=
    if drawsId timed.call journal.database ∧ journal.nextValue ≤ maxInteger then
      journal.nextValue + 1
    else journal.nextValue

end Journal

theorem Acceptance.drawsId {database : Database} {call : TransferCall} {generated : Generated}
    (accepted : Acceptance database call generated) : drawsId call database = true := by
  have success : transferMoney call generated ⟨database, none⟩ = .ok ((), ⟨accepted.result, some "off"⟩) :=
    transferMoney_iff_acceptance.mpr ⟨accepted, rfl⟩
  rcases transferMoney_eq_ok_iff.mp success with ⟨amount, accounts, block⟩
  rcases transferBlock_eq_ok_iff.mp block with ⟨debited, credited, _, debits, credits, _, _⟩
  change checkSelected call database = .ok () at accounts
  change debit call ⟨database, some "on"⟩ = _ at debits
  rw [CoreBank.drawsId, amount, accounts, debits]
  change Except.toBool (credit call debited) = true
  rw [credits]
  rfl

namespace Journal

/-- A call leaves the tables, or adds a row with the next id and the time. -/
theorem step_cases (journal : Journal) (timed : TimedCall) :
    (journal.step timed).database = journal.database ∧
        journal.nextValue ≤ (journal.step timed).nextValue ∨
      Exists fun accepted : Acceptance journal.database (journal.attempted timed).call
          (journal.attempted timed).generated =>
        (journal.step timed).database = accepted.result ∧
          accepted.row.transactionId = journal.nextValue ∧ accepted.row.timestamp = some timed.now ∧
          (journal.step timed).nextValue = journal.nextValue + 1 := by
  rcases attempt_cases journal.database (journal.attempted timed) with same | ⟨accepted, same⟩
  · refine Or.inl ⟨same, ?_⟩
    rw [step]
    split_ifs with draws
    · exact Int.le_of_lt (Int.lt_succ _)
    · exact le_refl _
  · have generates := accepted.generates
    change (if journal.nextValue ≤ maxInteger then some journal.nextValue else none) = _ at generates
    split_ifs at generates with inRange
    have id : accepted.transactionId = journal.nextValue := (Option.some.inj generates).symm
    have draws : drawsId timed.call journal.database = true := accepted.drawsId
    refine Or.inr ⟨accepted, same, id, ?_, ?_⟩
    · rfl
    · rw [step, if_pos ⟨draws, inRange⟩]

/-- The rows that a run adds. -/
structure Adds (before after : Journal) (calls : List TimedCall) (added : List Transaction) : Prop where
  rows : after.database.transactions = before.database.transactions ++ added
  ids : added.Pairwise fun earlier later => earlier.transactionId < later.transactionId
  issued : forall row, row ∈ added -> before.nextValue ≤ row.transactionId
  nextValue : before.nextValue ≤ after.nextValue
  below : forall row, row ∈ added -> row.transactionId < after.nextValue
  times : (added.map Transaction.timestamp).Sublist (calls.map fun timed => some timed.now)

theorem exists_adds (journal : Journal) (calls : List TimedCall) :
    Exists fun added => Adds journal (run step journal calls) calls added := by
  induction calls generalizing journal with
  | nil =>
      have none : forall row : Transaction, row ∉ [] := fun _ => List.not_mem_nil
      exact ⟨[], (List.append_nil _).symm, List.Pairwise.nil, fun row member => absurd member (none row),
        le_refl _, fun row member => absurd member (none row), List.Sublist.refl []⟩
  | cons timed calls inductionHypothesis =>
      rcases inductionHypothesis (journal.step timed) with ⟨added, rest⟩
      rcases step_cases journal timed with ⟨same, later⟩ | ⟨accepted, same, id, time, next⟩
      · refine ⟨added, ?_, rest.ids, ?_, later.trans rest.nextValue, rest.below, rest.times.cons _⟩
        · exact rest.rows.trans (by rw [same])
        · exact fun row member => later.trans (rest.issued row member)
      · have first : forall row, row ∈ added -> journal.nextValue + 1 ≤ row.transactionId := by
          intro row member
          rw [← next]
          exact rest.issued row member
        have further : journal.nextValue + 1 ≤ (run step journal (timed :: calls)).nextValue :=
          next ▸ rest.nextValue
        refine ⟨accepted.row :: added, ?_, ?_, ?_, ?_, ?_, ?_⟩
        · refine rest.rows.trans ?_
          rw [same, accepted.result_transactions, List.append_assoc, List.singleton_append]
        · refine List.pairwise_cons.mpr ⟨fun row member => ?_, rest.ids⟩
          have above := first row member
          omega
        · intro row member
          rcases List.mem_cons.mp member with rfl | member
          · exact le_of_eq id.symm
          · have above := first row member
            omega
        · omega
        · intro row member
          rcases List.mem_cons.mp member with rfl | member
          · omega
          · exact rest.below row member
        · rw [List.map_cons, List.map_cons, time]
          exact rest.times.cons_cons _

/-! ## Ids -/

/-- The sequence is ahead of the ledger. -/
def Issued (journal : Journal) : Prop :=
  forall row, row ∈ journal.database.transactions -> row.transactionId < journal.nextValue

theorem issued_run {journal : Journal} (issued : journal.Issued) (calls : List TimedCall) :
    (run step journal calls).Issued := by
  rcases exists_adds journal calls with ⟨added, adds⟩
  intro row member
  rw [adds.rows] at member
  rcases List.mem_append.mp member with earlier | later
  · exact Int.lt_of_lt_of_le (issued row earlier) adds.nextValue
  · exact adds.below row later

/-- An acceptance with another id that is not taken. -/
def withId {database : Database} {call : TransferCall} {generated : Generated}
    (accepted : Acceptance database call generated) {other : Generated} {id : ℤ}
    (given : other.transactionId = some id)
    (fresh : id ∉ database.transactions.map Transaction.transactionId) :
    Acceptance database call other :=
  { accepted with transactionId := id, generates := given, fresh := fresh }

/-- Until the sequence is exhausted, the id of a row is never what a call is
refused for. -/
theorem accepted_of_any_id (journal : Journal) (issued : journal.Issued) (executed : List TimedCall)
    (timed : TimedCall) (inRange : (run step journal executed).nextValue ≤ maxInteger)
    (possible : Exists fun generated => Exists fun result =>
      callTransferMoney timed.call generated (run step journal executed).database = .ok result) :
    Exists fun result => callTransferMoney timed.call
      ((run step journal executed).generated timed.now) (run step journal executed).database =
        .ok result := by
  rcases possible with ⟨generated, result, success⟩
  rcases callTransferMoney_eq_ok_iff.mp success with ⟨accepted, _⟩
  have given : ((run step journal executed).generated timed.now).transactionId =
      some (run step journal executed).nextValue := if_pos inRange
  have fresh : (run step journal executed).nextValue ∉
      (run step journal executed).database.transactions.map Transaction.transactionId := by
    intro member
    rcases List.mem_map.mp member with ⟨row, present, same⟩
    have below := issued_run issued executed row present
    omega
  exact ⟨(withId accepted given fresh).result,
    callTransferMoney_eq_ok_iff.mpr ⟨withId accepted given fresh, rfl⟩⟩

/-! ## Times -/

/-- The ids and the times of two rows are in the same order. -/
def Precedes (earlier later : Transaction) : Prop :=
  earlier.transactionId < later.transactionId ∧ Exists fun first => Exists fun second =>
    earlier.timestamp = some first ∧ later.timestamp = some second ∧ first ≤ second

/-- The calls come in the order of the clock. -/
def Ordered (calls : List TimedCall) : Prop :=
  calls.Pairwise fun earlier later => earlier.now ≤ later.now

theorem Adds.precedes {before after : Journal} {calls : List TimedCall} {added : List Transaction}
    (adds : Adds before after calls added) (ordered : Ordered calls) : added.Pairwise Precedes := by
  have times : (calls.map fun timed => some timed.now).Pairwise fun earlier later =>
      Exists fun first => Exists fun second =>
        earlier = some first ∧ later = some second ∧ first ≤ second := by
    rw [List.pairwise_map]
    exact ordered.imp fun inOrder => ⟨_, _, rfl, rfl, inOrder⟩
  have rows := times.sublist adds.times
  rw [List.pairwise_map] at rows
  exact adds.ids.and rows

/-- The calls up to the end of a day. -/
def untilDay (date : ℤ) (calls : List TimedCall) : List TimedCall :=
  calls.takeWhile fun timed => decide (dateOf timed.now ≤ date)

def afterDay (date : ℤ) (calls : List TimedCall) : List TimedCall :=
  calls.dropWhile fun timed => decide (dateOf timed.now ≤ date)

theorem dateOf_le_dateOf {first second : ℤ} (inOrder : first ≤ second) : dateOf first ≤ dateOf second :=
  Int.ediv_le_ediv (by decide) inOrder

theorem until_of_mem {date : ℤ} {calls : List TimedCall} {timed : TimedCall}
    (member : timed ∈ untilDay date calls) : dateOf timed.now ≤ date :=
  of_decide_eq_true
    (List.mem_takeWhile_imp (p := fun timed : TimedCall => decide (dateOf timed.now ≤ date)) member)

theorem after_of_mem {date : ℤ} {calls : List TimedCall} (ordered : Ordered calls) {timed : TimedCall}
    (member : timed ∈ afterDay date calls) : date < dateOf timed.now := by
  induction calls with
  | nil => exact absurd member List.not_mem_nil
  | cons first calls inductionHypothesis =>
      rcases List.pairwise_cons.mp ordered with ⟨before, rest⟩
      rw [afterDay] at member
      by_cases early : dateOf first.now ≤ date
      · rw [List.dropWhile_cons, if_pos (decide_eq_true early)] at member
        exact inductionHypothesis rest member
      · rw [List.dropWhile_cons, if_neg (by rwa [decide_eq_true_eq])] at member
        rcases List.mem_cons.mp member with rfl | member
        · exact Int.lt_of_not_ge early
        · exact Int.lt_of_lt_of_le (Int.lt_of_not_ge early) (dateOf_le_dateOf (before timed member))

theorem untilDay_append_afterDay (date : ℤ) (calls : List TimedCall) :
    untilDay date calls ++ afterDay date calls = calls :=
  List.takeWhile_append_dropWhile

/-- What the day of a row is, for a row that a run has added. -/
theorem Adds.day {before after : Journal} {calls : List TimedCall} {added : List Transaction}
    (adds : Adds before after calls added) {row : Transaction} (member : row ∈ added) :
    Exists fun timed => timed ∈ calls ∧ row.daily.day = some (dateOf timed.now) := by
  have among := adds.times.subset (List.mem_map_of_mem member)
  rcases List.mem_map.mp among with ⟨timed, present, same⟩
  refine ⟨timed, present, ?_⟩
  rw [Transaction.daily, ← same]
  rfl

theorem Adds.isUntil {before after : Journal} {calls : List TimedCall} {added : List Transaction}
    (adds : Adds before after calls added) {date : ℤ}
    (early : forall timed, timed ∈ calls -> dateOf timed.now ≤ date) :
    added.filter (fun row => row.daily.isUntil date) = added := by
  rw [List.filter_eq_self]
  intro row member
  rcases adds.day member with ⟨timed, present, day⟩
  rw [DailyTransaction.isUntil, day]
  exact decide_eq_true (early timed present)

theorem Adds.isAfter {before after : Journal} {calls : List TimedCall} {added : List Transaction}
    (adds : Adds before after calls added) {date : ℤ}
    (late : forall timed, timed ∈ calls -> date < dateOf timed.now) :
    added.filter (fun row => row.daily.isUntil date) = [] := by
  rw [List.filter_eq_nil_iff]
  intro row member
  rcases adds.day member with ⟨timed, present, day⟩
  rw [DailyTransaction.isUntil, day, decide_eq_true_eq]
  exact Int.not_le_of_gt (late timed present)

/-- The view up to a day, as a query on the rows. -/
theorem filter_view (date : ℤ) (database : Database) :
    (dailyTransactionsView database).filter (DailyTransaction.isUntil date) =
      (database.transactions.filter fun row => row.daily.isUntil date).map Transaction.daily := by
  rw [dailyTransactionsView, List.filter_map]
  rfl

/-- What a day is worth once it is over.  The rows of a run are in the order of
their ids and of their times.  The view up to the day shows the same at the end
of the run as at the end of the day, and it tells the balances that the accounts
had then. -/
structure ClosesDay (journal : Journal) (calls : List TimedCall) (date : ℤ) : Prop where
  view : (dailyTransactionsView (run step journal calls).database).filter
      (DailyTransaction.isUntil date) =
    (dailyTransactionsView (run step journal (untilDay date calls)).database).filter
      (DailyTransaction.isUntil date)
  balances : Exists fun added =>
    (run step journal calls).database.transactions = journal.database.transactions ++ added ∧
    added.Pairwise Precedes ∧
    forall id, ((run step journal (untilDay date calls)).database.balance? id).map Money.measure =
      (journal.database.balance? id).map fun balance => balance.measure +
        incoming id (added.filter fun row => row.daily.isUntil date) +
        outgoing id (added.filter fun row => row.daily.isUntil date)

/-- No call of the run rounds apart. -/
def RoundsTogether (journal : Journal) (calls : List TimedCall) : Prop :=
  Along step (fun journal timed => ¬ RoundsApart journal.database (journal.attempted timed)) journal
    calls

/-- The ledger agrees between two states. -/
def Agree (first second : Journal) : Prop :=
  LedgerAgrees first.database second.database

theorem agree_of_run {journal : Journal} {calls : List TimedCall}
    (together : RoundsTogether journal calls) : Agree journal (run step journal calls) := by
  have refl : forall journal, Agree journal journal := fun journal => LedgerAgrees.refl _
  have trans : forall first second third, Agree first second -> Agree second third ->
      Agree first third := fun _ _ _ => LedgerAgrees.trans
  have kept : forall (journal : Journal) (timed : TimedCall),
      ¬ RoundsApart journal.database (journal.attempted timed) -> Agree journal (journal.step timed) :=
    fun journal timed => ledgerAgrees_attempt journal.database (journal.attempted timed)
  exact run_related refl trans kept together

/-- Every day of every run in the order of the clock is closed like this. -/
theorem closesDay (journal : Journal) (calls : List TimedCall) (ordered : Ordered calls)
    (together : RoundsTogether journal calls) (date : ℤ) : ClosesDay journal calls date := by
  have cut := untilDay_append_afterDay date calls
  rcases exists_adds journal (untilDay date calls) with ⟨early, earlyAdds⟩
  rcases exists_adds (run step journal (untilDay date calls)) (afterDay date calls) with
    ⟨late, lateAdds⟩
  rcases exists_adds journal calls with ⟨added, adds⟩
  have whole : run step (run step journal (untilDay date calls)) (afterDay date calls) =
      run step journal calls := by
    rw [← run_append, cut]
  have rows : (run step journal calls).database.transactions =
      journal.database.transactions ++ early ++ late := by
    rw [← whole, lateAdds.rows, earlyAdds.rows]
  have split : added = early ++ late := by
    have both := adds.rows.symm.trans rows
    rw [List.append_assoc] at both
    exact List.append_cancel_left both
  have earlyOnly := earlyAdds.isUntil fun timed member => until_of_mem member
  have noneLate := lateAdds.isAfter fun timed member => after_of_mem ordered member
  refine ⟨?_, added, adds.rows, adds.precedes ordered, ?_⟩
  · rw [filter_view, filter_view, rows, earlyAdds.rows, List.filter_append, noneLate, List.append_nil]
  · rw [split, List.filter_append, earlyOnly, noneLate, List.append_nil]
    have before : RoundsTogether journal (untilDay date calls) := by
      rw [RoundsTogether, ← cut] at together
      exact ((along_append _ _ _).mp together).1
    rcases (agree_of_run before).rows with ⟨same, appended, balances⟩
    have identical : same = early := List.append_cancel_left (appended.symm.trans earlyAdds.rows)
    rw [identical] at balances
    exact balances

end Journal

/-- Two accounts before the first row of the ledger. -/
def newJournal : Journal where
  database := twoAccounts .oneDollar .zero
  nextValue := 1

/-- Thirty cents on each of two days. -/
def onTwoDays : List TimedCall :=
  [⟨thirtyCents.call, 5⟩, ⟨thirtyCents.call, microsecondsOfDay⟩]

/-- A call that fails at its row, whose amount would be rounded to zero, and then
one that is accepted. -/
def withGap : List TimedCall :=
  [⟨{ thirtyCents.call with amount := some (.finite ⟨4, 3⟩) }, 3⟩, ⟨thirtyCents.call, 4⟩]

theorem accepted_of_any_id_withGap :
    (run Journal.step newJournal withGap).nextValue = 3 ∧
    (run Journal.step newJournal withGap).database.transactions.map Transaction.transactionId = [2] ∧
    Exists fun result =>
      callTransferMoney thirtyCents.call ((run Journal.step newJournal withGap).generated 5)
        (run Journal.step newJournal withGap).database = .ok result := by
  have next : (run Journal.step newJournal withGap).nextValue = 3 := by
    decide +kernel
  refine ⟨next, by decide +kernel, ?_⟩
  have accepted : (callTransferMoney thirtyCents.call ⟨some 7, none⟩
      (run Journal.step newJournal withGap).database).toBool = true := by
    decide +kernel
  cases success : callTransferMoney thirtyCents.call ⟨some 7, none⟩
      (run Journal.step newJournal withGap).database with
  | error problem =>
      rw [success] at accepted
      cases accepted
  | ok result =>
      exact Journal.accepted_of_any_id newJournal (fun row member => absurd member List.not_mem_nil)
        withGap ⟨thirtyCents.call, 5⟩ (by rw [next]; decide) ⟨⟨some 7, none⟩, result, success⟩

theorem closesDay_onTwoDays : Journal.ClosesDay newJournal onTwoDays 0 := by
  have exact : forall decimal, thirtyCents.call.amount = some (.finite decimal) ->
      ¬ decimal.IsHalfCent := by
    intro decimal given
    cases given
    decide +kernel
  have ordered : Journal.Ordered onTwoDays := by
    unfold Journal.Ordered onTwoDays
    decide
  exact Journal.closesDay newJournal onTwoDays ordered
    ⟨not_roundsApart exact, not_roundsApart exact, trivial⟩ 0

end CoreBank
