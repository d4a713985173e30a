import CoreBank.Server.DataAccess

namespace CoreBank

/-!
# What a reply says about the money

`transfer` throws the same exception for every failure, also when `commit()`
has thrown because the connection was lost while the commit was on its way.
In all other cases an exception means that the transaction object has been
destroyed before its commit, and the tables are as before.
-/

/-- The one outcome that the exception hides: the procedure has accepted the
call, and its commit is durable although `commit()` has thrown. -/
def CommitsInDoubt (work : DatabaseWork) (generated : Generated) (call : TransferCall)
    (database : Database) : Prop :=
  work.beginFails = none ∧ work.execFails = none ∧
    Exists fun accepted : Acceptance database call generated => Exists fun what =>
      work.commit accepted.result = .inDoubt what true

theorem CommitsInDoubt.lost {work : DatabaseWork} {generated : Generated} {call : TransferCall}
    {database : Database} (doubtful : CommitsInDoubt work generated call database)
    (accepted : Acceptance database call generated) :
    Exists fun what => work.commit accepted.result = .inDoubt what true := by
  rcases doubtful.2.2 with ⟨other, what, lost⟩
  have first := callTransferMoney_eq_ok_iff.mpr ⟨accepted, rfl⟩
  have second := callTransferMoney_eq_ok_iff.mpr ⟨other, rfl⟩
  rw [Except.ok.inj (first.symm.trans second)]
  exact ⟨what, lost⟩

/-- The ways in which `transfer` ends. -/
inductive TransferEnds (work : DatabaseWork) (generated : Generated) (call : TransferCall)
    (database : Database) : Except String Unit × Database -> Prop where
  | returned (accepted : Acceptance database call generated)
      (certain : ¬ CommitsInDoubt work generated call database) :
      TransferEnds work generated call database (.ok (), accepted.result)
  | undone (what : String) (certain : ¬ CommitsInDoubt work generated call database) :
      TransferEnds work generated call database (.error what, database)
  | inDoubt (what : String) (accepted : Acceptance database call generated)
      (doubtful : CommitsInDoubt work generated call database) :
      TransferEnds work generated call database (.error what, accepted.result)

section Transfers

variable {Double : Type} (driver : Driver Double) (work : DatabaseWork) (generated : Generated)

theorem transferEnds (fromAccountID toAccountID : ℤ) (amount : Double) (description : String)
    (database : Database) :
    TransferEnds work generated
      (TransactionService.transferCall driver fromAccountID toAccountID amount description) database
      (TransactionService.transfer driver work generated fromAccountID toAccountID amount description
        database) := by
  unfold TransactionService.transfer TransactionService.exec
  generalize TransactionService.transferCall driver fromAccountID toAccountID amount description = call
  dsimp only
  cases begins : work.beginFails with
  | some what =>
      exact .undone what fun doubtful => by cases begins.symm.trans doubtful.1
  | none =>
      cases executes : work.execFails with
      | some what =>
          exact .undone _ fun doubtful => by cases executes.symm.trans doubtful.2.1
      | none =>
          cases called : callTransferMoney call generated database with
          | error problem =>
              refine .undone _ fun doubtful => ?_
              rcases doubtful.2.2 with ⟨accepted, _⟩
              have success := callTransferMoney_eq_ok_iff.mpr ⟨accepted, rfl⟩
              cases called.symm.trans success
          | ok uncommitted =>
              rcases callTransferMoney_eq_ok_iff.mp called with ⟨accepted, rfl⟩
              simp only [Except.mapError]
              cases commits : work.commit accepted.result with
              | committed =>
                  refine .returned accepted fun doubtful => ?_
                  rcases doubtful.lost accepted with ⟨other, lost⟩
                  cases commits.symm.trans lost
              | refused what =>
                  refine .undone _ fun doubtful => ?_
                  rcases doubtful.lost accepted with ⟨other, lost⟩
                  cases commits.symm.trans lost
              | inDoubt what durable =>
                  cases durable with
                  | true => exact .inDoubt _ accepted ⟨begins, executes, accepted, what, commits⟩
                  | false =>
                      refine .undone _ fun doubtful => ?_
                      rcases doubtful.lost accepted with ⟨other, lost⟩
                      cases commits.symm.trans lost

end Transfers

/-- An accepted transfer leaves a ledger row behind. -/
theorem Acceptance.result_ne {database : Database} {call : TransferCall} {generated : Generated}
    (accepted : Acceptance database call generated) : accepted.result ≠ database := by
  intro same
  have rows := congrArg (fun tables => tables.transactions.length) same
  simp at rows

section Replies

variable {Double : Type} (driver : Driver Double) (showDouble : Double -> String)

/-- The call of the procedure that a command asks for. -/
def Command.call (command : Command Double) : Option TransferCall :=
  match command with
  | .transfer fromId toId amount =>
      some (TransactionService.transferCall driver fromId toId amount "Server transfer")
  | _ => none

theorem Command.call_eq_some {driver : Driver Double} {command : Command Double} {call : TransferCall}
    (called : command.call driver = some call) :
    Exists fun fromId => Exists fun toId => Exists fun amount =>
      command = .transfer fromId toId amount ∧
        call = TransactionService.transferCall driver fromId toId amount "Server transfer" := by
  cases command with
  | transfer fromId toId amount => exact ⟨fromId, toId, amount, rfl, (Option.some.inj called).symm⟩
  | _ => cases called

/-- What a client may conclude from the answer to a command: `OK` means that
the transfer was committed once, `ERROR` that it was not and that the tables
are as before. -/
structure Truthful (generated : Generated) (command : Command Double) (before : Database)
    (answer : String × Database) : Prop where
  committedOnce : answer.1 = "OK\n" -> Exists fun call => command.call driver = some call ∧
    callTransferMoney call generated before = .ok answer.2
  notCommitted : IsError answer.1 -> answer.2 = before

/-- The commands that ask for no transfer change nothing. -/
theorem respond_of_call_eq_none (work : DatabaseWork) (generated : Generated)
    {command : Command Double} (other : command.call driver = none) (before : Database) :
    (respond (bankServices driver showDouble work generated) command before).2 = before := by
  cases command with
  | transfer fromId toId amount => cases other
  | _ => rfl

theorem truthful_of_call_eq_none (work : DatabaseWork) (generated : Generated)
    {command : Command Double} (other : command.call driver = none) (before : Database) :
    Truthful driver generated command before
      (respond (bankServices driver showDouble work generated) command before) := by
  constructor
  · intro same
    rcases (respond_eq_ok_iff _ _ _).mp same with ⟨fromId, toId, amount, rfl, _⟩
    cases other
  · intro _
    exact respond_of_call_eq_none driver showDouble work generated other before

theorem truthful_of_certain (work : DatabaseWork) (generated : Generated) (command : Command Double)
    (before : Database)
    (certain : forall call, command.call driver = some call ->
      ¬ CommitsInDoubt work generated call before) :
    Truthful driver generated command before
      (respond (bankServices driver showDouble work generated) command before) := by
  cases called : command.call driver with
  | none => exact truthful_of_call_eq_none driver showDouble work generated called before
  | some call =>
      rcases command.call_eq_some called with ⟨fromId, toId, amount, rfl, rfl⟩
      have ends := transferEnds driver work generated fromId toId amount "Server transfer" before
      simp only [respond, bankServices]
      generalize TransactionService.transfer driver work generated fromId toId amount
        "Server transfer" before = answer at ends
      cases ends with
      | returned accepted _ =>
          refine ⟨fun _ => ⟨_, rfl, ?_⟩, fun starts => False.elim (not_isError_ok starts)⟩
          exact callTransferMoney_eq_ok_iff.mpr ⟨accepted, rfl⟩
      | undone what _ =>
          exact ⟨fun same => False.elim (errorReply_ne_ok what same), fun _ => rfl⟩
      | inDoubt what accepted doubtful => exact False.elim (certain _ rfl doubtful)

/-- An `ERROR` that follows a commit in doubt is not true. -/
theorem not_truthful_of_commitsInDoubt {work : DatabaseWork} {generated : Generated}
    {command : Command Double} {before : Database} {call : TransferCall}
    (called : command.call driver = some call)
    (doubtful : CommitsInDoubt work generated call before) :
    ¬ Truthful driver generated command before
      (respond (bankServices driver showDouble work generated) command before) := by
  rcases command.call_eq_some called with ⟨fromId, toId, amount, rfl, rfl⟩
  have ends := transferEnds driver work generated fromId toId amount "Server transfer" before
  simp only [respond, bankServices]
  generalize TransactionService.transfer driver work generated fromId toId amount
    "Server transfer" before = answer at ends
  intro truthful
  cases ends with
  | returned _ certain => exact certain doubtful
  | undone _ certain => exact certain doubtful
  | inDoubt what accepted _ =>
      exact accepted.result_ne (truthful.notCommitted (isError_errorReply what))

/-- The answers are truthful except in the one case that the exception hides. -/
theorem truthful_iff (work : DatabaseWork) (generated : Generated) (command : Command Double)
    (before : Database) :
    Truthful driver generated command before
        (respond (bankServices driver showDouble work generated) command before) ↔
      forall call, command.call driver = some call -> ¬ CommitsInDoubt work generated call before := by
  constructor
  · intro truthful call called doubtful
    exact not_truthful_of_commitsInDoubt driver showDouble called doubtful truthful
  · exact truthful_of_certain driver showDouble work generated command before

/-- Send a transfer again until the reply is `OK`: whether it came to that, and
the tables.  Every attempt meets outcomes of its own. -/
def retry (fromId toId : ℤ) (amount : Double) :
    List (DatabaseWork × Generated) -> Database -> Bool × Database
  | [], database => (false, database)
  | (work, generated) :: attempts, database =>
      let (reply, after) := respond (bankServices driver showDouble work generated)
        (.transfer fromId toId amount) database
      if reply = "OK\n" then (true, after) else retry fromId toId amount attempts after

/-- A client that tries again after `ERROR` moves the money once, and not before
it has seen `OK`, as long as no attempt commits in doubt. -/
theorem retry_moves_once (fromId toId : ℤ) (amount : Double) (database : Database)
    {attempts : List (DatabaseWork × Generated)}
    (certain : forall attempt, attempt ∈ attempts -> ¬ CommitsInDoubt attempt.1 attempt.2
      (TransactionService.transferCall driver fromId toId amount "Server transfer") database)
    {replied : Bool} {after : Database}
    (sent : retry driver showDouble fromId toId amount attempts database = (replied, after)) :
    if replied then Exists fun attempt => attempt ∈ attempts ∧
      callTransferMoney (TransactionService.transferCall driver fromId toId amount "Server transfer")
        attempt.2 database = .ok after
    else after = database := by
  induction attempts with
  | nil =>
      cases sent
      rfl
  | cons attempt attempts inductionHypothesis =>
      have truthful := truthful_of_certain driver showDouble attempt.1 attempt.2
        (.transfer fromId toId amount) database (by
          rintro call ⟨rfl⟩
          exact certain attempt List.mem_cons_self)
      have rest := inductionHypothesis fun later member =>
        certain later (List.mem_cons_of_mem attempt member)
      rw [retry] at sent
      dsimp only at sent
      split_ifs at sent with ok
      · cases sent
        rcases truthful.committedOnce ok with ⟨call, called, committed⟩
        cases called
        exact ⟨attempt, List.mem_cons_self, committed⟩
      · have failed : IsError (respond (bankServices driver showDouble attempt.1 attempt.2)
            (.transfer fromId toId amount) database).1 :=
          (isError_transferReply_iff _).mpr (mt (transferReply_eq_ok_iff _).mpr ok)
        rw [truthful.notCommitted failed] at sent
        cases replied with
        | false => exact rest sent
        | true =>
            rcases rest sent with ⟨later, member, committed⟩
            exact ⟨later, List.mem_cons_of_mem attempt member, committed⟩

end Replies

/-- The connection is lost during a commit that nevertheless takes effect. -/
def lostDuringCommit : DatabaseWork where
  beginFails := none
  execFails := none
  commit _ := .inDoubt "Connection lost while committing." true

theorem not_truthful_of_every_outcome :
    ¬ forall (work : DatabaseWork) (generated : Generated) (command : Command Numeric)
      (before : Database), Truthful numericDriver generated command before
        (respond (bankServices numericDriver Numeric.text work generated) command before) := by
  intro always
  have same := (always lostDuringCommit thirtyCents.generated (.transfer 1 2 (.finite ⟨30, 2⟩))
    (twoAccounts (.cents ⟨100, by decide⟩) .zero)).notCommitted (by decide +kernel)
  exact absurd same (by decide +kernel)

end CoreBank
