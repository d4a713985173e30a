import CoreBank.Database.RoundingDrift
import CoreBank.Foundation.WorkingOff
import CoreBank.Server.Shutdown

namespace CoreBank

open Foundation

/-!
# What clients do to the books

Behind the mutex a handler commits what the procedure has made of the present
tables, or nothing.  So whatever the clients send, in whatever order the threads
run and whatever fails, the tables have come to where they are by successful
calls of `transferMoney`, and each of these was asked for by a `TRANSFER` of its
own.  A commit that throws may still be durable; its command is not tried again.

Everything that runs of the procedure keep is therefore kept by the server.
-/

/-- The commands of a handler that may still move money.  A failed call is past
its commit. -/
def Stage.unresolved {Double : Type} : Stage Double -> List (Command Double)
  | .failed _ _ => []
  | .waiting call => [call.command]
  | .holding call => [call.command]
  | .begun call => [call.command]
  | .selected accId _ => [.balance accId]
  | .transferred fromId toId amount _ => [.transfer fromId toId amount]
  | .receiving | .ended _ | .replying _ => []

section Handlers

variable {Client Double : Type} (driver : Driver Double) (showDouble : Double -> String)
  (refusal : Database -> Option String) (strtod : List Byte -> Option Double)

/-- The tables, and the commands that may still move money. -/
def moneyBacklog : Backlog (Threads Client Double) Client (Command Double) Database where
  state := Threads.database
  pending threads client :=
    (threads.handlers client).stage.unresolved ++ executed strtod (threads.handlers client).pieces

/-- A call of the procedure as a statement of its own. -/
def performCall (database : Database) (request : Attempt) : Except SqlError Database :=
  callTransferMoney request.call request.generated database

/-- The tables have changed by successful calls that clients have asked for. -/
def Threads.OnRequest [DecidableEq Client] (before after : Threads Client Double) : Prop :=
  (moneyBacklog strtod).WorksOff performCall (Command.call driver) Attempt.call before after

/-- What a handler is about to commit is what the procedure makes of the tables. -/
def Stage.Proposes (database : Database) : Stage Double -> Prop
  | .transferred fromId toId amount uncommitted => Exists fun generated =>
      callTransferMoney
        (TransactionService.transferCall driver fromId toId amount "Server transfer") generated
        database = .ok uncommitted
  | _ => True

/-- A handler inside the scope of the lock has the mutex, and proposes nothing
that is out of date. -/
structure Threads.Guarded (threads : Threads Client Double) : Prop where
  mutex : forall client, (threads.handlers client).stage.guarded = true ->
    threads.dbMutex = some client
  proposes : forall client, (threads.handlers client).stage.Proposes driver threads.database

variable {driver showDouble refusal strtod}

theorem Stage.Proposes.of_not_guarded {stage : Stage Double} (free : stage.guarded = false)
    (database : Database) : stage.Proposes driver database := by
  cases stage with
  | transferred fromId toId amount uncommitted => cases free
  | _ => exact trivial

theorem dispatch_unresolved (command : Command Double) :
    (Stage.dispatch command).unresolved = [command] ∨ (Stage.dispatch command).unresolved = [] := by
  cases command with
  | balance accId => exact Or.inl rfl
  | transfer fromId toId amount => exact Or.inl rfl
  | _ => exact Or.inr rfl

namespace Threads

variable {threads : Threads Client Double}

theorem guarded_start (database : Database) (pieces : Client -> List (List Byte)) :
    (start database pieces : Threads Client Double).Guarded driver where
  mutex _ impossible := by cases impossible
  proposes _ := trivial

/-- Two handlers are never inside the scope of the lock. -/
theorem Guarded.alone (guarded : threads.Guarded driver) {client : Client}
    (inside : (threads.handlers client).stage.guarded = true) (other : Client)
    (different : other ≠ client) : (threads.handlers other).stage.guarded = false := by
  rw [Bool.eq_false_iff]
  intro alsoInside
  have same := (guarded.mutex other alsoInside).symm.trans (guarded.mutex client inside)
  exact different (Option.some.inj same)

variable [DecidableEq Client]

/-- One step of the handlers: the invariant is kept, and the tables change on
request only. -/
structure Proceeds (driver : Driver Double) (strtod : List Byte -> Option Double)
    (before after : Threads Client Double) : Prop where
  guarded : after.Guarded driver
  onRequest : before.OnRequest driver strtod after

theorem Guarded.idle (guarded : threads.Guarded driver) : Proceeds driver strtod threads threads :=
  ⟨guarded, Backlog.WorksOff.refl threads⟩

/-- The invariant after a step of one client. -/
theorem Guarded.moved (guarded : threads.Guarded driver) {client : Client} {handler : Handler Double}
    {database : Database} {dbMutex : Option Client}
    (holds : handler.stage.guarded = true -> dbMutex = some client)
    (proposes : handler.stage.Proposes driver database)
    (others : forall other, other ≠ client -> (threads.handlers other).stage.guarded = true ->
      dbMutex = threads.dbMutex ∧ database = threads.database) :
    Guarded driver ⟨database, dbMutex, Function.update threads.handlers client handler⟩ := by
  constructor
  · intro other inside
    by_cases same : other = client
    · subst same
      simp only [Function.update_self] at inside
      exact holds inside
    · simp only [Function.update_of_ne same] at inside
      exact (others other same inside).1.trans (guarded.mutex other inside)
  · intro other
    by_cases same : other = client
    · subst same
      simp only [Function.update_self]
      exact proposes
    · simp only [Function.update_of_ne same]
      cases inside : (threads.handlers other).stage.guarded with
      | false => exact Stage.Proposes.of_not_guarded inside database
      | true =>
          rw [(others other same inside).2]
          exact guarded.proposes other

/-- A step of one client that leaves the tables, and drops commands at most. -/
theorem Guarded.quiet (guarded : threads.Guarded driver) {client : Client} {handler : Handler Double}
    {dbMutex : Option Client} (worked : List (Command Double))
    (pending : (moneyBacklog strtod).pending threads client =
      worked ++ (handler.stage.unresolved ++ executed strtod handler.pieces))
    (holds : handler.stage.guarded = true -> dbMutex = some client)
    (proposes : handler.stage.Proposes driver threads.database)
    (others : forall other, other ≠ client -> (threads.handlers other).stage.guarded = true ->
      dbMutex = threads.dbMutex) :
    Proceeds driver strtod threads
      ⟨threads.database, dbMutex, Function.update threads.handlers client handler⟩ := by
  constructor
  · exact guarded.moved holds proposes fun other different inside => ⟨others other different inside, rfl⟩
  · refine Backlog.worksOff_of_quiet rfl fun other => ?_
    by_cases same : other = client
    · subst same
      refine ⟨worked, ?_⟩
      simp only [moneyBacklog, Function.update_self]
      exact pending
    · refine ⟨[], ?_⟩
      simp only [moneyBacklog, Function.update_of_ne same, List.nil_append]

/-- A step of one client that has the mutex and keeps it, and leaves the tables. -/
theorem Guarded.advances (guarded : threads.Guarded driver) {client : Client} {old stage : Stage Double}
    (stands : (threads.handlers client).stage = old) (inside : old.guarded = true)
    (worked : List (Command Double)) (unresolved : old.unresolved = worked ++ stage.unresolved)
    (proposes : stage.Proposes driver threads.database) :
    Proceeds driver strtod threads (threads.setStage client stage) := by
  subst stands
  apply guarded.quiet worked
  · simp only [moneyBacklog, unresolved, List.append_assoc]
  · exact fun _ => guarded.mutex client inside
  · exact proposes
  · exact fun _ _ _ => rfl

/-- The commit of a transfer. -/
theorem Guarded.commits (guarded : threads.Guarded driver) {client : Client} {fromId toId : ℤ}
    {amount : Double} {uncommitted : Database}
    (stands : (threads.handlers client).stage = .transferred fromId toId amount uncommitted)
    {stage : Stage Double} (resolved : stage.unresolved = [])
    (proposesNothing : forall database, stage.Proposes driver database) :
    Proceeds driver strtod threads { threads.setStage client stage with database := uncommitted } := by
  have inside : (threads.handlers client).stage.guarded = true := by rw [stands]; rfl
  have proposes := guarded.proposes client
  rw [stands] at proposes
  rcases proposes with ⟨generated, success⟩
  constructor
  · refine guarded.moved (fun _ => guarded.mutex client inside) (proposesNothing uncommitted) ?_
    intro other different alsoInside
    cases (guarded.alone inside other different).symm.trans alsoInside
  · refine Backlog.worksOff_of_act client (.transfer fromId toId amount)
      ⟨TransactionService.transferCall driver fromId toId amount "Server transfer", generated⟩
      success rfl ?_ ?_
    · simp only [moneyBacklog, setStage, setHandler, Function.update_self, stands, resolved]
      rfl
    · intro other different
      simp only [moneyBacklog, setStage, setHandler, Function.update_of_ne different]

theorem Guarded.receives (guarded : threads.Guarded driver) {client : Client}
    (stands : (threads.handlers client).stage = .receiving) {piece : List Byte}
    {pieces : List (List Byte)} (arrives : (threads.handlers client).pieces = piece :: pieces) :
    Proceeds driver strtod threads (threads.setHandler client { threads.handlers client with
      pieces, stage := ((receive strtod piece).map Stage.dispatch).getD .receiving }) := by
  cases received : receive strtod piece with
  | none =>
      refine guarded.quiet [] ?_ (fun impossible => by cases impossible) trivial fun _ _ _ => rfl
      simp only [moneyBacklog, executed, stands, arrives, List.filterMap_cons_none received]
      rfl
  | some command =>
      have free := dispatch_guarded command
      have pending : (moneyBacklog strtod).pending threads client =
          command :: executed strtod pieces := by
        simp only [moneyBacklog, executed, stands, arrives, List.filterMap_cons_some received]
        rfl
      have outside : (Stage.dispatch command).guarded = true -> threads.dbMutex = some client := by
        intro impossible
        cases free.symm.trans impossible
      have proposes : (Stage.dispatch command).Proposes driver threads.database :=
        Stage.Proposes.of_not_guarded free threads.database
      rcases dispatch_unresolved command with kept | dropped
      · refine guarded.quiet [] ?_ outside proposes fun _ _ _ => rfl
        rw [pending]
        exact congrArg (fun commands => commands ++ executed strtod pieces) kept.symm
      · refine guarded.quiet [command] ?_ outside proposes fun _ _ _ => rfl
        rw [pending]
        exact congrArg (fun commands => command :: (commands ++ executed strtod pieces)) dropped.symm

/-- What `exec` leaves in the transaction is what the procedure makes of the
tables. -/
theorem callTransferMoney_of_exec {generated : Generated} {call : TransferCall}
    {database uncommitted : Database}
    (executes : TransactionService.exec driver (dependable refusal) generated call database =
      .ok uncommitted) :
    callTransferMoney call generated database = .ok uncommitted :=
  mapError_eq_ok_iff.mp executes

/-- Every statement of a handler. -/
theorem Guarded.step (guarded : threads.Guarded driver) (scheduled : Client × Generated) :
    Proceeds driver strtod threads (threads.step driver showDouble refusal strtod scheduled) := by
  rcases scheduled with ⟨client, generated⟩
  dsimp only [Threads.step]
  cases stands : (threads.handlers client).stage with
  | receiving =>
      cases arrives : (threads.handlers client).pieces with
      | nil => exact guarded.idle
      | cons piece pieces => exact guarded.receives stands arrives
  | waiting call =>
      cases mutex : threads.dbMutex with
      | some other => exact guarded.idle
      | none =>
          refine guarded.quiet [] ?_ (fun _ => rfl) trivial fun other _ alsoInside => ?_
          · simp only [moneyBacklog, stands, Stage.unresolved, List.nil_append]
          · cases mutex.symm.trans (guarded.mutex other alsoInside)
  | holding call => exact guarded.advances stands rfl [] rfl trivial
  | begun call =>
      cases call with
      | balance accId => exact guarded.advances stands rfl [] rfl trivial
      | transfer fromId toId amount =>
          dsimp only
          cases executes : TransactionService.exec driver (dependable refusal) generated
            (TransactionService.transferCall driver fromId toId amount "Server transfer")
            threads.database with
          | error what => exact guarded.advances stands rfl [_] rfl trivial
          | ok uncommitted =>
              exact guarded.advances stands rfl [] rfl
                ⟨generated, callTransferMoney_of_exec executes⟩
  | selected accId rows =>
      dsimp only
      cases refusal threads.database with
      | some what => exact guarded.advances stands rfl [_] rfl trivial
      | none => exact guarded.advances stands rfl [_] rfl trivial
  | transferred fromId toId amount uncommitted =>
      dsimp only
      cases refusal uncommitted with
      | some what => exact guarded.advances stands rfl [_] rfl trivial
      | none => exact guarded.commits stands rfl fun _ => trivial
  | failed call reply => exact guarded.advances stands rfl [] rfl trivial
  | ended reply =>
      have inside : (threads.handlers client).stage.guarded = true := by rw [stands]; rfl
      refine guarded.quiet [] ?_ (fun impossible => by cases impossible) trivial
        fun other different alsoInside => ?_
      · simp only [moneyBacklog, stands, Stage.unresolved, List.nil_append]
      · cases (guarded.alone inside other different).symm.trans alsoInside
  | replying reply =>
      refine guarded.quiet [] ?_ (fun impossible => by cases impossible) trivial fun _ _ _ => rfl
      simp only [moneyBacklog, stands, Stage.unresolved, List.nil_append]

/-- A database call that fails where a handler stands. -/
theorem Guarded.databaseFails (guarded : threads.Guarded driver) (client : Client) (what : String)
    (durable : Bool) : Proceeds driver strtod threads (threads.databaseFails client what durable) := by
  unfold Threads.databaseFails
  cases stands : (threads.handlers client).stage with
  | holding call => exact guarded.advances stands rfl [_] rfl trivial
  | begun call =>
      cases call with
      | balance accId => exact guarded.advances stands rfl [_] rfl trivial
      | transfer fromId toId amount => exact guarded.advances stands rfl [_] rfl trivial
  | selected accId rows => exact guarded.advances stands rfl [_] rfl trivial
  | transferred fromId toId amount uncommitted =>
      cases durable with
      | true => exact guarded.commits stands rfl fun _ => trivial
      | false => exact guarded.advances stands rfl [_] rfl trivial
  | _ => exact guarded.idle

end Threads

/-! ## Runs of the server -/

namespace ServerThreads

variable [DecidableEq Client]

theorem proceeds_step {server : ServerThreads Client Double} (guarded : server.threads.Guarded driver)
    (event : ThreadEvent Client) :
    Threads.Proceeds driver strtod server.threads
      (server.step driver showDouble refusal strtod event).threads := by
  unfold step
  split_ifs
  · cases event with
    | stopper =>
        rcases stopStep_frame server with ⟨alive, object, stopper, same⟩
        dsimp only
        rw [same]
        exact guarded.idle
    | acceptor clientSocket =>
        rcases acceptStep_frame server clientSocket with ⟨acceptor, lives, same⟩
        dsimp only
        rw [same]
        exact guarded.idle
    | handler client generated =>
        dsimp only
        split_ifs
        · exact guarded.step (client, generated)
        · exact guarded.idle
    | databaseFails client what durable =>
        dsimp only
        split_ifs
        · exact guarded.databaseFails client what durable
        · exact guarded.idle
    | recvEnds client =>
        dsimp only
        split
        · split_ifs
          · exact guarded.idle
          · exact guarded.idle
        · exact guarded.idle
    | killed => exact guarded.idle
  · exact guarded.idle

variable (driver showDouble refusal strtod)

theorem guarded_after (database : Database) (pieces : Client -> List (List Byte))
    (events : List (ThreadEvent Client)) :
    (after driver showDouble refusal strtod database pieces events).threads.Guarded driver :=
  invariant_of_step (fun server : ServerThreads Client Double => server.threads.Guarded driver)
    (fun _ event guarded => (proceeds_step guarded event).guarded)
    (Threads.guarded_start database pieces) events

theorem changesOnRequest (database : Database) (pieces : Client -> List (List Byte))
    (executed later : List (ThreadEvent Client)) :
    (after driver showDouble refusal strtod database pieces executed).threads.OnRequest driver strtod
      (after driver showDouble refusal strtod database pieces (executed ++ later)).threads := by
  rw [after, after, run_append]
  have kept : forall (server : ServerThreads Client Double) event, server.threads.Guarded driver ->
      (step driver showDouble refusal strtod server event).threads.Guarded driver :=
    fun _ event guarded => (proceeds_step guarded event).guarded
  have works : forall (server : ServerThreads Client Double) event, server.threads.Guarded driver ->
      ((moneyBacklog strtod).through threads).WorksOff performCall (Command.call driver) Attempt.call
        server (step driver showDouble refusal strtod server event) :=
    fun _ event guarded => (proceeds_step guarded event).onRequest
  have guarded := guarded_after driver showDouble refusal strtod database pieces executed
  have worksOff : ((moneyBacklog strtod).through threads).WorksOff performCall (Command.call driver)
      Attempt.call _ _ := Backlog.worksOff_run kept works guarded later
  exact worksOff

/-- Whatever the clients, the threads, the database and `stop` do, between any
two points of a run the tables change by successful calls of the procedure,
each asked for by a command that its client had not been answered yet, one call
for each and in the order of the client. -/
theorem transfersOnRequest (database : Database) (pieces : Client -> List (List Byte))
    (executed later : List (ThreadEvent Client)) :
    (after driver showDouble refusal strtod database pieces executed).threads.OnRequest driver strtod
      (after driver showDouble refusal strtod database pieces (executed ++ later)).threads :=
  changesOnRequest driver showDouble refusal strtod database pieces executed later

end ServerThreads

end Handlers

/-! ## The books -/

/-- No customer or account comes or goes, the ledger grows at its end, no
account is overdrawn, and the money does not become less, nor more by more than
one cent for each row that is added to the ledger. -/
structure KeepsBooks (before after : Database) : Prop where
  customers : after.customers = before.customers
  accountIds : after.accountIds = before.accountIds
  ledger : before.transactions <+: after.transactions
  protects : Protects before after
  total : Exists fun made : ℕ =>
    before.transactions.length + made ≤ after.transactions.length ∧
      after.total = before.total + ((made : ℤ) : WithTop ℤ)

theorem KeepsBooks.refl (database : Database) : KeepsBooks database database where
  customers := rfl
  accountIds := rfl
  ledger := List.prefix_rfl
  protects := Protects.refl database
  total := ⟨0, le_refl _, (add_zero _).symm⟩

theorem KeepsBooks.trans {first second third : Database} (earlier : KeepsBooks first second)
    (later : KeepsBooks second third) : KeepsBooks first third where
  customers := later.customers.trans earlier.customers
  accountIds := later.accountIds.trans earlier.accountIds
  ledger := earlier.ledger.trans later.ledger
  protects := Protects.trans _ _ _ earlier.protects later.protects
  total := by
    rcases earlier.total with ⟨made, rows, total⟩
    rcases later.total with ⟨more, moreRows, moreTotal⟩
    refine ⟨made + more, by omega, ?_⟩
    rw [moreTotal, total, add_assoc, Nat.cast_add, WithTop.coe_add]

theorem Acceptance.keepsBooks {database : Database} {request : Attempt}
    (accepted : Acceptance database request.call request.generated) (ordinary : Ordinary database) :
    KeepsBooks database accepted.result where
  customers := accepted.result_customers
  accountIds := accepted.result_accountIds
  ledger := ⟨[accepted.row], accepted.result_transactions.symm⟩
  protects := by
    rw [← attempt_of_acceptance accepted]
    exact protects_attempt ordinary request
  total := by
    rw [accepted.total_result, accepted.result_transactions, List.length_append, List.length_singleton,
      minted]
    cases mintsCent database request with
    | true => exact ⟨1, le_refl _, rfl⟩
    | false => exact ⟨0, Nat.le_succ _, rfl⟩

/-- Successful calls one after another. -/
theorem keepsBooks_of_calls {requests : List Attempt} {before after : Database}
    (ordinary : Ordinary before) (success : requests.foldlM performCall before = .ok after) :
    KeepsBooks before after := by
  induction requests generalizing before with
  | nil =>
      cases success
      exact KeepsBooks.refl _
  | cons request requests inductionHypothesis =>
      rcases bind_eq_ok_iff.mp success with ⟨middle, called, rest⟩
      rcases callTransferMoney_eq_ok_iff.mp called with ⟨accepted, rfl⟩
      have next : Ordinary accepted.result := by
        rw [← attempt_of_acceptance accepted]
        exact ordinary_attempt ordinary request
      exact (accepted.keepsBooks ordinary).trans (inductionHypothesis next rest)

theorem ordinary_of_calls {requests : List Attempt} {before after : Database}
    (ordinary : Ordinary before) (success : requests.foldlM performCall before = .ok after) :
    Ordinary after := by
  induction requests generalizing before with
  | nil =>
      cases success
      exact ordinary
  | cons request requests inductionHypothesis =>
      rcases bind_eq_ok_iff.mp success with ⟨middle, called, rest⟩
      rcases callTransferMoney_eq_ok_iff.mp called with ⟨accepted, rfl⟩
      rw [← attempt_of_acceptance accepted] at rest
      exact inductionHypothesis (ordinary_attempt ordinary request) rest

/-- From ordinary balances the books are kept between any two points of every
run of the server. -/
theorem keepsBooks_after {Client Double : Type} [DecidableEq Client] (driver : Driver Double)
    (showDouble : Double -> String) (refusal : Database -> Option String)
    (strtod : List Byte -> Option Double) (database : Database) (ordinary : Ordinary database)
    (pieces : Client -> List (List Byte)) (executed later : List (ThreadEvent Client)) :
    KeepsBooks
      (ServerThreads.after driver showDouble refusal strtod database pieces executed).threads.database
      (ServerThreads.after driver showDouble refusal strtod database pieces
        (executed ++ later)).threads.database := by
  rcases ServerThreads.changesOnRequest driver showDouble refusal strtod database pieces [] executed with
    ⟨earlier, performed, _⟩
  rcases ServerThreads.changesOnRequest driver showDouble refusal strtod database pieces executed later
    with ⟨calls, performs, _⟩
  exact keepsBooks_of_calls (ordinary_of_calls ordinary performed) performs

/-- A client that has sent one transfer, of 0.125 from account 1 to account 2. -/
def sentTransfer (_ : Unit) : List (List Byte) :=
  [ascii "TRANSFER 1 2 0.125\n"]

theorem keepsBooks_after_lateTransfer :
    KeepsBooks
      (ServerThreads.after numericDriver Numeric.text (fun _ => none) readDecimal
        (twoAccounts (.cents ⟨100, by decide⟩) (.cents ⟨0, by decide⟩)) sentTransfer []).threads.database
      (ServerThreads.after numericDriver Numeric.text (fun _ => none) readDecimal
        (twoAccounts (.cents ⟨100, by decide⟩) (.cents ⟨0, by decide⟩)) sentTransfer
        ([] ++ lateTransfer)).threads.database :=
  keepsBooks_after numericDriver Numeric.text (fun _ => none) readDecimal
    (twoAccounts (.cents ⟨100, by decide⟩) (.cents ⟨0, by decide⟩))
    (ordinary_twoAccounts ⟨100, by decide⟩ ⟨0, by decide⟩) sentTransfer [] lateTransfer

end CoreBank
