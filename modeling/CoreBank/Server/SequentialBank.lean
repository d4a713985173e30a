import CoreBank.Foundation.Histories
import CoreBank.Server.TruthfulReplies
import Mathlib.Data.List.Forall2
import Mathlib.Logic.Function.Basic

namespace CoreBank

open Foundation

/-!
# One bank behind many handlers

Every connection has a handler thread of its own, and the threads meet at
`dbMutex`.  A step moves one thread from one statement to the next; a schedule
is any list of such steps.  A statement fails only when the procedure refuses
it, and `COMMIT` only when it refuses the tables it would make durable.

Each step turns out to be invisible, or to answer one command as the bank would
on its own: commands without a database call at once, the others where their
transaction ends.
-/

/-- The commands for which a handler goes to the database. -/
inductive DatabaseCall (Double : Type) where
  | balance (accId : ℤ)
  | transfer (fromId toId : ℤ) (amount : Double)

def DatabaseCall.command {Double : Type} : DatabaseCall Double -> Command Double
  | .balance accId => .balance accId
  | .transfer fromId toId amount => .transfer fromId toId amount

/-- Where a handler thread stands.  From `holding` to `ended` it has the mutex;
`failed` is an exception on its way out of an open transaction. -/
inductive Stage (Double : Type) where
  | receiving
  | waiting (call : DatabaseCall Double)
  | holding (call : DatabaseCall Double)
  | begun (call : DatabaseCall Double)
  | selected (accId : ℤ) (rows : List (Account × Customer))
  | transferred (fromId toId : ℤ) (amount : Double) (uncommitted : Database)
  | failed (call : DatabaseCall Double) (reply : String)
  | ended (reply : String)
  | replying (reply : String)

/-- A handler: the pieces that `recv` will still deliver, and the replies sent. -/
structure Handler (Double : Type) where
  pieces : List (List Byte)
  stage : Stage Double
  sent : List String

structure Threads (Client Double : Type) where
  database : Database
  dbMutex : Option Client
  handlers : Client -> Handler Double

namespace Stage

variable {Double : Type}

/-- The stages inside the scope of the lock. -/
def guarded : Stage Double -> Bool
  | .receiving | .waiting _ | .replying _ => false
  | _ => true

/-- The command that has been received and not answered. -/
def inHand : Stage Double -> List (Command Double)
  | .waiting call | .holding call | .begun call | .failed call _ => [call.command]
  | .selected accId _ => [.balance accId]
  | .transferred fromId toId amount _ => [.transfer fromId toId amount]
  | _ => []

/-- The reply that has been produced and not sent. -/
def answered : Stage Double -> List String
  | .ended reply | .replying reply => [reply]
  | _ => []

/-- What `handleClient` does with a command before it sends the reply. -/
def dispatch : Command Double -> Stage Double
  | .ping => .replying "PONG\n"
  | .balance accId => .waiting (.balance accId)
  | .invalidBalance => .replying "ERROR Invalid BALANCE arguments\n"
  | .transfer fromId toId amount => .waiting (.transfer fromId toId amount)
  | .invalidTransfer => .replying "ERROR Invalid TRANSFER arguments\n"
  | .unknown => .replying "ERROR Unknown command\n"

end Stage

/-! ## The bank on its own -/

section Bank

variable {Client Double : Type} (driver : Driver Double) (showDouble : Double -> String)
  (refusal : Database -> Option String)

/-- The answer of the bank to one command, for some column defaults. -/
def Answers (command : Command Double) (before : Database) (reply : String) (after : Database) :
    Prop :=
  Exists fun generated =>
    respond (bankServices driver showDouble (dependable refusal) generated) command before =
      (reply, after)

variable {driver refusal}

theorem answers_of_refusal {fromId toId : ℤ} {amount : Double} {generated : Generated}
    {database : Database} {what : String}
    (refused : TransactionService.exec driver (dependable refusal) generated
      (TransactionService.transferCall driver fromId toId amount "Server transfer") database =
        .error what) :
    Answers driver showDouble refusal (.transfer fromId toId amount) database
      (errorReply (TransactionService.transferFailed what)) database := by
  refine ⟨generated, ?_⟩
  simp only [respond, bankServices, TransactionService.transfer]
  rw [refused]
  rfl

/-- The answer to a transfer that the procedure accepts is up to `COMMIT`. -/
theorem answers_of_exec {fromId toId : ℤ} {amount : Double} {generated : Generated}
    {database uncommitted : Database}
    (executes : TransactionService.exec driver (dependable refusal) generated
      (TransactionService.transferCall driver fromId toId amount "Server transfer") database =
        .ok uncommitted) :
    match refusal uncommitted with
    | some what => Answers driver showDouble refusal (.transfer fromId toId amount) database
        (errorReply (TransactionService.transferFailed what)) database
    | none => Answers driver showDouble refusal (.transfer fromId toId amount) database "OK\n"
        uncommitted := by
  have answer : respond (bankServices driver showDouble (dependable refusal) generated)
      (.transfer fromId toId amount) database =
        let outcome := (dependable refusal).commit uncommitted
        (transferReply (outcome.reported.mapError TransactionService.transferFailed),
          outcome.durable uncommitted database) := by
    simp only [respond, bankServices, TransactionService.transfer]
    rw [executes]
    rfl
  cases refuses : refusal uncommitted with
  | some what =>
      refine ⟨generated, answer.trans ?_⟩
      simp only [dependable, refuses]
      rfl
  | none =>
      refine ⟨generated, answer.trans ?_⟩
      simp only [dependable, refuses]
      rfl

variable (driver) (refusal)

theorem answers_of_select (accId : ℤ) (database : Database) :
    match refusal database with
    | some what => Answers driver showDouble refusal (.balance accId) database (errorReply what)
        database
    | none => Answers driver showDouble refusal (.balance accId) database
        (balanceReply showDouble accId
          (AccountService.build driver (database.joinAccount accId) >>=
            AccountService.balanceOf accId)) database := by
  have answer : forall generated, respond (bankServices driver showDouble (dependable refusal) generated)
      (.balance accId) database =
        (balanceReply showDouble accId (((dependable refusal).commit database).reported >>= fun _ =>
          AccountService.build driver (database.joinAccount accId) >>=
            AccountService.balanceOf accId), database) := by
    intro generated
    simp only [respond, bankServices, AccountService.getBalance, AccountService.getAccount, bind_assoc]
    rfl
  cases refuses : refusal database with
  | some what =>
      refine ⟨⟨none, none⟩, (answer _).trans ?_⟩
      simp only [dependable, refuses]
      rfl
  | none =>
      refine ⟨⟨none, none⟩, (answer _).trans ?_⟩
      simp only [dependable, refuses]
      rfl

variable {driver showDouble refusal}

/-- A command without a database call is answered where it is read. -/
theorem dispatch_spec (command : Command Double) (database : Database) :
    (Stage.dispatch command).inHand = [command] ∧ (Stage.dispatch command).answered = [] ∨
      (Stage.dispatch command).inHand = [] ∧
        Exists fun reply => (Stage.dispatch command).answered = [reply] ∧
          Answers driver showDouble refusal command database reply database := by
  cases command with
  | balance accId => exact Or.inl ⟨rfl, rfl⟩
  | transfer fromId toId amount => exact Or.inl ⟨rfl, rfl⟩
  | _ => exact Or.inr ⟨rfl, _, rfl, ⟨none, none⟩, rfl⟩

theorem dispatch_guarded (command : Command Double) : (Stage.dispatch command).guarded = false := by
  cases command <;> rfl

/-! ## The ledger of the bank -/

variable (driver)

/-- The part of a history that was answered with `OK`. -/
def answeredOk (history : List (Served Client (Command Double) String)) :
    List (Served Client (Command Double) String) :=
  history.filter fun served => decide (served.reply = "OK\n")

/-- A ledger row with the ids and the amount of a transfer that was served. -/
def Records (matching : Numeric -> LedgerAmount -> Prop)
    (served : Served Client (Command Double) String) (row : Transaction) : Prop :=
  Exists fun fromId => Exists fun toId => Exists fun amount =>
    served.request = .transfer fromId toId amount ∧ row.fromAccount = some fromId ∧
      row.toAccount = some toId ∧ matching (driver.parameter amount) row.amount

/-- The value in whole cents, half a cent rounded away from zero. -/
def InCents (amount : Numeric) (stored : LedgerAmount) : Prop :=
  Money.store amount = some stored.money

/-- The very value. -/
def Exactly (amount : Numeric) (stored : LedgerAmount) : Prop :=
  amount.less stored.money.toNumeric = false ∧ stored.money.toNumeric.less amount = false

variable {driver}

theorem answeredOk_of_ok (served : Served Client (Command Double) String)
    (ok : served.reply = "OK\n") : answeredOk [served] = [served] := by
  simp only [answeredOk, List.filter_cons, ok, decide_true, if_true, List.filter_nil]

theorem answeredOk_of_ne (served : Served Client (Command Double) String)
    (other : served.reply ≠ "OK\n") : answeredOk [served] = [] := by
  simp only [answeredOk, List.filter_cons, other, decide_false, Bool.false_eq_true, if_false,
    List.filter_nil]

theorem not_commitsInDoubt_dependable (generated : Generated) (call : TransferCall)
    (database : Database) : ¬ CommitsInDoubt (dependable refusal) generated call database := by
  rintro ⟨_, _, accepted, what, lost⟩
  simp only [dependable] at lost
  cases refuses : refusal accepted.result with
  | none =>
      rw [refuses] at lost
      cases lost
  | some refused =>
      rw [refuses] at lost
      cases lost

/-- An answer adds the row of its transfer when it is `OK`, and nothing
otherwise. -/
theorem Answers.rows {served : Served Client (Command Double) String} {before after : Database}
    (answers : Answers driver showDouble refusal served.request before served.reply after) :
    Exists fun rows => after.transactions = before.transactions ++ rows ∧
      List.Forall₂ (Records driver InCents) (answeredOk [served]) rows := by
  rcases served with ⟨client, command, reply⟩
  rcases answers with ⟨generated, answer⟩
  dsimp only at answer
  cases called : command.call driver with
  | none =>
      have same := respond_of_call_eq_none driver showDouble (dependable refusal) generated called before
      have notOk : reply ≠ "OK\n" := by
        intro ok
        have replied := congrArg Prod.fst answer
        rcases (respond_eq_ok_iff _ _ _).mp (replied.trans ok) with ⟨fromId, toId, amount, rfl, _⟩
        cases called
      rw [answer] at same
      refine ⟨[], ?_, ?_⟩
      · rw [List.append_nil]
        exact congrArg (fun database => database.transactions) same
      · rw [answeredOk_of_ne _ notOk]
        exact List.Forall₂.nil
  | some call =>
      rcases command.call_eq_some called with ⟨fromId, toId, amount, rfl, rfl⟩
      have ends := transferEnds driver (dependable refusal) generated fromId toId amount
        "Server transfer" before
      simp only [respond, bankServices] at answer
      generalize TransactionService.transfer driver (dependable refusal) generated fromId toId amount
        "Server transfer" before = outcome at ends answer
      cases ends with
      | returned accepted _ =>
          cases answer
          refine ⟨[accepted.row], rfl, ?_⟩
          rw [answeredOk_of_ok ⟨client, .transfer fromId toId amount, transferReply (.ok ())⟩ rfl]
          refine List.Forall₂.cons ⟨fromId, toId, amount, rfl, rfl, rfl, ?_⟩ List.Forall₂.nil
          rw [InCents, Option.some.inj accepted.amountGiven]
          exact accepted.records
      | undone what _ =>
          cases answer
          refine ⟨[], (List.append_nil _).symm, ?_⟩
          rw [answeredOk_of_ne ⟨client, .transfer fromId toId amount, transferReply (.error what)⟩
            (errorReply_ne_ok what)]
          exact List.Forall₂.nil
      | inDoubt what accepted doubtful =>
          exact False.elim (not_commitsInDoubt_dependable generated _ before doubtful)

/-- The ledger after a history of the bank on its own. -/
theorem rows_of_history {history : List (Served Client (Command Double) String)}
    {before after : Database}
    (sequential : History (Answers driver showDouble refusal) before history after) :
    Exists fun rows => after.transactions = before.transactions ++ rows ∧
      List.Forall₂ (Records driver InCents) (answeredOk history) rows := by
  induction sequential with
  | done database => exact ⟨[], (List.append_nil _).symm, List.Forall₂.nil⟩
  | next first _ inductionHypothesis =>
      rcases Answers.rows first with ⟨earlier, added, recorded⟩
      rcases inductionHypothesis with ⟨later, appended, rest⟩
      refine ⟨earlier ++ later, ?_, ?_⟩
      · rw [appended, added, List.append_assoc]
      · rw [answeredOk, ← List.singleton_append, List.filter_append]
        exact List.rel_append recorded rest

end Bank

/-! ## The threads -/

section Threads

variable {Client Double : Type} (driver : Driver Double) (showDouble : Double -> String)
  (refusal : Database -> Option String) (strtod : List Byte -> Option Double)

/-- The commands of a client that wait, and its replies. -/
def commandView : View (Threads Client Double) Client (Command Double) String Database where
  state := Threads.database
  pending threads client :=
    (threads.handlers client).stage.inHand ++ executed strtod (threads.handlers client).pieces
  produced threads client :=
    (threads.handlers client).sent ++ (threads.handlers client).stage.answered

/-- What a handler has found out inside its transaction is still true of the
committed tables. -/
def Stage.Sound (database : Database) : Stage Double -> Prop
  | .selected accId rows => rows = database.joinAccount accId
  | .transferred fromId toId amount uncommitted => Exists fun generated =>
      TransactionService.exec driver (dependable refusal) generated
        (TransactionService.transferCall driver fromId toId amount "Server transfer") database =
          .ok uncommitted
  | .failed call reply => Answers driver showDouble refusal call.command database reply database
  | _ => True

/-- A thread inside the scope of the lock has the mutex, and it is right about
the tables. -/
structure Threads.Invariant (threads : Threads Client Double) : Prop where
  mutex : forall client, (threads.handlers client).stage.guarded = true ->
    threads.dbMutex = some client
  sound : forall client, (threads.handlers client).stage.Sound driver showDouble refusal
    threads.database

/-- A step keeps the invariant, and is invisible or answers one command. -/
structure Threads.Simulated (threads moved : Threads Client Double) : Prop where
  invariant : moved.Invariant driver showDouble refusal
  view : (commandView strtod).Stutters threads moved ∨ Exists fun served =>
    (commandView strtod).Serves (Answers driver showDouble refusal) served threads moved

namespace Threads

/-- Every client has connected and nothing has been received. -/
def start (database : Database) (pieces : Client -> List (List Byte)) : Threads Client Double where
  database := database
  dbMutex := none
  handlers client := { pieces := pieces client, stage := .receiving, sent := [] }

variable [DecidableEq Client]

def setHandler (threads : Threads Client Double) (client : Client) (handler : Handler Double) :
    Threads Client Double :=
  { threads with handlers := Function.update threads.handlers client handler }

def setStage (threads : Threads Client Double) (client : Client) (stage : Stage Double) :
    Threads Client Double :=
  threads.setHandler client { threads.handlers client with stage }

/-- The next statement of one handler; a thread that is blocked in `recv` or at
the mutex stays where it is.  The column defaults are those that a call of the
procedure in this step is given. -/
def step (threads : Threads Client Double) (scheduled : Client × Generated) : Threads Client Double :=
  let client := scheduled.1
  let handler := threads.handlers client
  match handler.stage with
  | .receiving =>
      match handler.pieces with
      | [] => threads
      | piece :: pieces =>
          let stage := ((receive strtod piece).map Stage.dispatch).getD .receiving
          threads.setHandler client { handler with pieces, stage }
  | .waiting call =>
      match threads.dbMutex with
      | some _ => threads
      | none => { threads.setStage client (.holding call) with dbMutex := some client }
  | .holding call => threads.setStage client (.begun call)
  | .begun (.balance accId) =>
      threads.setStage client (.selected accId (threads.database.joinAccount accId))
  | .begun (.transfer fromId toId amount) =>
      let call := TransactionService.transferCall driver fromId toId amount "Server transfer"
      match TransactionService.exec driver (dependable refusal) scheduled.2 call threads.database with
      | .error what =>
          threads.setStage client (.failed (.transfer fromId toId amount)
            (errorReply (TransactionService.transferFailed what)))
      | .ok uncommitted => threads.setStage client (.transferred fromId toId amount uncommitted)
  | .selected accId rows =>
      match refusal threads.database with
      | some what => threads.setStage client (.failed (.balance accId) (errorReply what))
      | none =>
          let bal := AccountService.build driver rows >>= AccountService.balanceOf accId
          threads.setStage client (.ended (balanceReply showDouble accId bal))
  | .transferred fromId toId amount uncommitted =>
      match refusal uncommitted with
      | some what =>
          threads.setStage client (.failed (.transfer fromId toId amount)
            (errorReply (TransactionService.transferFailed what)))
      | none => { threads.setStage client (.ended "OK\n") with database := uncommitted }
  | .failed _ reply => threads.setStage client (.ended reply)
  | .ended reply => { threads.setStage client (.replying reply) with dbMutex := none }
  | .replying reply =>
      threads.setHandler client { handler with stage := .receiving, sent := handler.sent ++ [reply] }

end Threads

/-! ## Steps of the threads -/

variable {driver showDouble refusal strtod}

theorem Stage.Sound.of_not_guarded {stage : Stage Double} (free : stage.guarded = false)
    (database : Database) : stage.Sound driver showDouble refusal database := by
  cases stage with
  | receiving => exact trivial
  | waiting call => exact trivial
  | replying reply => exact trivial
  | _ => cases free

namespace Threads

variable {threads : Threads Client Double}

theorem invariant_start (database : Database) (pieces : Client -> List (List Byte)) :
    (start database pieces : Threads Client Double).Invariant driver showDouble refusal where
  mutex _ impossible := by cases impossible
  sound _ := trivial

/-- Two threads are never inside the scope of the lock. -/
theorem Invariant.alone (invariant : threads.Invariant driver showDouble refusal) {client : Client}
    (inside : (threads.handlers client).stage.guarded = true) (other : Client)
    (different : other ≠ client) : (threads.handlers other).stage.guarded = false := by
  rw [Bool.eq_false_iff]
  intro alsoInside
  have same := (invariant.mutex other alsoInside).symm.trans (invariant.mutex client inside)
  exact different (Option.some.inj same)

theorem Invariant.idle (invariant : threads.Invariant driver showDouble refusal) :
    threads.Simulated driver showDouble refusal strtod threads :=
  ⟨invariant, Or.inl ⟨rfl, fun _ => rfl, fun _ => rfl⟩⟩

variable [DecidableEq Client]

/-- The invariant after a step of one client. -/
theorem Invariant.moved (invariant : threads.Invariant driver showDouble refusal) {client : Client}
    {handler : Handler Double} {database : Database} {dbMutex : Option Client}
    (holds : handler.stage.guarded = true -> dbMutex = some client)
    (sound : handler.stage.Sound driver showDouble refusal database)
    (others : forall other, other ≠ client -> (threads.handlers other).stage.guarded = true ->
      dbMutex = threads.dbMutex ∧ database = threads.database) :
    Invariant driver showDouble refusal
      ⟨database, dbMutex, Function.update threads.handlers client handler⟩ := by
  constructor
  · intro other inside
    by_cases same : other = client
    · subst same
      simp only [Function.update_self] at inside
      exact holds inside
    · simp only [Function.update_of_ne same] at inside
      exact (others other same inside).1.trans (invariant.mutex other inside)
  · intro other
    by_cases same : other = client
    · subst same
      simp only [Function.update_self]
      exact sound
    · simp only [Function.update_of_ne same]
      cases inside : (threads.handlers other).stage.guarded with
      | false => exact Stage.Sound.of_not_guarded inside database
      | true =>
          rw [(others other same inside).2]
          exact invariant.sound other

/-- A step of one client that leaves its commands and replies as they are. -/
theorem Invariant.stutters (invariant : threads.Invariant driver showDouble refusal) {client : Client}
    {handler : Handler Double} {dbMutex : Option Client}
    (pending : handler.stage.inHand ++ executed strtod handler.pieces =
      (commandView strtod).pending threads client)
    (produced : handler.sent ++ handler.stage.answered = (commandView strtod).produced threads client)
    (holds : handler.stage.guarded = true -> dbMutex = some client)
    (sound : handler.stage.Sound driver showDouble refusal threads.database)
    (others : forall other, other ≠ client -> (threads.handlers other).stage.guarded = true ->
      dbMutex = threads.dbMutex) :
    threads.Simulated driver showDouble refusal strtod
      ⟨threads.database, dbMutex, Function.update threads.handlers client handler⟩ := by
  constructor
  · exact invariant.moved holds sound fun other different inside => ⟨others other different inside, rfl⟩
  · refine Or.inl ⟨rfl, fun other => ?_, fun other => ?_⟩
    · by_cases same : other = client
      · subst same
        simp only [commandView, Function.update_self]
        exact pending
      · simp only [commandView, Function.update_of_ne same]
    · by_cases same : other = client
      · subst same
        simp only [commandView, Function.update_self]
        exact produced
      · simp only [commandView, Function.update_of_ne same]

/-- A step that answers the oldest command of its client. -/
theorem Invariant.serves (invariant : threads.Invariant driver showDouble refusal) {client : Client}
    {handler : Handler Double} {database : Database} {command : Command Double} {reply : String}
    (answers : Answers driver showDouble refusal command threads.database reply database)
    (pending : (commandView strtod).pending threads client =
      command :: (handler.stage.inHand ++ executed strtod handler.pieces))
    (produced : handler.sent ++ handler.stage.answered =
      (commandView strtod).produced threads client ++ [reply])
    (holds : handler.stage.guarded = true -> threads.dbMutex = some client)
    (sound : handler.stage.Sound driver showDouble refusal database)
    (others : forall other, other ≠ client -> (threads.handlers other).stage.guarded = true ->
      database = threads.database) :
    threads.Simulated driver showDouble refusal strtod
      ⟨database, threads.dbMutex, Function.update threads.handlers client handler⟩ := by
  constructor
  · exact invariant.moved holds sound fun other different inside => ⟨rfl, others other different inside⟩
  · refine Or.inr ⟨⟨client, command, reply⟩, answers, ?_, ?_, ?_, ?_⟩
    · rw [pending]
      simp only [commandView, Function.update_self]
    · rw [← produced]
      simp only [commandView, Function.update_self]
    · intro other different
      simp only [commandView, Function.update_of_ne different]
    · intro other different
      simp only [commandView, Function.update_of_ne different]

/-- A thread that reads the next piece: an empty line is forgotten, and a
command is answered at once or kept in hand. -/
theorem Invariant.receives (invariant : threads.Invariant driver showDouble refusal) {client : Client}
    (stage : (threads.handlers client).stage = .receiving) {piece : List Byte}
    {pieces : List (List Byte)} (arrives : (threads.handlers client).pieces = piece :: pieces) :
    threads.Simulated driver showDouble refusal strtod
      (threads.setHandler client { threads.handlers client with
        pieces, stage := ((receive strtod piece).map Stage.dispatch).getD .receiving }) := by
  have free : (threads.handlers client).stage.guarded = false := by rw [stage]; rfl
  cases received : receive strtod piece with
  | none =>
      apply invariant.stutters
      · simp only [commandView, executed, stage, arrives, List.filterMap_cons_none received,
          Option.map_none, Option.getD_none]
      · simp only [commandView, stage, Option.map_none, Option.getD_none]
      · intro impossible
        cases impossible
      · exact trivial
      · exact fun _ _ _ => rfl
  | some command =>
      have quiet := dispatch_guarded command
      have sound : (Stage.dispatch command).Sound driver showDouble refusal threads.database :=
        Stage.Sound.of_not_guarded quiet threads.database
      have outside : (Stage.dispatch command).guarded = true -> threads.dbMutex = some client := by
        intro impossible
        cases quiet.symm.trans impossible
      have pending : (commandView strtod).pending threads client =
          command :: executed strtod pieces := by
        simp only [commandView, executed, stage, arrives, List.filterMap_cons_some received]
        rfl
      rcases dispatch_spec command threads.database with
        ⟨inHand, answered⟩ | ⟨inHand, reply, answered, answers⟩
      · apply invariant.stutters
        · rw [pending]
          exact congrArg (fun commands => commands ++ executed strtod pieces) inHand
        · simp only [commandView, stage]
          exact congrArg (fun replies => (threads.handlers client).sent ++ replies) answered
        · exact outside
        · exact sound
        · exact fun _ _ _ => rfl
      · apply invariant.serves answers
        · rw [pending]
          exact (congrArg (fun commands => command :: (commands ++ executed strtod pieces)) inHand).symm
        · simp only [commandView, stage, Stage.answered, List.append_nil]
          exact congrArg (fun replies => (threads.handlers client).sent ++ replies) answered
        · exact outside
        · exact sound
        · exact fun _ _ _ => rfl

/-- A step inside the scope of the lock that does not end the transaction. -/
theorem Invariant.advances (invariant : threads.Invariant driver showDouble refusal) {client : Client}
    {old stage : Stage Double} (stands : (threads.handlers client).stage = old)
    (inside : old.guarded = true) (inHand : stage.inHand = old.inHand)
    (answered : stage.answered = old.answered)
    (sound : stage.Sound driver showDouble refusal threads.database) :
    threads.Simulated driver showDouble refusal strtod (threads.setStage client stage) := by
  subst stands
  apply invariant.stutters
  · exact congrArg (fun commands => commands ++ executed strtod (threads.handlers client).pieces) inHand
  · exact congrArg (fun replies => (threads.handlers client).sent ++ replies) answered
  · exact fun _ => invariant.mutex client inside
  · exact sound
  · exact fun _ _ _ => rfl

/-- The end of a transaction answers the command in hand. -/
theorem Invariant.ends (invariant : threads.Invariant driver showDouble refusal) {client : Client}
    {old : Stage Double} (stands : (threads.handlers client).stage = old)
    (inside : old.guarded = true) {command : Command Double} (inHand : old.inHand = [command])
    (answered : old.answered = []) {reply : String} {database : Database}
    (answers : Answers driver showDouble refusal command threads.database reply database) :
    threads.Simulated driver showDouble refusal strtod
      { threads.setStage client (.ended reply) with database } := by
  subst stands
  apply invariant.serves answers
  · exact congrArg (fun commands => commands ++ executed strtod (threads.handlers client).pieces) inHand
  · simp only [commandView, answered, List.append_nil]
    rfl
  · exact fun _ => invariant.mutex client inside
  · exact trivial
  · intro other different alsoInside
    cases (invariant.alone inside other different).symm.trans alsoInside

/-- Taking the mutex, which then nobody has. -/
theorem Invariant.acquires (invariant : threads.Invariant driver showDouble refusal) {client : Client}
    {call : DatabaseCall Double} (stands : (threads.handlers client).stage = .waiting call)
    (free : threads.dbMutex = none) :
    threads.Simulated driver showDouble refusal strtod
      { threads.setStage client (.holding call) with dbMutex := some client } := by
  apply invariant.stutters
  · simp only [commandView, stands, Stage.inHand]
  · simp only [commandView, stands, Stage.answered]
  · exact fun _ => rfl
  · exact trivial
  · intro other _ alsoInside
    cases free.symm.trans (invariant.mutex other alsoInside)

theorem Invariant.releases (invariant : threads.Invariant driver showDouble refusal) {client : Client}
    {reply : String} (stands : (threads.handlers client).stage = .ended reply) :
    threads.Simulated driver showDouble refusal strtod
      { threads.setStage client (.replying reply) with dbMutex := none } := by
  apply invariant.stutters
  · simp only [commandView, stands, Stage.inHand]
  · simp only [commandView, stands, Stage.answered]
  · intro impossible
    cases impossible
  · exact trivial
  · intro other different alsoInside
    have inside : (threads.handlers client).stage.guarded = true := congrArg Stage.guarded stands
    cases (invariant.alone inside other different).symm.trans alsoInside

theorem Invariant.sends (invariant : threads.Invariant driver showDouble refusal) {client : Client}
    {reply : String} (stands : (threads.handlers client).stage = .replying reply) :
    threads.Simulated driver showDouble refusal strtod
      (threads.setHandler client { threads.handlers client with
        stage := .receiving, sent := (threads.handlers client).sent ++ [reply] }) := by
  apply invariant.stutters
  · simp only [commandView, stands, Stage.inHand]
  · simp only [commandView, stands, Stage.answered, List.append_nil]
  · intro impossible
    cases impossible
  · exact trivial
  · exact fun _ _ _ => rfl

/-- Every statement of a thread is invisible or answers its oldest command. -/
theorem Invariant.step (invariant : threads.Invariant driver showDouble refusal)
    (scheduled : Client × Generated) :
    threads.Simulated driver showDouble refusal strtod
      (threads.step driver showDouble refusal strtod scheduled) := by
  rcases scheduled with ⟨client, generated⟩
  have sound := invariant.sound client
  dsimp only [Threads.step]
  cases stands : (threads.handlers client).stage with
  | receiving =>
      cases arrives : (threads.handlers client).pieces with
      | nil => exact invariant.idle
      | cons piece pieces => exact invariant.receives stands arrives
  | waiting call =>
      cases mutex : threads.dbMutex with
      | some other => exact invariant.idle
      | none => exact invariant.acquires stands mutex
  | holding call => exact invariant.advances stands rfl rfl rfl trivial
  | begun call =>
      cases call with
      | balance accId => exact invariant.advances stands rfl rfl rfl rfl
      | transfer fromId toId amount =>
          dsimp only
          cases executes : TransactionService.exec driver (dependable refusal) generated
            (TransactionService.transferCall driver fromId toId amount "Server transfer")
            threads.database with
          | error what =>
              exact invariant.advances stands rfl rfl rfl (answers_of_refusal showDouble executes)
          | ok uncommitted => exact invariant.advances stands rfl rfl rfl ⟨generated, executes⟩
  | selected accId rows =>
      rw [stands] at sound
      cases sound
      have answers := answers_of_select driver showDouble refusal accId threads.database
      cases refuses : refusal threads.database with
      | some what =>
          rw [refuses] at answers
          exact invariant.advances stands rfl rfl rfl answers
      | none =>
          rw [refuses] at answers
          exact invariant.ends stands rfl rfl rfl answers
  | transferred fromId toId amount uncommitted =>
      rw [stands] at sound
      rcases sound with ⟨given, executes⟩
      dsimp only
      have answers := answers_of_exec showDouble executes
      cases refuses : refusal uncommitted with
      | some what =>
          rw [refuses] at answers
          exact invariant.advances stands rfl rfl rfl answers
      | none =>
          rw [refuses] at answers
          exact invariant.ends stands rfl rfl rfl answers
  | failed call reply =>
      rw [stands] at sound
      exact invariant.ends stands rfl rfl rfl sound
  | ended reply => exact invariant.releases stands
  | replying reply => exact invariant.sends stands

end Threads

variable [DecidableEq Client] (driver showDouble refusal strtod)

/-- The handlers together behave as the bank does on its own: some order of all
commands answered so far explains the replies and the tables, and the rows
added to the ledger are those of the commands answered with `OK`, one for each. -/
def BehaveAsOneBank (matching : Numeric -> LedgerAmount -> Prop)
    (before after : Threads Client Double) : Prop :=
  Exists fun history =>
    (commandView strtod).Explains (Answers driver showDouble refusal) history before after ∧
      Exists fun rows => after.database.transactions = before.database.transactions ++ rows ∧
        List.Forall₂ (Records driver matching) (answeredOk history) rows

/-- Whatever the number of clients, their commands and the schedule, the
handlers behave as one bank that carries out one command after another, and
records every amount in whole cents. -/
theorem behaveAsOneBank (database : Database) (pieces : Client -> List (List Byte))
    (schedule : List (Client × Generated)) :
    BehaveAsOneBank driver showDouble refusal strtod InCents (Threads.start database pieces)
      (run (Threads.step driver showDouble refusal strtod) (Threads.start database pieces) schedule) := by
  rcases View.explains_run (Threads.Invariant driver showDouble refusal)
    (fun _ scheduled invariant => (invariant.step scheduled).invariant)
    (fun _ scheduled invariant => (invariant.step scheduled).view)
    (Threads.invariant_start database pieces) schedule with ⟨history, explains⟩
  exact ⟨history, explains, rows_of_history explains.sequential⟩

end Threads

/-- One client sends `TRANSFER 1 2 0.125`, and its thread runs up to `COMMIT`:
the ledger row holds 0.13. -/
theorem not_behaveAsOneBank_exactly :
    ¬ forall (database : Database) (pieces : Unit -> List (List Byte))
      (schedule : List (Unit × Generated)),
      BehaveAsOneBank numericDriver Numeric.text (fun _ => none) readDecimal Exactly
        (Threads.start database pieces)
        (run (Threads.step numericDriver Numeric.text (fun _ => none) readDecimal)
          (Threads.start database pieces) schedule) := by
  intro always
  rcases always (twoAccounts (.cents ⟨100, by decide⟩) .zero)
    (fun _ => [ascii "TRANSFER 1 2 0.125\n"]) (List.replicate 5 ((), thirtyCents.generated)) with
    ⟨history, explains, rows, added, recorded⟩
  have stored : rows.map (fun row => row.amount.money.toNumeric) = [.finite ⟨13, 2⟩] := by
    rw [show rows = _ from added.symm]
    decide +kernel
  have sent : executed readDecimal [ascii "TRANSFER 1 2 0.125\n"] =
      [.transfer 1 2 (.finite ⟨125, 3⟩)] := by
    decide +kernel
  cases rows with
  | nil => cases stored
  | cons row rows =>
      rcases List.forall₂_cons_right_iff.mp recorded with
        ⟨served, others, ⟨fromId, toId, amount, requested, _, _, exact⟩, _, answered⟩
      have member : served ∈ history := by
        apply List.mem_of_mem_filter
        rw [answeredOk] at answered
        rw [answered]
        exact List.mem_cons_self
      have pending : served.request ∈ executed readDecimal [ascii "TRANSFER 1 2 0.125\n"] := by
        have waiting : executed readDecimal [ascii "TRANSFER 1 2 0.125\n"] =
            requestsOf () history ++ _ := explains.ownOrder ()
        rw [waiting]
        apply List.mem_append_left
        exact List.mem_map_of_mem (List.mem_filter.mpr ⟨member, decide_eq_true rfl⟩)
      rw [sent, List.mem_singleton, requested] at pending
      cases pending
      rw [List.map_cons] at stored
      rw [Exactly, (List.cons.inj stored).1] at exact
      exact absurd exact.1 (by decide +kernel)

end CoreBank
