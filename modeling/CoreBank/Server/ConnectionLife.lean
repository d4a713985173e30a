import CoreBank.Foundation.Runs
import CoreBank.Server.CommandLine
import CoreBank.Server.DataAccess
import CoreBank.Server.LoadedFields
import Mathlib.Logic.Function.Basic

namespace CoreBank

open Foundation

/-!
# The life of the connection

The process has one connection object.  `connect` makes it from the connection
string unless one is open, and nothing else makes one.  The connection can be
lost in any call to the database; the object stays, and `getConnection` refuses
it.

A load that throws leaves fields of two files behind, but not in the connection
string.  No handler calls `connect`, so a server that has lost its connection
never has one again.
-/

/-! ## The object behind getInstance -/

/-- A `pqxx::connection`: the string it was made from, and whether it is open. -/
structure PqxxConnection where
  options : List Byte
  isOpen : Bool
  deriving DecidableEq, Repr

structure DBInstance extends DBConnection where
  conn : Option PqxxConnection

namespace DBInstance

/-- The static object before its first use. -/
def initial : DBInstance where
  toDBConnection := DBConnection.initial
  conn := none

def loadConfig (path : String) (file : ConfigFile) (db : DBInstance) :
    Except LoadError Unit × DBInstance :=
  let (outcome, settings) := (CoreBank.loadConfig path file).run db.toDBConnection
  (outcome, { db with toDBConnection := settings })

def isConnected (db : DBInstance) : Bool :=
  match db.conn with
  | none => false
  | some session => session.isOpen

/-- `attempt` is the constructor of `pqxx::connection`, which throws, or makes
a connection that is open or not. -/
def connect (attempt : List Byte -> Except String Bool) (db : DBInstance) :
    Except String Unit × DBInstance :=
  if db.isConnected then (.ok (), db)
  else
    match attempt db.connectionString with
    | .error what => (.error ("Connection error: " ++ what), db)
    | .ok isOpen =>
        let connected := { db with conn := some ⟨db.connectionString, isOpen⟩ }
        if isOpen then (.ok (), connected)
        else (.error ("Connection error: " ++ "Database connection failed."), connected)

def getConnection (db : DBInstance) : Except String PqxxConnection :=
  match db.conn with
  | none => .error "Database not connected!"
  | some session => if session.isOpen then .ok session else .error "Database not connected!"

/-- A transaction object is made on the connection, and sends `BEGIN`. -/
def createTransaction (beginFails : Option String) (db : DBInstance) : Except String Unit := do
  let _ <- db.getConnection
  unlessFails beginFails

def createWriteTransaction (beginFails : Option String) (db : DBInstance) : Except String Unit :=
  db.createTransaction beginFails

def createReadTransaction (beginFails : Option String) (db : DBInstance) : Except String Unit :=
  db.createTransaction beginFails

/-- A call finds out that the other end is gone. -/
def lost (db : DBInstance) : DBInstance :=
  { db with conn := db.conn.map fun session => { session with isOpen := false } }

theorem isConnected_lost (db : DBInstance) : db.lost.isConnected = false := by
  cases held : db.conn with
  | none => simp only [isConnected, lost, held, Option.map_none]
  | some session => simp only [isConnected, lost, held, Option.map_some]

theorem getConnection_of_closed {db : DBInstance} (closed : db.isConnected = false) :
    db.getConnection = .error "Database not connected!" := by
  unfold isConnected at closed
  unfold getConnection
  cases held : db.conn with
  | none => rfl
  | some session =>
      rw [held] at closed
      dsimp only at closed ⊢
      rw [closed, if_neg Bool.false_ne_true]

theorem getConnection_of_open {db : DBInstance} (connected : db.isConnected = true) :
    Exists fun session => db.conn = some session ∧ db.getConnection = .ok session := by
  unfold isConnected at connected
  unfold getConnection
  cases held : db.conn with
  | none =>
      rw [held] at connected
      cases connected
  | some session =>
      rw [held] at connected
      exact ⟨session, rfl, if_pos connected⟩

/-! ## Any use of the object -/

end DBInstance

inductive ConnectionEvent where
  | loadConfig (path : String) (file : ConfigFile)
  | connect (attempt : List Byte -> Except String Bool)
  | lost

namespace DBInstance

def step (db : DBInstance) : ConnectionEvent -> DBInstance
  | .loadConfig path file => (db.loadConfig path file).2
  | .connect attempt => (db.connect attempt).2
  | .lost => db.lost

def after (events : List ConnectionEvent) : DBInstance :=
  run step initial events

/-- A connection string that is written from the seven members of one file. -/
def WrittenFrom (cfg : Json) (options : List Byte) : Prop :=
  Exists fun settings : DBConnection => settings.connectionString = options ∧
    forall field : ConfigField, field.FromFile cfg settings

/-- The file of some load among the events, or none at all, stands behind a
connection string. -/
def Loaded (events : List ConnectionEvent) (options : List Byte) : Prop :=
  options = [] ∨ Exists fun path => Exists fun cfg =>
    ConnectionEvent.loadConfig path (.parsed cfg) ∈ events ∧ WrittenFrom cfg options

theorem Loaded.append {events : List ConnectionEvent} {options : List Byte}
    (loaded : Loaded events options) (later : List ConnectionEvent) :
    Loaded (events ++ later) options := by
  rcases loaded with empty | ⟨path, cfg, member, written⟩
  · exact Or.inl empty
  · exact Or.inr ⟨path, cfg, List.mem_append_left _ member, written⟩

/-- Once the seven members are assigned, storing the string leaves every field
as the file has it. -/
theorem fromFile_of_assignAll {cfg : Json} {prior between : DBConnection}
    (success : (ConfigField.updates cfg).assignAll ConfigField.members prior = (.ok (), between))
    (field : ConfigField) :
    field.FromFile cfg { between with connectionString := between.text } := by
  by_cases read : field = .connectionString
  · rw [read]
    rfl
  · have filled : (ConfigField.updates cfg).Filled field between :=
      FieldUpdates.filled_assignAll success (ConfigField.mem_members read)
    have written : ConfigField.connectionString.assign cfg =
        .ok fun db => { db with connectionString := db.text } := rfl
    exact ConfigField.fromFile_of_filled read
      (filled.of_same (ConfigField.assign_frame written read between))

/-- A load writes the string from its file, or leaves it. -/
theorem connectionString_loadConfig (path : String) (file : ConfigFile) (db : DBInstance) :
    (db.loadConfig path file).2.connectionString = db.connectionString ∨
      Exists fun cfg => file = .parsed cfg ∧
        WrittenFrom cfg (db.loadConfig path file).2.connectionString := by
  change (((CoreBank.loadConfig path file).run db.toDBConnection).2).connectionString = _ ∨
    Exists fun cfg => file = .parsed cfg ∧
      WrittenFrom cfg (((CoreBank.loadConfig path file).run db.toDBConnection).2).connectionString
  cases file with
  | missing => exact Or.inl rfl
  | malformed what => exact Or.inl rfl
  | parsed cfg =>
      rw [run_loadConfig]
      -- the string is stored after the members, which leave it alone
      have kept : (ConfigField.updates cfg).Same .connectionString db.toDBConnection
          ((ConfigField.updates cfg).assignAll ConfigField.members db.toDBConnection).2 :=
        FieldUpdates.same_assignAll (by decide) db.toDBConnection
      rcases outcome : (ConfigField.updates cfg).assignAll ConfigField.members db.toDBConnection with
        ⟨result, between⟩
      rw [outcome] at kept
      cases result with
      | ok =>
          rw [FieldUpdates.assignAll_append_ok outcome]
          exact Or.inr ⟨cfg, rfl, _, rfl, fromFile_of_assignAll outcome⟩
      | error problem =>
          rw [FieldUpdates.assignAll_append_error outcome]
          exact Or.inl kept

theorem connectionString_connect (attempt : List Byte -> Except String Bool) (db : DBInstance) :
    (db.connect attempt).2.connectionString = db.connectionString := by
  unfold connect
  split_ifs with connected
  · rfl
  · cases attempt db.connectionString with
    | error what => rfl
    | ok isOpen => cases isOpen <;> rfl

/-- What `connect` leaves as the connection: the one that was there, or one from
the string of the moment, and then none was open. -/
theorem conn_connect (attempt : List Byte -> Except String Bool) (db : DBInstance) :
    (db.connect attempt).2.conn = db.conn ∨ db.isConnected = false ∧ Exists fun isOpen =>
      (db.connect attempt).2.conn = some ⟨db.connectionString, isOpen⟩ := by
  unfold connect
  split_ifs with connected
  · exact Or.inl rfl
  · rw [Bool.not_eq_true] at connected
    cases attempt db.connectionString with
    | error what => exact Or.inl rfl
    | ok isOpen => cases isOpen <;> exact Or.inr ⟨connected, _, rfl⟩

/-- `connect` returns where there is an open connection afterwards, and throws
its own kind of error otherwise. -/
theorem connect_spec (attempt : List Byte -> Except String Bool) (db : DBInstance) :
    (db.connect attempt).1 = .ok () ∧ (db.connect attempt).2.isConnected = true ∨
      (db.connect attempt).2.isConnected = false ∧
        Exists fun what => (db.connect attempt).1 = .error ("Connection error: " ++ what) := by
  unfold connect
  split_ifs with connected
  · exact Or.inl ⟨rfl, connected⟩
  · rw [Bool.not_eq_true] at connected
    cases attempt db.connectionString with
    | error what => exact Or.inr ⟨connected, what, rfl⟩
    | ok isOpen =>
        cases isOpen with
        | false => exact Or.inr ⟨rfl, _, rfl⟩
        | true => exact Or.inl ⟨rfl, rfl⟩

theorem after_concat (events : List ConnectionEvent) (event : ConnectionEvent) :
    after (events ++ [event]) = (after events).step event :=
  run_append initial events [event]

theorem loaded_after (events : List ConnectionEvent) : Loaded events (after events).connectionString := by
  induction events using List.reverseRecOn with
  | nil => exact Or.inl rfl
  | append_singleton events event inductionHypothesis =>
      rw [after_concat]
      cases event with
      | loadConfig path file =>
          rcases connectionString_loadConfig path file (after events) with same | ⟨cfg, rfl, written⟩
          · rw [step, same]
            exact inductionHypothesis.append _
          · exact Or.inr ⟨path, cfg, List.mem_append_right _ List.mem_cons_self, written⟩
      | connect attempt =>
          rw [step, connectionString_connect]
          exact inductionHypothesis.append _
      | lost => exact inductionHypothesis.append _

/-- The call of `connect` that a session comes from. -/
def MadeBy (earlier : List ConnectionEvent) (session : PqxxConnection) : Prop :=
  (after earlier).isConnected = false ∧ session.options = (after earlier).connectionString

theorem exists_madeBy {events : List ConnectionEvent} {session : PqxxConnection}
    (held : (after events).conn = some session) :
    Exists fun earlier => Exists fun attempt => Exists fun later =>
      events = earlier ++ .connect attempt :: later ∧ MadeBy earlier session := by
  induction events using List.reverseRecOn generalizing session with
  | nil => cases held
  | append_singleton events event inductionHypothesis =>
      have kept : forall made : PqxxConnection, (after events).conn = some made ->
          made.options = session.options -> Exists fun earlier => Exists fun attempt =>
            Exists fun later =>
              events ++ [event] = earlier ++ .connect attempt :: later ∧ MadeBy earlier session := by
        intro made before same
        rcases inductionHypothesis before with ⟨earlier, attempt, later, rfl, closed, options⟩
        refine ⟨earlier, attempt, later ++ [event], ?_, closed, same.symm.trans options⟩
        rw [List.append_assoc, List.cons_append]
      rw [after_concat] at held
      cases event with
      | loadConfig path file => exact kept session held rfl
      | connect attempt =>
          rcases conn_connect attempt (after events) with same | ⟨closed, isOpen, made⟩
          · exact kept session (same.symm.trans held) rfl
          · cases made.symm.trans held
            exact ⟨events, attempt, [], rfl, closed, rfl⟩
      | lost =>
          rcases Option.map_eq_some_iff.mp held with ⟨made, before, rfl⟩
          exact kept made before rfl

/-- What holds of the one connection after any loads, connects and losses: a
session was asked for while none was open, with a string that comes from one
file as a whole or from none; and `connect` returns if and only if there is an
open connection then. -/
structure ConnectsAsLoaded (events : List ConnectionEvent) : Prop where
  asks : Loaded events (after events).connectionString
  holds : forall session, (after events).conn = some session ->
    Exists fun earlier => Exists fun attempt => Exists fun later =>
      events = earlier ++ .connect attempt :: later ∧ MadeBy earlier session ∧
        Loaded earlier session.options
  connects : forall attempt,
    ((after events).connect attempt).1 = .ok () ∧ ((after events).connect attempt).2.isConnected = true ∨
      ((after events).connect attempt).2.isConnected = false ∧
        Exists fun what =>
          ((after events).connect attempt).1 = .error ("Connection error: " ++ what)

/-- Also a load that stops between two files never mixes them in a connection. -/
theorem connectsAsLoaded (events : List ConnectionEvent) : ConnectsAsLoaded events where
  asks := loaded_after events
  holds := by
    intro session held
    rcases exists_madeBy held with ⟨earlier, attempt, later, split, closed, options⟩
    exact ⟨earlier, attempt, later, split, ⟨closed, options⟩, options ▸ loaded_after earlier⟩
  connects attempt := connect_spec attempt (after events)

/-- In `main` the object is as `Surroundings.connect` has it. -/
theorem connect_of_loaded (surroundings : Surroundings) (settings : DBConnection) :
    (((⟨settings, none⟩ : DBInstance).connect surroundings.connection).1).mapError ascii =
      surroundings.connect settings := by
  have closed : (⟨settings, none⟩ : DBInstance).isConnected = false := rfl
  rw [connect, closed, if_neg Bool.false_ne_true, Surroundings.connect]
  cases surroundings.connection settings.connectionString with
  | error what => rfl
  | ok isOpen => cases isOpen <;> rfl

end DBInstance

/-! ## Handlers on the connection -/

/-- What becomes of one command: its calls to the database, the column
defaults, and whether the connection is lost in them. -/
structure Conditions where
  work : DatabaseWork
  generated : Generated
  losesConnection : Bool

/-- The exception of an expression. -/
def thrown {A : Type} : Except String A -> Option String
  | .ok _ => none
  | .error what => some what

namespace DBInstance

/-- The calls to the database in a transaction that is made on this connection. -/
def work (create : Option String -> DBInstance -> Except String Unit) (db : DBInstance)
    (calls : DatabaseWork) : DatabaseWork :=
  { calls with beginFails := thrown (create calls.beginFails db) }

/-- The connection behind a call. -/
def behind (db : DBInstance) (conditions : Conditions) : DBInstance :=
  if conditions.losesConnection then db.lost else db

theorem work_of_closed {db : DBInstance} (closed : db.isConnected = false) (calls : DatabaseWork) :
    (db.work createTransaction calls).beginFails = some "Database not connected!" := by
  rw [work, createTransaction, getConnection_of_closed closed]
  rfl

theorem work_of_open {db : DBInstance} (connected : db.isConnected = true) (calls : DatabaseWork) :
    db.work createTransaction calls = calls := by
  rcases getConnection_of_open connected with ⟨session, _, got⟩
  rw [work, createTransaction, got]
  rcases calls with ⟨_ | what, execFails, commit⟩ <;> rfl

theorem isConnected_behind {db : DBInstance} (closed : db.isConnected = false) (conditions : Conditions) :
    (db.behind conditions).isConnected = false := by
  unfold behind
  split_ifs with loses
  · exact isConnected_lost db
  · exact closed

end DBInstance

section Handlers

variable {Client Double : Type} (driver : Driver Double) (showDouble : Double -> String)
  (strtod : List Byte -> Option Double)

/-- The services as they are on the connection. -/
def connectedServices (conditions : Conditions) : Services (DBInstance × Database) Double where
  getBalance accId bank :=
    let work := bank.1.work DBInstance.createReadTransaction conditions.work
    (AccountService.getBalance driver work accId bank.2, bank.1.behind conditions, bank.2)
  transfer fromId toId amount bank :=
    let work := bank.1.work DBInstance.createWriteTransaction conditions.work
    let (outcome, after) := TransactionService.transfer driver work conditions.generated fromId toId
      amount "Server transfer" bank.2
    (outcome, bank.1.behind conditions, after)
  showDouble := showDouble

/-- A piece that some handler receives, and what becomes of its command. -/
structure ReceivedPiece (Client : Type) where
  client : Client
  piece : List Byte
  conditions : Conditions

/-- A bank, and the replies that the clients have been sent. -/
structure Serving (Bank Client : Type) where
  bank : Bank
  sent : Client -> List String

/-- The handlers take turns at `dbMutex`, one command at a time. -/
def Serving.step {Bank : Type} [DecidableEq Client] (services : Conditions -> Services Bank Double)
    (serving : Serving Bank Client) (event : ReceivedPiece Client) : Serving Bank Client :=
  match receive strtod event.piece with
  | none => serving
  | some command =>
      let (reply, after) := respond (services event.conditions) command serving.bank
      { bank := after
        sent := Function.update serving.sent event.client (serving.sent event.client ++ [reply]) }

/-- The answer without a connection. -/
def disconnectedReply : Command Double -> String
  | .ping => "PONG\n"
  | .balance _ | .transfer _ _ _ => "ERROR Database not connected!\n"
  | .invalidBalance => "ERROR Invalid BALANCE arguments\n"
  | .invalidTransfer => "ERROR Invalid TRANSFER arguments\n"
  | .unknown => "ERROR Unknown command\n"

/-- The commands of a client among the pieces. -/
def commandsOf [DecidableEq Client] (client : Client) (events : List (ReceivedPiece Client)) :
    List (Command Double) :=
  executed strtod ((events.filter fun event => decide (event.client = client)).map ReceivedPiece.piece)

/-- Without a connection a command is refused before it reaches the tables. -/
theorem respond_of_closed {db : DBInstance} (closed : db.isConnected = false) (conditions : Conditions)
    (command : Command Double) (database : Database) :
    Exists fun left : DBInstance => left.isConnected = false ∧
      respond (connectedServices driver showDouble conditions) command (db, database) =
        (disconnectedReply command, left, database) := by
  cases command with
  | balance accId =>
      have fails : (db.work DBInstance.createReadTransaction conditions.work).beginFails = _ :=
        db.work_of_closed closed conditions.work
      refine ⟨db.behind conditions, db.isConnected_behind closed conditions, ?_⟩
      simp only [respond, connectedServices, AccountService.getBalance, AccountService.getAccount, fails]
      rfl
  | transfer fromId toId amount =>
      have fails : (db.work DBInstance.createWriteTransaction conditions.work).beginFails = _ :=
        db.work_of_closed closed conditions.work
      refine ⟨db.behind conditions, db.isConnected_behind closed conditions, ?_⟩
      simp only [respond, connectedServices, TransactionService.transfer, fails]
      rfl
  | _ => exact ⟨db, closed, rfl⟩

/-- With a connection a command meets the services of the bank. -/
theorem respond_of_open {db : DBInstance} (connected : db.isConnected = true) (conditions : Conditions)
    (command : Command Double) (database : Database) :
    Exists fun left : DBInstance =>
      respond (connectedServices driver showDouble conditions) command (db, database) =
        ((respond (bankServices driver showDouble conditions.work conditions.generated) command
            database).1, left,
          (respond (bankServices driver showDouble conditions.work conditions.generated) command
            database).2) := by
  cases command with
  | balance accId =>
      have same : db.work DBInstance.createReadTransaction conditions.work = conditions.work :=
        db.work_of_open connected conditions.work
      refine ⟨db.behind conditions, ?_⟩
      simp only [respond, connectedServices, same]
      rfl
  | transfer fromId toId amount =>
      have same : db.work DBInstance.createWriteTransaction conditions.work = conditions.work :=
        db.work_of_open connected conditions.work
      refine ⟨db.behind conditions, ?_⟩
      simp only [respond, connectedServices, same]
      rfl
  | _ => exact ⟨db, rfl⟩

variable {driver showDouble} [DecidableEq Client]

theorem commandsOf_cons (client : Client) (event : ReceivedPiece Client)
    (events : List (ReceivedPiece Client)) :
    commandsOf strtod client (event :: events) =
      (if event.client = client then (receive strtod event.piece).toList else []) ++
        commandsOf strtod client events := by
  unfold commandsOf executed
  by_cases own : event.client = client
  · rw [List.filter_cons, if_pos (decide_eq_true own), List.map_cons, if_pos own]
    cases received : receive strtod event.piece with
    | none => rw [List.filterMap_cons_none received, Option.toList_none, List.nil_append]
    | some command =>
        rw [List.filterMap_cons_some received, Option.toList_some, List.singleton_append]
  · rw [List.filter_cons, if_neg (by rwa [decide_eq_true_eq]), if_neg own, List.nil_append]

namespace Serving

variable (driver) (showDouble)

/-- The handlers on the one connection. -/
def onConnection (start : Serving (DBInstance × Database) Client)
    (events : List (ReceivedPiece Client)) : Serving (DBInstance × Database) Client :=
  run (step strtod (connectedServices driver showDouble)) start events

/-- The handlers of a bank whose connection is not looked at. -/
def onTables (start : Serving Database Client) (events : List (ReceivedPiece Client)) :
    Serving Database Client :=
  run (step strtod fun conditions => bankServices driver showDouble conditions.work conditions.generated)
    start events

/-- The bank and the replies without the connection. -/
def tables (serving : Serving (DBInstance × Database) Client) : Serving Database Client where
  bank := serving.bank.2
  sent := serving.sent

/-- The tables are as they were, and each command since then has been answered
as one is without a connection. -/
structure Refused (before after : Serving (DBInstance × Database) Client)
    (refused : List (ReceivedPiece Client)) : Prop where
  closed : after.bank.1.isConnected = false
  database : after.bank.2 = before.bank.2
  replies : forall client, after.sent client =
    before.sent client ++ (commandsOf strtod client refused).map disconnectedReply

variable {driver showDouble strtod}

theorem refused_of_closed {start : Serving (DBInstance × Database) Client}
    (closed : start.bank.1.isConnected = false) (events : List (ReceivedPiece Client)) :
    Refused strtod start (onConnection driver showDouble strtod start events) events := by
  induction events generalizing start with
  | nil => exact ⟨closed, rfl, fun client => (List.append_nil _).symm⟩
  | cons event events inductionHypothesis =>
      cases received : receive strtod event.piece with
      | none =>
          have same : start.step strtod (connectedServices driver showDouble) event = start := by
            rw [step, received]
          have rest := inductionHypothesis closed
          rw [onConnection, run, List.foldl_cons, same]
          refine ⟨rest.closed, rest.database, fun client => (rest.replies client).trans ?_⟩
          rw [commandsOf_cons, received, Option.toList_none, ite_self, List.nil_append]
      | some command =>
          rcases respond_of_closed driver showDouble closed event.conditions
            command start.bank.2 with ⟨left, leftClosed, answer⟩
          have next : start.step strtod (connectedServices driver showDouble) event =
              ⟨(left, start.bank.2), Function.update start.sent event.client
                (start.sent event.client ++ [disconnectedReply command])⟩ := by
            rw [step, received]
            dsimp only
            rw [answer]
          rw [onConnection, run, List.foldl_cons, next]
          have rest := @inductionHypothesis ⟨(left, start.bank.2), Function.update start.sent event.client
            (start.sent event.client ++ [disconnectedReply command])⟩ leftClosed
          refine ⟨rest.closed, rest.database, fun client => (rest.replies client).trans ?_⟩
          rw [commandsOf_cons, received, Option.toList_some]
          dsimp only
          by_cases own : event.client = client
          · subst own
            rw [Function.update_self, if_pos rfl, List.map_append, List.append_assoc, List.map_singleton]
          · rw [Function.update_of_ne (Ne.symm own), if_neg own, List.nil_append]

theorem tables_step_of_open {serving : Serving (DBInstance × Database) Client}
    (connected : serving.bank.1.isConnected = true) (event : ReceivedPiece Client) :
    (serving.step strtod (connectedServices driver showDouble) event).tables =
      serving.tables.step strtod
        (fun conditions => bankServices driver showDouble conditions.work conditions.generated) event := by
  unfold step
  cases received : receive strtod event.piece with
  | none => rfl
  | some command =>
      rcases respond_of_open driver showDouble connected event.conditions
        command serving.bank.2 with ⟨left, answer⟩
      dsimp only
      rw [answer]
      rfl

/-- A run is cut where the connection is lost.  Before the cut the replies and
the tables are those of the services; behind it nothing reaches the tables. -/
structure CutAtLoss (driver : Driver Double) (showDouble : Double -> String)
    (strtod : List Byte -> Option Double) (start : Serving (DBInstance × Database) Client)
    (events served refused : List (ReceivedPiece Client)) : Prop where
  split : events = served ++ refused
  connected : Along (step strtod (connectedServices driver showDouble))
    (fun serving _ => serving.bank.1.isConnected = true) start served
  tables : (onConnection driver showDouble strtod start served).tables =
    onTables driver showDouble strtod start.tables served
  refused : refused = [] ∨ Refused strtod (onConnection driver showDouble strtod start served)
    (onConnection driver showDouble strtod start events) refused

/-- Whatever the clients send and the database does, every run is cut so: a
connection that is lost is never made again. -/
theorem exists_cutAtLoss (driver : Driver Double) (showDouble : Double -> String)
    (strtod : List Byte -> Option Double) (start : Serving (DBInstance × Database) Client)
    (events : List (ReceivedPiece Client)) : Exists fun served => Exists fun refused =>
      CutAtLoss driver showDouble strtod start events served refused := by
  induction events generalizing start with
  | nil => exact ⟨[], [], rfl, trivial, rfl, Or.inl rfl⟩
  | cons event events inductionHypothesis =>
      by_cases connected : start.bank.1.isConnected = true
      · rcases inductionHypothesis (start.step strtod (connectedServices driver showDouble) event) with
          ⟨served, refused, rfl, along, tables, rest⟩
        refine ⟨event :: served, refused, rfl, ⟨connected, along⟩, ?_, rest⟩
        refine tables.trans ?_
        rw [tables_step_of_open connected]
        rfl
      · rw [Bool.not_eq_true] at connected
        exact ⟨[], event :: events, rfl, trivial, rfl, Or.inr (refused_of_closed connected _)⟩

end Serving

end Handlers

end CoreBank
