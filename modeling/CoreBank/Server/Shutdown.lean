import CoreBank.Server.Lifecycle
import CoreBank.Server.SequentialBank

namespace CoreBank

open Foundation

/-!
# Stopping under clients

`stop` clears the flag, shuts the listening socket down and waits for the
thread in `acceptLoop`.  The threads in `handleClient` are detached: nothing
tells them to end, and nobody waits for them.  Every statement of `stop`, of the
accept loop and of the handlers is a step of its own here, in any order that the
threads allow.

What `stop` achieves is that no connection is accepted any more.  The handlers
that are there when it returns go on with the commands of their clients until
the connection or the process ends.
-/

/-! ## The statements of stop -/

namespace Server

/-- `running = false`. -/
def clearRunning (server : Server) : Server :=
  { server with running := false }

/-- `::shutdown(listenSocket, SHUT_RDWR)`, if there is a socket. -/
def shutdownListenSocket (server : Server) : Server :=
  match server.listenSocket with
  | none => server
  | some descriptor => { server with calls := server.calls ++ [.shutdown descriptor] }

/-- `::close(listenSocket)` and `listenSocket = -1`, if there is a socket. -/
def releaseListenSocket (server : Server) : Server :=
  match server.listenSocket with
  | none => server
  | some descriptor =>
      { server with
        listenSocket := none
        calls := server.calls ++ [.closed descriptor] }

/-- The accept thread has been joined. -/
def joinAcceptThread (server : Server) : Server :=
  { server with acceptThread := false }

/-- One after the other, the statements are `stop`. -/
theorem stop_eq_statements {server : Server} (running : server.running = true) :
    server.stop =
      server.clearRunning.shutdownListenSocket.releaseListenSocket.joinAcceptThread := by
  rw [stop, if_neg (not_not.mpr running)]
  unfold clearRunning shutdownListenSocket releaseListenSocket joinAcceptThread
  cases server.listenSocket with
  | none => rfl
  | some descriptor => simp only [List.append_assoc, List.singleton_append]

/-- A connection can still be taken from the listening socket. -/
def canAccept (server : Server) : Bool :=
  match server.listenSocket with
  | none => false
  | some descriptor => decide (.shutdown descriptor ∉ server.calls)

end Server

/-! ## The threads of the process -/

/-- Where the thread stands that calls `stop`: behind which of its statements.
When it is back in `main`, the process exits. -/
inductive StopStage where
  | notCalled
  | called
  | cleared
  | shutDown
  | released
  | returned
  | exited
  deriving DecidableEq

/-- Where the thread in `acceptLoop` stands: at the test of `running`, at
`accept`, at the constructor of the thread, at `detach`, or behind the loop. -/
inductive AcceptStage (Client : Type) where
  | testing
  | accepting
  | accepted (client : Client)
  | detaching
  | ended

/-- The handler of a client that has not been accepted, one that has a thread,
or one that has returned. -/
inductive Life where
  | awaited
  | serving
  | closed
  deriving DecidableEq

/-- The fields of the server, and its threads. -/
structure ServerThreads (Client Double : Type) where
  alive : Bool
  object : Server
  stopper : StopStage
  acceptor : AcceptStage Client
  lives : Client -> Life
  threads : Threads Client Double

/-- The next statement of one thread.  `accept` returns a client or fails; a
database call of a handler fails with some text, and a `COMMIT` that fails may
be durable; `recv` ends a handler; a signal or an exception that nobody catches
kills the process. -/
inductive ThreadEvent (Client : Type) where
  | stopper
  | acceptor (clientSocket : Option Client)
  | handler (client : Client) (generated : Generated)
  | databaseFails (client : Client) (what : String) (durable : Bool)
  | recvEnds (client : Client)
  | killed

/-- What a handler does for its client: take a command, begin a transaction,
commit a transfer. -/
inductive Act where
  | executes
  | begins
  | commits
  deriving DecidableEq

section Shutdown

variable {Client Double : Type} [DecidableEq Client] (driver : Driver Double)
  (showDouble : Double -> String) (refusal : Database -> Option String)
  (strtod : List Byte -> Option Double)

namespace Threads

/-- The database call at which a handler stands throws. -/
def databaseFails (threads : Threads Client Double) (client : Client) (what : String)
    (durable : Bool) : Threads Client Double :=
  match (threads.handlers client).stage with
  | .holding call => threads.setStage client (.failed call (errorReply what))
  | .begun (.balance accId) =>
      threads.setStage client (.failed (.balance accId) (errorReply what))
  | .begun (.transfer fromId toId amount) =>
      threads.setStage client (.failed (.transfer fromId toId amount)
        (errorReply (TransactionService.transferFailed what)))
  | .selected accId _ => threads.setStage client (.failed (.balance accId) (errorReply what))
  | .transferred fromId toId amount uncommitted =>
      { threads.setStage client (.failed (.transfer fromId toId amount)
          (errorReply (TransactionService.transferFailed what))) with
        database := if durable then uncommitted else threads.database }
  | _ => threads

/-- What the next statement of a handler does, if it does not fail. -/
def act (threads : Threads Client Double) (client : Client) : Option Act :=
  match (threads.handlers client).stage with
  | .receiving =>
      ((threads.handlers client).pieces.head?.bind (receive strtod)).map fun _ => .executes
  | .holding _ => some .begins
  | .transferred _ _ _ uncommitted =>
      if (refusal uncommitted).isNone then some .commits else none
  | _ => none

/-- What a failing call does all the same. -/
def failedAct (threads : Threads Client Double) (client : Client) (durable : Bool) : Option Act :=
  match (threads.handlers client).stage with
  | .transferred _ _ _ _ => if durable then some .commits else none
  | _ => none

section Tables

variable {driver showDouble refusal strtod} {threads : Threads Client Double} {client : Client}

/-- A statement that does not commit leaves the tables. -/
theorem database_step {generated : Generated}
    (other : threads.act refusal strtod client ≠ some .commits) :
    (threads.step driver showDouble refusal strtod (client, generated)).database =
      threads.database := by
  unfold act at other
  unfold step
  dsimp only
  cases stands : (threads.handlers client).stage with
  | receiving =>
      dsimp only
      split
      · rfl
      · rfl
  | waiting call =>
      dsimp only
      split
      · rfl
      · rfl
  | begun call =>
      cases call with
      | balance accId => rfl
      | transfer fromId toId amount =>
          dsimp only
          split
          · rfl
          · rfl
  | selected accId rows =>
      dsimp only
      split
      · rfl
      · rfl
  | transferred fromId toId amount uncommitted =>
      rw [stands] at other
      cases refused : refusal uncommitted with
      | none =>
          dsimp only at other
          rw [refused] at other
          exact absurd rfl other
      | some what =>
          dsimp only
          rw [refused]
          rfl
  | _ => rfl

theorem database_databaseFails {what : String} {durable : Bool}
    (other : threads.failedAct client durable ≠ some .commits) :
    (threads.databaseFails client what durable).database = threads.database := by
  unfold failedAct at other
  unfold databaseFails
  cases stands : (threads.handlers client).stage with
  | begun call =>
      cases call with
      | balance accId => rfl
      | transfer fromId toId amount => rfl
  | transferred fromId toId amount uncommitted =>
      rw [stands] at other
      cases durable with
      | false => rfl
      | true => exact absurd rfl other
  | _ => rfl

end Tables

end Threads

namespace ServerThreads

/-- `start` has returned, and nobody has connected yet. -/
def started (database : Database) (pieces : Client -> List (List Byte)) :
    ServerThreads Client Double where
  alive := true
  object := (Server.constructed.start .listens).2
  stopper := .notCalled
  acceptor := .testing
  lives _ := .awaited
  threads := Threads.start database pieces

def isServing (server : ServerThreads Client Double) (client : Client) : Bool :=
  server.alive && server.lives client = .serving

def setLife (server : ServerThreads Client Double) (client : Client) (life : Life) :
    ServerThreads Client Double :=
  { server with lives := Function.update server.lives client life }

/-- The next statement of `stop`; `join` waits for the end of the accept loop. -/
def stopStep (server : ServerThreads Client Double) : ServerThreads Client Double :=
  match server.stopper with
  | .notCalled =>
      if server.object.running then { server with stopper := .called }
      else { server with stopper := .returned }
  | .called => { server with object := server.object.clearRunning, stopper := .cleared }
  | .cleared => { server with object := server.object.shutdownListenSocket, stopper := .shutDown }
  | .shutDown => { server with object := server.object.releaseListenSocket, stopper := .released }
  | .released =>
      match server.object.acceptThread, server.acceptor with
      | false, _ => { server with stopper := .returned }
      | true, .ended =>
          { server with object := server.object.joinAcceptThread, stopper := .returned }
      | true, _ => server
  | .returned => { server with alive := false, stopper := .exited }
  | .exited => server

/-- The next statement of `acceptLoop`.  A connection is accepted once, and only
while the socket listens. -/
def acceptStep (server : ServerThreads Client Double) (clientSocket : Option Client) :
    ServerThreads Client Double :=
  match server.acceptor with
  | .testing =>
      if server.object.running then { server with acceptor := .accepting }
      else { server with acceptor := .ended }
  | .accepting =>
      match clientSocket with
      | none => { server with acceptor := .testing }
      | some client =>
          if server.object.canAccept && server.lives client = .awaited then
            { server with acceptor := .accepted client }
          else server
  | .accepted client => { server.setLife client .serving with acceptor := .detaching }
  | .detaching => { server with acceptor := .testing }
  | .ended => server

def step (server : ServerThreads Client Double) (event : ThreadEvent Client) :
    ServerThreads Client Double :=
  if ¬ server.alive then server
  else
    match event with
    | .stopper => server.stopStep
    | .acceptor clientSocket => server.acceptStep clientSocket
    | .handler client generated =>
        if server.isServing client then
          { server with
            threads := server.threads.step driver showDouble refusal strtod (client, generated) }
        else server
    | .databaseFails client what durable =>
        if server.isServing client then
          { server with threads := server.threads.databaseFails client what durable }
        else server
    | .recvEnds client =>
        match (server.threads.handlers client).stage with
        | .receiving => if server.isServing client then server.setLife client .closed else server
        | _ => server
    | .killed => { server with alive := false }

/-- The process after some statements. -/
def after (database : Database) (pieces : Client -> List (List Byte))
    (events : List (ThreadEvent Client)) : ServerThreads Client Double :=
  run (step driver showDouble refusal strtod) (started database pieces) events

/-- `stop` has returned. -/
def HasStopped (server : ServerThreads Client Double) : Prop :=
  server.stopper = .returned ∨ server.stopper = .exited

/-- What an event does for a client. -/
def act (server : ServerThreads Client Double) : ThreadEvent Client -> Option (Client × Act)
  | .handler client _ =>
      if server.isServing client then
        (server.threads.act refusal strtod client).map fun act => (client, act)
      else none
  | .databaseFails client _ durable =>
      if server.isServing client then
        (server.threads.failedAct client durable).map fun act => (client, act)
      else none
  | _ => none

/-- Once `stop` has returned, nothing is done for any client. -/
def QuietAfterStop (database : Database) (pieces : Client -> List (List Byte)) : Prop :=
  forall executed event,
    (after driver showDouble refusal strtod database pieces executed).HasStopped ->
      (after driver showDouble refusal strtod database pieces executed).act refusal strtod event = none

/-- What holds if `stop` has returned after some statements, and others follow:
the accept loop has ended and the fields are those of a stopped server; no
handler is there that was not there before; whatever is done is done by such a
handler; and without any, the tables and the connections stay as they are. -/
structure WindsDown (database : Database) (pieces : Client -> List (List Byte))
    (executed later : List (ThreadEvent Client)) : Prop where
  closes : (after driver showDouble refusal strtod database pieces executed).HasStopped ->
    (after driver showDouble refusal strtod database pieces (executed ++ later)).acceptor = .ended ∧
      (after driver showDouble refusal strtod database pieces (executed ++ later)).object =
        (Server.constructed.start .listens).2.stop
  servedBefore : (after driver showDouble refusal strtod database pieces executed).HasStopped ->
    forall client,
      (after driver showDouble refusal strtod database pieces (executed ++ later)).lives client =
        .serving ->
      (after driver showDouble refusal strtod database pieces executed).lives client = .serving
  actsBefore : (after driver showDouble refusal strtod database pieces executed).HasStopped ->
    forall event client act,
      (after driver showDouble refusal strtod database pieces (executed ++ later)).act refusal strtod
        event = some (client, act) ->
      (after driver showDouble refusal strtod database pieces executed).lives client = .serving
  rests : (after driver showDouble refusal strtod database pieces executed).HasStopped ->
    (forall client, (after driver showDouble refusal strtod database pieces executed).lives client ≠
      .serving) ->
    (after driver showDouble refusal strtod database pieces (executed ++ later)).threads =
      (after driver showDouble refusal strtod database pieces executed).threads

variable {driver showDouble refusal strtod}

/-! ## The flow of stop -/

/-- The fields behind the statements of `stop`. -/
def fieldsAt (object : Server) : StopStage -> Server
  | .notCalled | .called => object
  | .cleared => object.clearRunning
  | .shutDown => object.clearRunning.shutdownListenSocket
  | .released => object.clearRunning.shutdownListenSocket.releaseListenSocket
  | .returned | .exited =>
      object.clearRunning.shutdownListenSocket.releaseListenSocket.joinAcceptThread

/-- The fields follow the statements, and behind the join the accept loop has
ended. -/
structure Halts (server : ServerThreads Client Double) : Prop where
  object : server.object = fieldsAt (Server.constructed.start .listens).2 server.stopper
  joined : server.HasStopped -> server.acceptor = .ended

omit [DecidableEq Client] in
theorem not_hasStopped {server : ServerThreads Client Double} (inside : server.stopper ≠ .returned)
    (stays : server.stopper ≠ .exited) : ¬ server.HasStopped :=
  fun stopped => stopped.elim inside stays

omit [DecidableEq Client] in
theorem halts_started (database : Database) (pieces : Client -> List (List Byte)) :
    (started database pieces : ServerThreads Client Double).Halts where
  object := rfl
  joined stopped := absurd stopped (not_hasStopped nofun nofun)

/-- The accept loop that has ended stays where it is. -/
theorem acceptStep_ended {server : ServerThreads Client Double} (ended : server.acceptor = .ended)
    (clientSocket : Option Client) : server.acceptStep clientSocket = server := by
  unfold acceptStep
  rw [ended]

/-- The accept loop moves itself and the lives of clients. -/
theorem acceptStep_frame (server : ServerThreads Client Double) (clientSocket : Option Client) :
    Exists fun acceptor => Exists fun lives =>
      server.acceptStep clientSocket = { server with acceptor, lives } := by
  unfold acceptStep
  split
  · split_ifs
    · exact ⟨_, _, rfl⟩
    · exact ⟨_, _, rfl⟩
  · split
    · exact ⟨_, _, rfl⟩
    · split_ifs
      · exact ⟨_, _, rfl⟩
      · exact ⟨_, _, rfl⟩
  · exact ⟨_, _, rfl⟩
  · exact ⟨_, _, rfl⟩
  · exact ⟨_, _, rfl⟩

omit [DecidableEq Client] in
/-- `stop` leaves the accept loop and the handlers alone. -/
theorem stopStep_frame (server : ServerThreads Client Double) :
    Exists fun alive => Exists fun object => Exists fun stopper =>
      server.stopStep = { server with alive, object, stopper } := by
  unfold stopStep
  split
  · split_ifs
    · exact ⟨_, _, _, rfl⟩
    · exact ⟨_, _, _, rfl⟩
  · exact ⟨_, _, _, rfl⟩
  · exact ⟨_, _, _, rfl⟩
  · exact ⟨_, _, _, rfl⟩
  · split
    · exact ⟨_, _, _, rfl⟩
    · exact ⟨_, _, _, rfl⟩
    · exact ⟨_, _, _, rfl⟩
  · exact ⟨_, _, _, rfl⟩
  · exact ⟨_, _, _, rfl⟩

omit [DecidableEq Client] in
/-- The join returns only behind the end of the accept loop. -/
theorem Halts.stopStep {server : ServerThreads Client Double} (halts : server.Halts) :
    server.stopStep.Halts := by
  rcases halts with ⟨object, joined⟩
  rcases server with ⟨alive, fields, stopper, acceptor, lives, threads⟩
  dsimp only at object
  subst object
  cases stopper with
  | notCalled => exact ⟨rfl, fun stopped => absurd stopped (not_hasStopped nofun nofun)⟩
  | called => exact ⟨rfl, fun stopped => absurd stopped (not_hasStopped nofun nofun)⟩
  | cleared => exact ⟨rfl, fun stopped => absurd stopped (not_hasStopped nofun nofun)⟩
  | shutDown => exact ⟨rfl, fun stopped => absurd stopped (not_hasStopped nofun nofun)⟩
  | released =>
      cases acceptor with
      | ended => exact ⟨rfl, fun _ => rfl⟩
      | _ => exact ⟨rfl, fun stopped => absurd stopped (not_hasStopped nofun nofun)⟩
  | returned => exact ⟨rfl, fun _ => joined (.inl rfl)⟩
  | exited => exact ⟨rfl, fun _ => joined (.inr rfl)⟩

/-! ## One step of the process -/

/-- What a step can be: nothing, a statement of `stop` or of the accept loop, a
statement of a serving handler, the end of a handler or of the process. -/
inductive Moves (server : ServerThreads Client Double) : ServerThreads Client Double -> Prop where
  | idles : Moves server server
  | stops : Moves server server.stopStep
  | accepts (clientSocket : Option Client) : Moves server (server.acceptStep clientSocket)
  | works (client : Client) (serving : server.isServing client = true)
      (threads : Threads Client Double) : Moves server { server with threads }
  | closes (client : Client) : Moves server (server.setLife client .closed)
  | dies : Moves server { server with alive := false }

theorem moves_step (server : ServerThreads Client Double) (event : ThreadEvent Client) :
    server.Moves (server.step driver showDouble refusal strtod event) := by
  unfold step
  by_cases alive : server.alive = true
  · rw [if_neg (not_not.mpr alive)]
    cases event with
    | stopper => exact .stops
    | acceptor clientSocket => exact .accepts clientSocket
    | handler client generated =>
        dsimp only
        split_ifs with serving
        · exact .works client serving _
        · exact .idles
    | databaseFails client what durable =>
        dsimp only
        split_ifs with serving
        · exact .works client serving _
        · exact .idles
    | recvEnds client =>
        dsimp only
        split
        · split_ifs
          · exact .closes client
          · exact .idles
        · exact .idles
    | killed => exact .dies
  · rw [if_pos alive]
    exact .idles

theorem Moves.halts {server moved : ServerThreads Client Double} (moves : server.Moves moved)
    (halts : server.Halts) : moved.Halts := by
  cases moves with
  | idles => exact halts
  | stops => exact halts.stopStep
  | accepts clientSocket =>
      rcases acceptStep_frame server clientSocket with ⟨acceptor, lives, same⟩
      refine ⟨?_, fun stopped => ?_⟩
      · rw [same]
        exact halts.object
      · rw [same] at stopped
        have ended := halts.joined stopped
        rw [acceptStep_ended ended]
        exact ended
  | works client serving threads => exact ⟨halts.object, halts.joined⟩
  | closes client => exact ⟨halts.object, halts.joined⟩
  | dies => exact ⟨halts.object, halts.joined⟩

/-- `stop` does not begin again. -/
theorem Moves.hasStopped {server moved : ServerThreads Client Double} (moves : server.Moves moved)
    (stopped : server.HasStopped) : moved.HasStopped := by
  cases moves with
  | stops =>
      unfold stopStep
      rcases stopped with returned | exited
      · rw [returned]
        exact .inr rfl
      · rw [exited]
        exact .inr exited
  | accepts clientSocket =>
      rcases acceptStep_frame server clientSocket with ⟨acceptor, lives, same⟩
      rw [same]
      exact stopped
  | _ => exact stopped

/-! ## The handlers that are left -/

omit [DecidableEq Client] in
theorem isServing_iff {server : ServerThreads Client Double} {client : Client} :
    server.isServing client = true ↔ server.alive = true ∧ server.lives client = .serving := by
  rw [isServing, Bool.and_eq_true, decide_eq_true_iff]

/-- Without the accept loop no handler begins to serve. -/
theorem Moves.lives {server moved : ServerThreads Client Double} (moves : server.Moves moved)
    (ended : server.acceptor = .ended) {client : Client} (serving : moved.lives client = .serving) :
    server.lives client = .serving := by
  cases moves with
  | stops =>
      rcases stopStep_frame server with ⟨alive, object, stopper, same⟩
      rw [same] at serving
      exact serving
  | accepts clientSocket =>
      rw [acceptStep_ended ended] at serving
      exact serving
  | closes other =>
      by_cases same : client = other
      · rw [setLife, same] at serving
        simp at serving
      · rw [setLife] at serving
        simp only [Function.update_of_ne same] at serving
        exact serving
  | _ => exact serving

/-- Without handlers nothing happens to the tables and the connections. -/
theorem Moves.threads {server moved : ServerThreads Client Double} (moves : server.Moves moved)
    (idle : forall client, server.lives client ≠ .serving) : moved.threads = server.threads := by
  cases moves with
  | stops =>
      rcases stopStep_frame server with ⟨alive, object, stopper, same⟩
      rw [same]
  | accepts clientSocket =>
      rcases acceptStep_frame server clientSocket with ⟨acceptor, lives, same⟩
      rw [same]
  | works client serving threads => exact absurd (isServing_iff.mp serving).2 (idle client)
  | _ => rfl

omit [DecidableEq Client] in
theorem serving_of_map {server : ServerThreads Client Double} {other client : Client}
    {found : Option Act} {act : Act}
    (acts : (if server.isServing other then found.map fun act => (other, act) else none) =
      some (client, act)) :
    server.lives client = .serving := by
  split_ifs at acts with serving
  rcases Option.map_eq_some_iff.mp acts with ⟨_, _, same⟩
  cases same
  exact (isServing_iff.mp serving).2

omit [DecidableEq Client] in
theorem serving_of_act {server : ServerThreads Client Double} {event : ThreadEvent Client}
    {client : Client} {act : Act} (acts : server.act refusal strtod event = some (client, act)) :
    server.lives client = .serving := by
  cases event with
  | handler other generated => exact serving_of_map acts
  | databaseFails other what durable => exact serving_of_map acts
  | _ => cases acts

/-- The tables change only where a transfer is committed. -/
theorem database_step {server : ServerThreads Client Double} {event : ThreadEvent Client}
    (other : forall client, server.act refusal strtod event ≠ some (client, .commits)) :
    (server.step driver showDouble refusal strtod event).threads.database =
      server.threads.database := by
  unfold step
  split_ifs
  · cases event with
    | stopper =>
        rcases stopStep_frame server with ⟨alive, object, stopper, same⟩
        exact congrArg (fun moved => moved.threads.database) same
    | acceptor clientSocket =>
        rcases acceptStep_frame server clientSocket with ⟨acceptor, lives, same⟩
        exact congrArg (fun moved => moved.threads.database) same
    | handler client generated =>
        dsimp only
        split_ifs with serving
        · refine Threads.database_step fun commits => other client ?_
          rw [act, if_pos serving, commits]
          rfl
        · rfl
    | databaseFails client what durable =>
        dsimp only
        split_ifs with serving
        · refine Threads.database_databaseFails fun commits => other client ?_
          rw [act, if_pos serving, commits]
          rfl
        · rfl
    | recvEnds client =>
        dsimp only
        split
        · split_ifs
          · rfl
          · rfl
        · rfl
    | killed => rfl
  · rfl

/-! ## Whole runs -/

variable (driver showDouble refusal strtod)

theorem halts_after (database : Database) (pieces : Client -> List (List Byte))
    (events : List (ThreadEvent Client)) :
    (after driver showDouble refusal strtod database pieces events).Halts :=
  invariant_of_step Halts (fun server event halts => (server.moves_step event).halts halts)
    (halts_started database pieces) events

/-- What a server looks like that has stopped as another one had. -/
structure Follows (stopped server : ServerThreads Client Double) : Prop where
  halts : server.Halts
  hasStopped : server.HasStopped
  lives : forall client, server.lives client = .serving -> stopped.lives client = .serving
  threads : (forall client, stopped.lives client ≠ .serving) -> server.threads = stopped.threads

theorem follows_run {stopped : ServerThreads Client Double} (halts : stopped.Halts)
    (hasStopped : stopped.HasStopped) (events : List (ThreadEvent Client)) :
    stopped.Follows (run (step driver showDouble refusal strtod) stopped events) := by
  refine invariant_of_step (Follows stopped) ?_
    ⟨halts, hasStopped, fun _ serving => serving, fun _ => rfl⟩ events
  rintro server event ⟨halts, hasStopped, lives, threads⟩
  have moves : server.Moves (step driver showDouble refusal strtod server event) :=
    moves_step server event
  have ended := halts.joined hasStopped
  refine ⟨moves.halts halts, moves.hasStopped hasStopped,
    fun client serving => lives client (moves.lives ended serving), fun idle => ?_⟩
  rw [moves.threads fun client serving => idle client (lives client serving)]
  exact threads idle

/-- Whatever the clients, the database and the order of the threads, `stop` ends
the accept loop for good and leaves only handlers that were there before. -/
theorem windsDown (database : Database) (pieces : Client -> List (List Byte))
    (executed later : List (ThreadEvent Client)) :
    WindsDown driver showDouble refusal strtod database pieces executed later := by
  have follows : (after driver showDouble refusal strtod database pieces executed).HasStopped ->
      (after driver showDouble refusal strtod database pieces executed).Follows
        (after driver showDouble refusal strtod database pieces (executed ++ later)) := by
    intro hasStopped
    rw [after, after, run_append]
    exact follows_run driver showDouble refusal strtod
      (halts_after driver showDouble refusal strtod database pieces executed) hasStopped later
  refine ⟨?_, ?_, ?_, ?_⟩
  · intro hasStopped
    rcases follows hasStopped with ⟨halts, still, _, _⟩
    refine ⟨halts.joined still, ?_⟩
    rw [halts.object, Server.stop_eq_statements rfl]
    rcases still with returned | exited
    · rw [returned]
      rfl
    · rw [exited]
      rfl
  · exact fun hasStopped client serving => (follows hasStopped).lives client serving
  · exact fun hasStopped event client act acts =>
      (follows hasStopped).lives client (serving_of_act acts)
  · exact fun hasStopped idle => (follows hasStopped).threads idle

end ServerThreads

end Shutdown

/-- A client connects, `stop` runs to its end, and then the handler works on. -/
def lateTransfer : List (ThreadEvent Unit) :=
  [.acceptor none, .acceptor (some ()), .acceptor none, .acceptor none, .acceptor none,
    .stopper, .stopper, .stopper, .stopper, .acceptor none, .acceptor none, .stopper] ++
  List.replicate 4 (.handler () thirtyCents.generated)

/-- The handler of a connected client takes a `TRANSFER` and commits it after
`stop` has returned. -/
theorem not_quietAfterStop_of_every_run :
    ¬ forall (database : Database) (pieces : Unit -> List (List Byte)),
      ServerThreads.QuietAfterStop numericDriver Numeric.text (fun _ => none) readDecimal database
        pieces := by
  intro always
  have quiet := always (twoAccounts (.cents ⟨100, by decide⟩) .zero)
    (fun _ => [ascii "TRANSFER 1 2 0.125\n"]) lateTransfer (.handler () thirtyCents.generated)
    (.inl (by decide +kernel))
  have commits : (ServerThreads.after numericDriver Numeric.text (fun _ => none) readDecimal
      (twoAccounts (.cents ⟨100, by decide⟩) .zero) (fun _ => [ascii "TRANSFER 1 2 0.125\n"])
      lateTransfer).act (fun _ => none) readDecimal (.handler () thirtyCents.generated) =
        some ((), .commits) := by
    decide +kernel
  rw [quiet] at commits
  cases commits

end CoreBank
