import CoreBank.Foundation.Runs
import CoreBank.Server.DataAccess

namespace CoreBank

open Foundation

/-!
# The server process under its clients

The process of a started server: the thread in `acceptLoop`, and one detached
thread in `handleClient` for each connection.  Every call may fail at any time,
and the clients may send anything and close or reset at any point.  The
database calls of one command are given by services of their own, so they may
end in any way.

Two things are not caught anywhere: a reply on a connection that is no longer
connected raises SIGPIPE, and the constructor of a thread that cannot be created
throws in `acceptLoop`, outside any `try`.
-/

/-- What `recv` returns. -/
inductive Received where
  | data (piece : List Byte)
  | closed
  | fails

/-- The statement at which a handler thread stands. -/
inductive HandlerTask (Double : Type) where
  | receive
  | work (command : Command Double)
  | reply (out : String)

/-- What a client does to its connection: it closes it, resets it, or does not
answer any more until the connection times out. -/
inductive Departure where
  | closes
  | resets
  | vanishes

/-- The state of the socket.  Behind a close the peer does not send any more,
but what it is sent is still accepted.  Of a connection that is lost the error is
reported once, and from then on a `send` raises SIGPIPE. -/
inductive Link where
  | established
  | closeWait
  | errorPending
  | broken
  deriving DecidableEq

namespace Link

/-- A reset behind a close is itself a broken pipe. -/
def leave : Departure -> Link -> Link
  | .closes, established => closeWait
  | .resets, established => errorPending
  | .resets, closeWait => broken
  | .vanishes, established => errorPending
  | .vanishes, closeWait => errorPending
  | _, link => link

/-- After a `send` that has raised no signal: it has reported the error. -/
def afterSend : Link -> Link
  | errorPending => broken
  | link => link

end Link

/-- A connection; the handler of a closed one has returned. -/
structure Connection (Double : Type) where
  task : Option (HandlerTask Double)
  link : Link

/-- The process of the server. -/
structure Process (Bank Double : Type) where
  alive : Bool
  running : Bool
  inAcceptLoop : Bool
  connections : List (Connection Double)
  bank : Bank

/-- What can happen next; a handler is named by the place of its connection. -/
inductive ServerEvent (Bank Double : Type) where
  | acceptFails
  | accepted (threadCreated : Bool)
  | peerLeaves (connection : ℕ) (departure : Departure)
  | received (connection : ℕ) (outcome : Received)
  | worked (connection : ℕ) (services : Services Bank Double)
  | sent (connection : ℕ) (fails : Bool)
  | stop

section Processes

variable {Bank Double : Type} (strtod : List Byte -> Option Double)

namespace Process

/-- The state after `start` has returned. -/
def started (bank : Bank) : Process Bank Double where
  alive := true
  running := true
  inAcceptLoop := true
  connections := []
  bank := bank

def ended (process : Process Bank Double) : Process Bank Double :=
  { process with alive := false }

def setTask (process : Process Bank Double) (connection : ℕ) (task : Option (HandlerTask Double)) :
    Process Bank Double :=
  { process with
    connections := process.connections.modify connection fun old => { old with task } }

/-- The task of a handler thread. -/
def taskOf (process : Process Bank Double) (connection : ℕ) : Option (HandlerTask Double) :=
  process.connections[connection]?.bind Connection.task

def linkOf (process : Process Bank Double) (connection : ℕ) : Option Link :=
  process.connections[connection]?.map Connection.link

/-- `acceptLoop`, from one `accept` to the next test of `running`. -/
def acceptOnce (process : Process Bank Double) (clientSocket : Option Bool) : Process Bank Double :=
  if process.inAcceptLoop then
    match clientSocket with
    | none => { process with inAcceptLoop := process.running }
    | some false => process.ended
    | some true =>
        { process with
          inAcceptLoop := process.running
          connections := process.connections ++ [{ task := some .receive, link := .established }] }
  else process

/-- What follows a `recv` in the loop of `handleClient`. -/
def afterReceive (outcome : Received) : Option (HandlerTask Double) :=
  match outcome with
  | .data piece => some (((receive strtod piece).map HandlerTask.work).getD .receive)
  | .closed | .fails => none

/-- The result of `send` is not looked at, but SIGPIPE ends the process. -/
def sendReply (process : Process Bank Double) (connection : ℕ) (_fails : Bool) :
    Process Bank Double :=
  if process.linkOf connection = some .broken then process.ended
  else
    { process with
      connections := process.connections.modify connection fun old =>
        { task := some .receive, link := old.link.afterSend } }

/-- One event; what is not enabled changes nothing. -/
def step (process : Process Bank Double) (event : ServerEvent Bank Double) : Process Bank Double :=
  if ¬ process.alive then process
  else
    match event with
    | .acceptFails => process.acceptOnce none
    | .accepted threadCreated => process.acceptOnce (some threadCreated)
    | .peerLeaves connection departure =>
        { process with
          connections := process.connections.modify connection fun old =>
            { old with link := old.link.leave departure } }
    | .received connection outcome =>
        match process.taskOf connection with
        | some .receive => process.setTask connection (afterReceive strtod outcome)
        | _ => process
    | .worked connection services =>
        match process.taskOf connection with
        | some (.work command) =>
            let (out, bank) := respond services command process.bank
            let task := if out = "" then .receive else .reply out
            { process.setTask connection (some task) with bank }
        | _ => process
    | .sent connection fails =>
        match process.taskOf connection with
        | some (.reply _) => process.sendReply connection fails
        | _ => process
    | .stop => { process with running := false, inAcceptLoop := false }

/-- The process after some events. -/
def after (bank : Bank) (events : List (ServerEvent Bank Double)) : Process Bank Double :=
  run (step strtod) (started bank) events

/-- The process is there, and its accept loop goes on. -/
def Up (process : Process Bank Double) : Prop :=
  process.alive = true ∧ process.inAcceptLoop = true

/-- An event that nothing in the code withstands: a connection arrives for
which no thread can be created, or a reply goes to a broken connection. -/
def Fatal (process : Process Bank Double) : ServerEvent Bank Double -> Prop
  | .accepted threadCreated => threadCreated = false
  | .sent connection _ => process.linkOf connection = some .broken ∧
      Exists fun out => process.taskOf connection = some (.reply out)
  | _ => False

end Process

/-- Until `stop` is called the process is up, whatever happens. -/
def StaysUp (bank : Bank) (events : List (ServerEvent Bank Double)) : Prop :=
  forall executed remaining, events = executed ++ remaining -> .stop ∉ executed ->
    (Process.after strtod bank executed).Up

namespace Process

variable {strtod}

theorem acceptOnce_running (process : Process Bank Double) (clientSocket : Option Bool) :
    (process.acceptOnce clientSocket).running = process.running := by
  unfold acceptOnce
  split
  · cases clientSocket with
    | none => rfl
    | some threadCreated => cases threadCreated <;> rfl
  · rfl

theorem sendReply_running (process : Process Bank Double) (connection : ℕ) (fails : Bool) :
    (process.sendReply connection fails).running = process.running := by
  unfold sendReply
  split
  · rfl
  · rfl

/-- Only `stop` takes the flag back. -/
theorem step_running {process : Process Bank Double} {event : ServerEvent Bank Double}
    (goesOn : event ≠ .stop) : (process.step strtod event).running = process.running := by
  unfold step
  split
  · rfl
  · cases event with
    | acceptFails => exact acceptOnce_running process none
    | accepted threadCreated => exact acceptOnce_running process (some threadCreated)
    | peerLeaves connection departure => rfl
    | received connection outcome => dsimp only; split <;> rfl
    | worked connection services => dsimp only; split <;> rfl
    | sent connection fails =>
        dsimp only
        split
        · exact sendReply_running process connection fails
        · rfl
    | stop => exact False.elim (goesOn rfl)

/-- The process serves: `stop` has not been called, and the process is up. -/
structure Serves (process : Process Bank Double) : Prop where
  running : process.running = true
  up : process.Up

theorem serves_started (bank : Bank) : (started bank : Process Bank Double).Serves :=
  ⟨rfl, rfl, rfl⟩

/-- An event that is neither fatal nor `stop` leaves the process up. -/
theorem Serves.up_step {process : Process Bank Double} (serves : process.Serves)
    {event : ServerEvent Bank Double} (goesOn : event ≠ .stop) (harmless : ¬ process.Fatal event) :
    (process.step strtod event).Up := by
  rcases serves with ⟨running, alive, accepting⟩
  unfold step
  rw [if_neg (not_not.mpr alive)]
  cases event with
  | acceptFails =>
      simp only [acceptOnce, accepting, if_true]
      exact ⟨alive, running⟩
  | accepted threadCreated =>
      simp only [acceptOnce, accepting, if_true]
      cases threadCreated with
      | true => exact ⟨alive, running⟩
      | false => exact False.elim (harmless rfl)
  | peerLeaves connection departure => exact ⟨alive, accepting⟩
  | received connection outcome =>
      dsimp only
      split
      · exact ⟨alive, accepting⟩
      · exact ⟨alive, accepting⟩
  | worked connection services =>
      dsimp only
      split
      · exact ⟨alive, accepting⟩
      · exact ⟨alive, accepting⟩
  | sent connection fails =>
      dsimp only
      split
      · rename_i out replies
        have there : ¬ process.linkOf connection = some .broken :=
          fun broken => harmless ⟨broken, out, replies⟩
        rw [sendReply, if_neg there]
        exact ⟨alive, accepting⟩
      · exact ⟨alive, accepting⟩
  | stop => exact False.elim (goesOn rfl)

theorem Serves.step {process : Process Bank Double} (serves : process.Serves)
    {event : ServerEvent Bank Double} (goesOn : event ≠ .stop) (harmless : ¬ process.Fatal event) :
    (process.step strtod event).Serves :=
  ⟨(step_running goesOn).trans serves.running, serves.up_step goesOn harmless⟩

/-- A fatal event ends the process. -/
theorem Up.not_up_of_fatal {process : Process Bank Double} (up : process.Up)
    {event : ServerEvent Bank Double} (fatal : process.Fatal event) :
    ¬ (process.step strtod event).Up := by
  rcases up with ⟨alive, accepting⟩
  rintro ⟨still, _⟩
  have dead : (process.step strtod event).alive = false := by
    unfold Process.step
    rw [if_neg (not_not.mpr alive)]
    cases event with
    | accepted threadCreated =>
        cases fatal
        simp only [acceptOnce, accepting, if_true]
        rfl
    | sent connection fails =>
        rcases fatal with ⟨broken, out, replies⟩
        simp only [replies, sendReply, broken, if_true]
        rfl
    | _ => exact False.elim fatal
  cases dead.symm.trans still

end Process

/-- No fatal event comes before `stop`. -/
def NeverFatal (bank : Bank) (events : List (ServerEvent Bank Double)) : Prop :=
  forall executed event later, events = executed ++ event :: later -> .stop ∉ executed ->
    ¬ (Process.after strtod bank executed).Fatal event

variable {strtod}

/-- Until `stop` or a fatal event, the process serves. -/
theorem NeverFatal.serves {bank : Bank} {executed remaining : List (ServerEvent Bank Double)}
    (harmless : NeverFatal strtod bank (executed ++ remaining)) (goesOn : .stop ∉ executed) :
    (Process.after strtod bank executed).Serves := by
  have guarded : Along (Process.step strtod) (fun process event => event ≠ .stop ∧ ¬ process.Fatal event)
      (Process.started bank) executed := by
    apply along_iff.mpr
    rintro earlier event later rfl
    rw [List.mem_append, List.mem_cons, not_or, not_or] at goesOn
    refine ⟨Ne.symm goesOn.2.1, harmless earlier event (later ++ remaining) ?_ goesOn.1⟩
    rw [List.append_assoc, List.cons_append]
  exact run_invariant Process.Serves (fun _ _ serves admitted => serves.step admitted.1 admitted.2)
    (Process.serves_started bank) guarded

/-- The process stays up exactly when no fatal event comes before `stop`. -/
theorem staysUp_iff (bank : Bank) (events : List (ServerEvent Bank Double)) :
    StaysUp strtod bank events ↔ NeverFatal strtod bank events := by
  constructor
  · rintro staysUp executed event later rfl goesOn fatal
    have continues : .stop ∉ executed ++ [event] := by
      rw [List.mem_append, List.mem_singleton, not_or]
      refine ⟨goesOn, ?_⟩
      rintro rfl
      exact fatal
    have up := staysUp executed (event :: later) rfl goesOn
    have still := staysUp (executed ++ [event]) later (by rw [List.append_assoc]; rfl) continues
    rw [Process.after, run_append] at still
    exact up.not_up_of_fatal fatal still
  · rintro harmless executed remaining rfl goesOn
    exact (harmless.serves goesOn).up

end Processes

/-- A client sends `BALANCE 1`, then `PING` as a second piece, and closes before
it is answered.  Its system takes the first reply and answers it with a reset, the
second reply raises SIGPIPE. -/
def hastyClient (services : Services Database Numeric) : List (ServerEvent Database Numeric) :=
  [.accepted true, .received 0 (.data (ascii "BALANCE 1\n")), .worked 0 services,
    .peerLeaves 0 .closes, .sent 0 false, .peerLeaves 0 .resets,
    .received 0 (.data (ascii "PING\n")), .worked 0 services, .sent 0 true]

theorem not_staysUp_of_every_event :
    ¬ forall (bank : Database) (events : List (ServerEvent Database Numeric)),
      StaysUp readDecimal bank events := by
  intro always
  let services := bankServices numericDriver Numeric.text (dependable fun _ => none) ⟨some 1, none⟩
  have up := always (twoAccounts .zero .zero) (hastyClient services) (hastyClient services) []
    (List.append_nil _).symm (by simp [hastyClient])
  exact absurd up.1 (by decide +kernel)

end CoreBank
