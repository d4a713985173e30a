import CoreBank.Foundation.Runs
import Mathlib.Data.List.Basic
import Mathlib.Data.List.Count
import Mathlib.Data.List.Range

namespace CoreBank

open Foundation

/-!
# Starting and stopping the server

`start` sets `running` before it looks at the outcome of `socket`, and none of
its error exits takes the flag back or forgets the descriptor that `bind` or
`listen` has failed on.  As long as every attempt to listen succeeds, the calls
alternate between two kinds of states, and the descriptors are opened, shut
down and closed one after the other.
-/

/-- The system calls on descriptors.  Every successful `socket()` is given a
new number here, also where the kernel would use one again. -/
inductive SocketCall where
  | opened (descriptor : ℕ)
  | shutdown (descriptor : ℕ)
  | closed (descriptor : ℕ)
  deriving DecidableEq, Repr

/-- The outcomes of `socket`, `bind` and `listen` in one `start`. -/
inductive Listening where
  | socketFails
  | bindFails
  | listenFails
  | listens
  deriving DecidableEq, Repr

/-- The fields of the server, and the system calls it has made. -/
structure Server where
  running : Bool
  listenSocket : Option ℕ
  acceptThread : Bool
  issued : ℕ
  calls : List SocketCall
  deriving DecidableEq, Repr

namespace Server

/-- The constructor stores the configuration and opens nothing. -/
def constructed : Server where
  running := false
  listenSocket := none
  acceptThread := false
  issued := 0
  calls := []

/-- `listenSocket = ::socket(...)`. -/
def socket (server : Server) : Listening -> Server
  | .socketFails => { server with listenSocket := none }
  | _ =>
      { server with
        listenSocket := some server.issued
        issued := server.issued + 1
        calls := server.calls ++ [.opened server.issued] }

/-- `::close(listenSocket)`, which leaves the field as it is. -/
def closeListenSocket (server : Server) : Server :=
  match server.listenSocket with
  | none => server
  | some descriptor => { server with calls := server.calls ++ [.closed descriptor] }

def start (server : Server) (outcome : Listening) : Except String Unit × Server :=
  if server.running then (.ok (), server)
  else
    let attempted := { server.socket outcome with running := true }
    match outcome with
    | .socketFails => (.error "Failed to create socket!", attempted)
    | .bindFails => (.error "Failed to bind socket", attempted.closeListenSocket)
    | .listenFails => (.error "Failed to listen on socket", attempted.closeListenSocket)
    | .listens => (.ok (), { attempted with acceptThread := true })

def stop (server : Server) : Server :=
  if ¬ server.running then server
  else
    let halted := { server with running := false }
    let released : Server := match halted.listenSocket with
      | none => halted
      | some descriptor =>
          { halted with
            listenSocket := none
            calls := halted.calls ++ [.shutdown descriptor, .closed descriptor] }
    { released with acceptThread := false }

end Server

/-- The calls on one server object. -/
inductive LifecycleCall where
  | start (outcome : Listening)
  | stop
  deriving DecidableEq, Repr

namespace Server

def step (server : Server) : LifecycleCall -> Server
  | .start outcome => (server.start outcome).2
  | .stop => server.stop

/-- The object after some calls. -/
def after (calls : List LifecycleCall) : Server :=
  run step constructed calls

/-- The destructor stops the server. -/
def destroyed (server : Server) : Server :=
  server.stop

/-- The server holds a descriptor that is open. -/
def HoldsOpenSocket (server : Server) : Prop :=
  Exists fun descriptor => server.listenSocket = some descriptor ∧
    .opened descriptor ∈ server.calls ∧ .closed descriptor ∉ server.calls

/-- The flag says whether the server listens. -/
def Consistent (server : Server) : Prop :=
  server.running = true ↔ server.HoldsOpenSocket ∧ server.acceptThread = true

end Server

/-- A system call that may be made after the given ones: nothing happens to a
closed descriptor. -/
def SocketCall.MayFollow (earlier : List SocketCall) : SocketCall -> Prop
  | .opened _ => True
  | .shutdown descriptor => .closed descriptor ∉ earlier
  | .closed descriptor => .closed descriptor ∉ earlier

/-- What is promised over the lifetime of an object with these calls. -/
structure OrderlyLifetime (calls : List LifecycleCall) : Prop where
  consistent : forall executed remaining, calls = executed ++ remaining ->
    (Server.after executed).Consistent
  stoppedByError : forall executed outcome remaining problem,
    calls = executed ++ .start outcome :: remaining ->
    ((Server.after executed).start outcome).1 = .error problem ->
    ((Server.after executed).start outcome).2.running = false
  closedOnce : forall descriptor, .opened descriptor ∈ (Server.after calls).destroyed.calls ->
    (Server.after calls).destroyed.calls.count (.closed descriptor) = 1
  neverAfterClose : forall earlier call later,
    (Server.after calls).destroyed.calls = earlier ++ call :: later -> call.MayFollow earlier

/-- Every `start` that comes first, or first after a `stop`, gets to listen.
The flag says whether there was a `start` since the last `stop`. -/
def AttemptsSucceed : Bool -> List LifecycleCall -> Prop
  | _, [] => True
  | false, .start outcome :: calls => outcome = .listens ∧ AttemptsSucceed true calls
  | true, .start _ :: calls => AttemptsSucceed true calls
  | _, .stop :: calls => AttemptsSucceed false calls

/-! ## Descriptors one after the other -/

/-- The system calls of the first uses of a server that always gets to listen. -/
def uses : ℕ -> List SocketCall
  | 0 => []
  | count + 1 => uses count ++ [.opened count, .shutdown count, .closed count]

theorem closed_mem_uses {count descriptor : ℕ} :
    .closed descriptor ∈ uses count ↔ descriptor < count := by
  induction count with
  | zero => simp [uses]
  | succ count inductionHypothesis =>
      rw [uses, List.mem_append, inductionHypothesis]
      simp
      omega

theorem opened_mem_uses {count descriptor : ℕ} :
    .opened descriptor ∈ uses count ↔ descriptor < count := by
  induction count with
  | zero => simp [uses]
  | succ count inductionHypothesis =>
      rw [uses, List.mem_append, inductionHypothesis]
      simp
      omega

theorem count_closed_uses {count descriptor : ℕ} (used : descriptor < count) :
    (uses count).count (.closed descriptor) = 1 := by
  induction count with
  | zero => omega
  | succ count inductionHypothesis =>
      rw [uses, List.count_append]
      by_cases last : descriptor = count
      · subst last
        have unused : SocketCall.closed descriptor ∉ uses descriptor := by
          rw [closed_mem_uses]
          omega
        rw [List.count_eq_zero_of_not_mem unused]
        simp
      · rw [inductionHypothesis (by omega)]
        simp [Ne.symm last]

/-- A list of system calls none of which comes after a close of its own
descriptor. -/
def NeverAfterClose (calls : List SocketCall) : Prop :=
  forall earlier call later, calls = earlier ++ call :: later -> call.MayFollow earlier

theorem NeverAfterClose.concat {calls : List SocketCall} (orderly : NeverAfterClose calls)
    {call : SocketCall} (follows : call.MayFollow calls) : NeverAfterClose (calls ++ [call]) := by
  intro earlier last later split
  rcases List.eq_nil_or_concat later with rfl | ⟨middle, final, rfl⟩
  · rcases List.append_inj' split rfl with ⟨rfl, same⟩
    cases same
    exact follows
  · rw [List.concat_eq_append, ← List.cons_append, ← List.append_assoc] at split
    rcases List.append_inj' split rfl with ⟨rest, _⟩
    exact orderly earlier last middle rest

theorem neverAfterClose_uses (count : ℕ) : NeverAfterClose (uses count) := by
  induction count with
  | zero =>
      intro earlier call later impossible
      rw [uses] at impossible
      exact absurd impossible (by simp)
  | succ count inductionHypothesis =>
      have split : uses (count + 1) =
          uses count ++ [.opened count] ++ [.shutdown count] ++ [.closed count] := by
        simp [uses]
      rw [split]
      apply NeverAfterClose.concat
      · apply NeverAfterClose.concat
        · exact inductionHypothesis.concat trivial
        · simp [SocketCall.MayFollow, closed_mem_uses]
      · simp [SocketCall.MayFollow, closed_mem_uses]

/-! ## The two kinds of states -/

namespace Server

/-- The server is stopped and every descriptor it was given is closed. -/
structure Stopped (server : Server) : Prop where
  running : server.running = false
  listenSocket : server.listenSocket = none
  acceptThread : server.acceptThread = false
  calls : server.calls = uses server.issued

/-- The server listens on the last descriptor it was given. -/
structure Listens (server : Server) (descriptor : ℕ) : Prop where
  running : server.running = true
  listenSocket : server.listenSocket = some descriptor
  acceptThread : server.acceptThread = true
  issued : server.issued = descriptor + 1
  calls : server.calls = uses descriptor ++ [.opened descriptor]

theorem stopped_constructed : constructed.Stopped :=
  ⟨rfl, rfl, rfl, rfl⟩

theorem Stopped.start {server : Server} (stopped : server.Stopped) :
    (server.start .listens).2.Listens server.issued := by
  have attempts : server.start .listens = (.ok (), { server with
      running := true
      listenSocket := some server.issued
      acceptThread := true
      issued := server.issued + 1
      calls := server.calls ++ [.opened server.issued] }) := by
    rw [Server.start, stopped.running]
    rfl
  rw [attempts]
  exact ⟨rfl, rfl, rfl, rfl, by rw [stopped.calls]⟩

theorem Stopped.stop {server : Server} (stopped : server.Stopped) : server.stop = server := by
  rw [Server.stop, stopped.running]
  rfl

theorem Listens.start {server : Server} {descriptor : ℕ} (listens : server.Listens descriptor)
    (outcome : Listening) : server.start outcome = (.ok (), server) := by
  rw [Server.start, if_pos listens.running]

theorem Listens.stop {server : Server} {descriptor : ℕ} (listens : server.Listens descriptor) :
    server.stop.Stopped := by
  have halts : server.stop = { server with
      running := false
      listenSocket := none
      acceptThread := false
      calls := server.calls ++ [.shutdown descriptor, .closed descriptor] } := by
    rw [Server.stop, if_neg (not_not.mpr listens.running)]
    simp only [listens.listenSocket]
  rw [halts]
  refine ⟨rfl, rfl, rfl, ?_⟩
  simp only [listens.calls, listens.issued, uses]
  simp

theorem Stopped.consistent {server : Server} (stopped : server.Stopped) : server.Consistent := by
  constructor
  · intro running
    rw [stopped.running] at running
    cases running
  · rintro ⟨_, joinable⟩
    rw [stopped.acceptThread] at joinable
    cases joinable

theorem Listens.consistent {server : Server} {descriptor : ℕ} (listens : server.Listens descriptor) :
    server.Consistent := by
  refine ⟨fun _ => ⟨⟨descriptor, listens.listenSocket, ?_, ?_⟩, listens.acceptThread⟩,
    fun _ => listens.running⟩
  · rw [listens.calls]
    exact List.mem_append_right _ (List.mem_singleton.mpr rfl)
  · rw [listens.calls, List.mem_append, closed_mem_uses]
    simp

/-- A failed attempt leaves the flag set on a server that does not listen. -/
theorem Stopped.inconsistent_of_failure {server : Server} (stopped : server.Stopped)
    {outcome : Listening} (fails : outcome ≠ .listens) :
    ¬ (server.start outcome).2.Consistent := by
  have flagged : (server.start outcome).2.running = true ∧
      (server.start outcome).2.acceptThread = false := by
    rw [Server.start, stopped.running]
    cases outcome with
    | socketFails => exact ⟨rfl, stopped.acceptThread⟩
    | bindFails => exact ⟨rfl, stopped.acceptThread⟩
    | listenFails => exact ⟨rfl, stopped.acceptThread⟩
    | listens => exact False.elim (fails rfl)
  intro consistent
  have listening := (consistent.mp flagged.1).2
  rw [flagged.2] at listening
  cases listening

/-- The states between calls while every attempt to listen succeeds. -/
def Orderly (server : Server) : Prop :=
  server.Stopped ∨ Exists fun descriptor => server.Listens descriptor

theorem Orderly.consistent {server : Server} (orderly : server.Orderly) : server.Consistent := by
  rcases orderly with stopped | ⟨descriptor, listens⟩
  · exact stopped.consistent
  · exact listens.consistent

theorem Orderly.stop {server : Server} (orderly : server.Orderly) : server.stop.Stopped := by
  rcases orderly with stopped | ⟨descriptor, listens⟩
  · rw [stopped.stop]
    exact stopped
  · exact listens.stop

/-- One call, with what it leaves to be required of the later ones. -/
theorem Orderly.step {server : Server} (orderly : server.Orderly) {call : LifecycleCall}
    {later : List LifecycleCall} (succeed : AttemptsSucceed server.running (call :: later)) :
    (server.step call).Orderly ∧ AttemptsSucceed (server.step call).running later := by
  cases call with
  | start outcome =>
      rcases orderly with stopped | ⟨descriptor, listens⟩
      · rw [stopped.running] at succeed
        rcases succeed with ⟨rfl, rest⟩
        have started := stopped.start
        refine ⟨Or.inr ⟨_, started⟩, ?_⟩
        rw [Server.step, started.running]
        exact rest
      · rw [listens.running] at succeed
        rw [Server.step, listens.start outcome]
        refine ⟨Or.inr ⟨_, listens⟩, ?_⟩
        rw [listens.running]
        exact succeed
  | stop =>
      have stopped := orderly.stop
      refine ⟨Or.inl stopped, ?_⟩
      rw [Server.step, stopped.running]
      cases running : server.running with
      | true =>
          rw [running] at succeed
          exact succeed
      | false =>
          rw [running] at succeed
          exact succeed

theorem Orderly.run {server : Server} (orderly : server.Orderly) {executed later : List LifecycleCall}
    (succeed : AttemptsSucceed server.running (executed ++ later)) :
    (Foundation.run Server.step server executed).Orderly ∧
      AttemptsSucceed (Foundation.run Server.step server executed).running later := by
  induction executed generalizing server with
  | nil => exact ⟨orderly, succeed⟩
  | cons call executed inductionHypothesis =>
      rcases orderly.step succeed with ⟨next, rest⟩
      exact inductionHypothesis next rest

/-- If the flag is right after every call, no attempt has failed. -/
theorem Orderly.attemptsSucceed {server : Server} (orderly : server.Orderly)
    {calls : List LifecycleCall}
    (consistent : forall executed later, calls = executed ++ later ->
      (Foundation.run Server.step server executed).Consistent) :
    AttemptsSucceed server.running calls := by
  induction calls generalizing server with
  | nil =>
      cases server.running with
      | true => exact trivial
      | false => exact trivial
  | cons call calls inductionHypothesis =>
      have later : (server.step call).Orderly ->
          AttemptsSucceed (server.step call).running calls := by
        intro next
        apply inductionHypothesis next
        rintro executed later rfl
        exact consistent (call :: executed) later rfl
      cases call with
      | start outcome =>
          rcases orderly with stopped | ⟨descriptor, listens⟩
          · rw [stopped.running]
            have succeeds : outcome = .listens := by
              by_contra fails
              exact stopped.inconsistent_of_failure fails (consistent [.start outcome] calls rfl)
            subst succeeds
            have started := stopped.start
            refine ⟨rfl, ?_⟩
            have rest := later (Or.inr ⟨_, started⟩)
            rw [Server.step, started.running] at rest
            exact rest
          · have same : server.step (.start outcome) = server := by
              rw [Server.step, listens.start outcome]
            rw [same] at later
            rw [listens.running] at later ⊢
            exact later (Or.inr ⟨_, listens⟩)
      | stop =>
          have stopped := orderly.stop
          have rest := later (Or.inl stopped)
          rw [Server.step, stopped.running] at rest
          cases server.running with
          | true => exact rest
          | false => exact rest

end Server

/-- A lifetime is orderly exactly when every attempt to listen succeeds. -/
theorem orderlyLifetime_iff (calls : List LifecycleCall) :
    OrderlyLifetime calls ↔ AttemptsSucceed false calls := by
  have initially : Server.constructed.Orderly := Or.inl Server.stopped_constructed
  constructor
  · intro lifetime
    exact initially.attemptsSucceed lifetime.consistent
  · intro succeed
    have whole : (Server.after calls).destroyed.Stopped := by
      have succeedAll : AttemptsSucceed Server.constructed.running (calls ++ []) := by
        rw [List.append_nil]
        exact succeed
      exact (initially.run succeedAll).1.stop
    constructor
    · rintro executed remaining rfl
      exact (initially.run succeed).1.consistent
    · rintro executed outcome remaining problem rfl raised
      rcases initially.run succeed with ⟨stopped | ⟨descriptor, listens⟩, rest⟩
      · rw [stopped.running] at rest
        rcases rest with ⟨rfl, _⟩
        rw [Server.after, Server.start, stopped.running] at raised
        cases raised
      · rw [Server.after, listens.start outcome] at raised
        cases raised
    · intro descriptor opened
      rw [whole.calls] at opened ⊢
      exact count_closed_uses (opened_mem_uses.mp opened)
    · rw [whole.calls]
      exact neverAfterClose_uses _

/-- A `start` whose `bind` fails, for example because the port is in use. -/
theorem not_orderlyLifetime_of_every_call :
    ¬ forall calls : List LifecycleCall, OrderlyLifetime calls := by
  intro always
  have stopped := (always [.start .bindFails]).stoppedByError [] .bindFails [] _ rfl rfl
  exact absurd stopped (by decide)

end CoreBank
