import CoreBank.Foundation.ScopedEndings
import CoreBank.Server.DataAccess

namespace CoreBank

open Foundation ScopedObjects

/-!
# The shared connection

All handlers use one connection.  `getAccount` and `transfer` each take
`dbMutex` with a guard and make a transaction object behind it; both are local
objects, and so every exception on the way, caught or not, destroys the
transaction first and then the guard.

Any statement may throw here that can: `lock`, `getConnection` when the
connection is not open, the constructor of a transaction when `BEGIN` fails or
another transaction is registered, `exec`, `commit`, and the conversions.
-/

/-! ## The two functions -/

/-- The local objects of `getAccount` and `transfer`. -/
inductive LocalObject where
  | guard
  | readTransaction
  | res
  | acc
  | work
  | parameters
  deriving DecidableEq, Repr

/-- The calls between the declarations. -/
inductive ConnectionCall where
  | getConnection
  | commit
  | resEmpty
  | returnAcc
  | append
  | exec
  deriving DecidableEq, Repr

def LocalObject.role : LocalObject -> Role
  | .guard => .guard
  | .readTransaction => .resource
  | .work => .resource
  | .res => .plain
  | .acc => .plain
  | .parameters => .plain

def AccountService.getAccountBody : Code LocalObject ConnectionCall :=
  .declare .guard <|
  -- make_unique<read_transaction>(getConnection())
  .perform .getConnection <|
  .declare .readTransaction <|
  -- res = tx->exec(...)
  .declare .res <|
  .perform .commit <|
  .returnIf .resEmpty <|
  .declare .acc <|
  .perform .returnAcc .done

def TransactionService.transferBody : Code LocalObject ConnectionCall :=
  .declare .guard <|
  -- make_unique<work>(getConnection())
  .perform .getConnection <|
  .declare .work <|
  .attempt
    (.declare .parameters <|
      .perform .append <|
      .perform .exec <|
      .perform .commit .done)
    -- throw std::runtime_error("Transfer failed: " + what)
    .raise
    .done

/-- What a handler calls. -/
inductive ServiceCall where
  | getAccount
  | transfer
  deriving DecidableEq, Repr

def ServiceCall.body : ServiceCall -> Code LocalObject ConnectionCall
  | .getAccount => AccountService.getAccountBody
  | .transfer => TransactionService.transferBody

/-- Both functions take the mutex before they begin their one transaction. -/
theorem disciplined_body (call : ServiceCall) : call.body.Disciplined LocalObject.role .bare := by
  cases call with
  | getAccount => exact ⟨.locked, rfl, .opened, rfl, .opened, rfl, .opened, rfl, trivial⟩
  | transfer => exact ⟨.locked, rfl, .opened, rfl, ⟨.opened, rfl, trivial⟩, trivial, trivial⟩

/-! ## The handlers -/

/-- The handlers between their calls, in them, and on their way out.  The owner
is the holder of `dbMutex`, the bearer has the transaction that is registered
with the connection. -/
abbrev Handlers (Handler : Type) : Type :=
  System Handler LocalObject ConnectionCall

section Handlers

variable {Handler : Type}

/-- A transaction object of the handler is alive. -/
def Handlers.HasTransaction (handlers : Handlers Handler) (handler : Handler) : Prop :=
  handlers.Has LocalObject.role handler .resource

/-- The handler is about to construct a transaction object. -/
def Handlers.Begins (handlers : Handlers Handler) (handler : Handler) : Prop :=
  Exists fun object => Exists fun rest => Exists fun objects => Exists fun caught =>
  Exists fun outer =>
    handlers.control handler = ⟨.running, ⟨objects, .declare object rest, caught⟩ :: outer⟩ ∧
    object.role = .resource

/-- At most one transaction is alive, under the mutex of its handler; outside the
functions a handler has neither; and where a transaction is begun, none is
registered or alive. -/
structure OneAtATime (handlers : Handlers Handler) : Prop where
  exclusive : forall first second, handlers.HasTransaction first -> handlers.HasTransaction second ->
    first = second
  single : forall handler, ((held (handlers.control handler).blocks).countP fun object =>
    decide (object.role = .resource)) ≤ 1
  guarded : forall handler, handlers.HasTransaction handler -> handlers.owner = some handler
  outside : forall handler, (handlers.control handler).blocks = [] ->
    handlers.owner ≠ some handler ∧ ¬ handlers.HasTransaction handler
  unopened : forall handler, handlers.Begins handler ->
    handlers.bearer = none ∧ forall other, ¬ handlers.HasTransaction other

theorem oneAtATime_of_invariant {handlers : Handlers Handler}
    (invariant : handlers.Invariant LocalObject.role) : OneAtATime handlers where
  exclusive := by
    intro first second firstHas secondHas
    have same := (invariant.owner_of_resource firstHas).symm.trans
      (invariant.owner_of_resource secondHas)
    exact Option.some.inj same
  single handler := invariant.single nofun
  guarded handler has := invariant.owner_of_resource has
  outside handler isOutside :=
    ⟨fun owned => System.not_has_of_outside isOutside (invariant.owner_iff.mp owned),
      System.not_has_of_outside isOutside⟩
  unopened := by
    rintro handler ⟨object, rest, objects, caught, outer, stands, use⟩
    have unborne := invariant.unborne stands use
    refine ⟨unborne, fun other has => ?_⟩
    rw [invariant.bearer_iff.mpr has] at unborne
    cases unborne

variable [DecidableEq Handler]

/-- The handlers after some moves, in any order and with any exceptions. -/
def handlersAfter (events : List (Handler × Move ServiceCall)) : Handlers Handler :=
  System.after LocalObject.role ServiceCall.body events

/-- What holds after some moves: the connection is used by one handler at a
time; whenever the mutex is released next, no transaction is alive; and its
holder releases it within a bounded number of its own moves. -/
structure SharesConnection (events : List (Handler × Move ServiceCall)) : Prop where
  oneAtATime : OneAtATime (handlersAfter events)
  endedFirst : forall event owner, (handlersAfter events).owner = some owner ->
    (handlersAfter (events ++ [event])).owner ≠ some owner ->
    forall other, ¬ (handlersAfter events).HasTransaction other
  givenBack : forall owner, (handlersAfter events).owner = some owner ->
    Exists fun bound => forall later : List (Handler × Move ServiceCall),
      bound ≤ (later.countP fun event => decide (event.1 = owner)) ->
      Exists fun executed => executed <+: later ∧
        (handlersAfter (events ++ executed)).owner ≠ some owner

theorem handlersAfter_append (events later : List (Handler × Move ServiceCall)) :
    handlersAfter (events ++ later) =
      run (System.step LocalObject.role ServiceCall.body) (handlersAfter events) later :=
  run_append System.idle events later

/-- Whatever the handlers call, throw and return, in any order, they use the
connection one at a time and give it back. -/
theorem sharesConnection (events : List (Handler × Move ServiceCall)) : SharesConnection events := by
  have invariant : (handlersAfter events).Invariant LocalObject.role :=
    System.invariant_after disciplined_body events
  refine ⟨oneAtATime_of_invariant invariant, ?_, ?_⟩
  · intro event owner owned released
    rw [handlersAfter_append] at released
    exact invariant.unborne_of_release disciplined_body (System.acts_step _ event) owned released
  · intro owner owned
    refine ⟨weight ((handlersAfter events).control owner).blocks, fun later enough => ?_⟩
    rcases invariant.releases disciplined_body owned enough with ⟨executed, leads, released⟩
    refine ⟨executed, leads, ?_⟩
    rw [handlersAfter_append]
    exact released

/-- A handler in the middle of a call, with its transaction begun. -/
example : (handlersAfter [(7, .calls .transfer), (7, .proceeds), (7, .proceeds),
    (7, .proceeds)]).bearer = some 7 := rfl

end Handlers

/-! ## The outcomes of the two functions -/

/-- An exception. -/
def raised {A : Type} : Except String A -> Bool
  | .ok _ => false
  | .error _ => true

theorem raised_iff {A : Type} {outcome : Except String A} :
    raised outcome = true ↔ Exists fun what => outcome = .error what := by
  cases outcome with
  | ok value => exact ⟨nofun, nofun⟩
  | error what => exact ⟨fun _ => ⟨what, rfl⟩, fun _ => rfl⟩

section Outcomes

variable {Double : Type} (driver : Driver Double) (work : DatabaseWork)

namespace AccountService

/-- What becomes of the statements of `getAccount` on some tables. -/
def fates (accountID : ℤ) (database : Database) : Fates LocalObject ConnectionCall where
  fails
    | .readTransaction => work.beginFails.isSome
    | .res => work.execFails.isSome
    | .acc => raised (build driver (database.joinAccount accountID))
    | _ => false
  throws
    | .commit => raised (work.commit database).reported
    | _ => false
  returns _ := (database.joinAccount accountID).isEmpty

/-- The body throws where the function has an error. -/
theorem ending_getAccountBody (accountID : ℤ) (database : Database) :
    getAccountBody.ending (fates driver work accountID database) = .throwing ↔
      Exists fun what => getAccount driver work accountID database = .error what := by
  rw [← raised_iff]
  unfold getAccount
  simp only [getAccountBody, Code.ending, fates, Bool.false_eq_true, if_false]
  cases work.beginFails with
  | some what => exact ⟨fun _ => rfl, fun _ => rfl⟩
  | none =>
      cases work.execFails with
      | some what => exact ⟨fun _ => rfl, fun _ => rfl⟩
      | none =>
          cases (work.commit database).reported with
          | error what => exact ⟨fun _ => rfl, fun _ => rfl⟩
          | ok committed =>
              cases database.joinAccount accountID with
              | nil =>
                  constructor
                  · intro impossible
                    cases impossible
                  · intro impossible
                    cases impossible
              | cons row rows =>
                  change (if raised (build driver (row :: rows)) then Mode.throwing else .running) =
                    .throwing ↔ raised (build driver (row :: rows)) = true
                  split_ifs with throws
                  · exact ⟨fun _ => throws, fun _ => rfl⟩
                  · refine ⟨fun impossible => ?_, fun throws' => absurd throws' throws⟩
                    cases impossible

/-- A handler that has the functions for itself comes out of `getAccount` with
everything given back, by an exception where the function has an error. -/
theorem getAccount_alone {Handler : Type} [DecidableEq Handler] {handlers : Handlers Handler}
    {handler : Handler} (alone : handlers.Alone LocalObject.role handler)
    (called : handlers.control handler = ⟨.running, [⟨[], getAccountBody, none⟩]⟩)
    (accountID : ℤ) (database : Database) : Exists fun mode =>
      handlers.Arrives LocalObject.role ServiceCall.body (fates driver work accountID database) handler
        ⟨mode, []⟩ ∧
      (mode = .throwing ↔
        Exists fun what => getAccount driver work accountID database = .error what) :=
  ⟨_, alone.arrives_outside disciplined_body called,
    ending_getAccountBody driver work accountID database⟩

end AccountService

namespace TransactionService

variable (generated : Generated)

/-- What becomes of the statements of `transfer` on some tables. -/
def fates (call : TransferCall) (database : Database) : Fates LocalObject ConnectionCall where
  fails
    | .work => work.beginFails.isSome
    | _ => false
  throws
    | .exec => raised (exec driver work generated call database)
    | .commit =>
        match exec driver work generated call database with
        | .error _ => false
        | .ok uncommitted => raised (work.commit uncommitted).reported
    | _ => false
  returns _ := false

/-- The body throws where the function has an error: the handler of its `try`
throws again what it catches. -/
theorem ending_transferBody (fromAccountID toAccountID : ℤ) (amount : Double) (description : String)
    (database : Database) :
    transferBody.ending (fates driver work generated
        (transferCall driver fromAccountID toAccountID amount description) database) = .throwing ↔
      Exists fun what => (transfer driver work generated fromAccountID toAccountID amount description
        database).1 = .error what := by
  rw [← raised_iff]
  unfold transfer
  simp only [transferBody, Code.ending, fates, Bool.false_eq_true, if_false]
  cases work.beginFails with
  | some what => exact ⟨fun _ => rfl, fun _ => rfl⟩
  | none =>
      dsimp only
      cases exec driver work generated
          (transferCall driver fromAccountID toAccountID amount description) database with
      | error what => exact ⟨fun _ => rfl, fun _ => rfl⟩
      | ok uncommitted =>
          cases outcome : (work.commit uncommitted).reported with
          | error what =>
              simp only [Option.isSome_none, raised, outcome, Bool.false_eq_true, if_false, if_true]
              exact ⟨fun _ => rfl, fun _ => trivial⟩
          | ok committed =>
              simp only [Option.isSome_none, raised, outcome, Bool.false_eq_true, if_false]
              constructor
              · intro impossible
                cases impossible
              · intro impossible
                cases impossible

theorem transfer_alone {Handler : Type} [DecidableEq Handler] {handlers : Handlers Handler}
    {handler : Handler} (alone : handlers.Alone LocalObject.role handler)
    (called : handlers.control handler = ⟨.running, [⟨[], transferBody, none⟩]⟩)
    (fromAccountID toAccountID : ℤ) (amount : Double) (description : String) (database : Database) :
    Exists fun mode =>
      handlers.Arrives LocalObject.role ServiceCall.body (fates driver work generated
        (transferCall driver fromAccountID toAccountID amount description) database) handler
        ⟨mode, []⟩ ∧
      (mode = .throwing ↔
        Exists fun what => (transfer driver work generated fromAccountID toAccountID amount description
          database).1 = .error what) :=
  ⟨_, alone.arrives_outside disciplined_body called,
    ending_transferBody driver work generated fromAccountID toAccountID amount description database⟩

end TransactionService

end Outcomes

end CoreBank
