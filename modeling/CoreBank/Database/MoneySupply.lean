import CoreBank.Database.LedgerAgreement

namespace CoreBank

open Foundation

/-!
# The money supply under any mix of statements

The sum of all balances is protected in three ways.  Without the permission no
statement changes the balance of a stored row; an account is deleted only at a
balance of zero; and a transfer of whole cents moves what it takes.  A session
that never assigns the permission has it only inside a call of `transferMoney`,
which leaves it off.

The sums are taken in cents with `NaN` absorbing, so nothing here needs the
balances to be numbers.
-/

/-! ## Statements without the permission -/

/-- The balances of some rows in cents. -/
def balances (rows : List Account) : WithTop ℤ :=
  (rows.map fun account => account.balance.measure).sum

theorem Database.total_eq (database : Database) : database.total = balances database.accounts := rfl

theorem balances_append (first second : List Account) :
    balances (first ++ second) = balances first + balances second := by
  rw [balances, List.map_append, List.sum_append, balances, balances]

theorem measure_of_assign {set : AccountSet} {allowUpdate : Option String} {row changed : Account}
    (withoutPermission : allowUpdate ≠ some "on") (success : set.assign allowUpdate row = .ok changed) :
    changed.balance.measure = row.balance.measure := by
  rcases set.assign_balance success with ⟨_, permitted⟩ | ⟨_, same⟩
  · exact False.elim (withoutPermission permitted)
  · rw [same]

/-- The check at the end of a statement returns the tables it was given. -/
theorem accounts_of_check {tables : Tables} {result : Database} {inserted rows : List Account}
    (success : (tables.check >>= fun checked => pure (checked, rows)) =
      (.ok (result, inserted) : Except SqlError (Database × List Account))) :
    result.accounts = tables.accounts ∧ inserted = rows := by
  rcases bind_eq_ok_iff.mp success with ⟨checked, satisfied, final⟩
  cases final
  exact ⟨by rw [Tables.toTables_of_check satisfied], rfl⟩

theorem balances_untouched (rows : List Account) :
    ((untouched rows).map fun entry => entry.1.balance.measure).sum = balances rows := by
  rw [untouched, List.map_map]
  rfl

theorem balances_map_fst (rows : List (Account × Bool)) :
    balances (rows.map Prod.fst) = (rows.map fun entry => entry.1.balance.measure).sum := by
  rw [balances, List.map_map]
  rfl

/-- Without the permission a statement changes the total by exactly the
balances it stores in inserted rows. -/
theorem total_of_execute {statement : Statement} {allowUpdate : Option String}
    {database result : Database} {inserted : List Account}
    (withoutPermission : allowUpdate ≠ some "on")
    (success : statement.execute allowUpdate database = .ok (result, inserted)) :
    result.total = database.total + balances inserted := by
  have keepsAccounts : forall {tables : Tables},
      (tables.check >>= fun checked => pure (checked, [])) =
        (.ok (result, inserted) : Except SqlError (Database × List Account)) ->
      tables.accounts = database.accounts -> result.total = database.total + balances inserted := by
    intro tables checked same
    rcases accounts_of_check checked with ⟨accounts, rfl⟩
    rw [Database.total_eq, Database.total_eq, accounts, same]
    exact (add_zero _).symm
  cases statement with
  | insertCustomers inputs =>
      rcases bind_eq_ok_iff.mp success with ⟨rows, _, checked⟩
      exact keepsAccounts checked rfl
  | upsertCustomers inputs key selected set =>
      rcases bind_eq_ok_iff.mp success with ⟨rows, _, success⟩
      rcases bind_eq_ok_iff.mp success with ⟨⟨changed, others⟩, _, checked⟩
      exact keepsAccounts checked rfl
  | updateCustomers selected set =>
      rcases bind_eq_ok_iff.mp success with ⟨rows, _, checked⟩
      exact keepsAccounts checked rfl
  | deleteCustomers selected =>
      rcases bind_eq_ok_iff.mp success with ⟨rows, _, checked⟩
      exact keepsAccounts checked rfl
  | insertAccounts inputs =>
      rcases bind_eq_ok_iff.mp success with ⟨rows, _, checked⟩
      rcases accounts_of_check checked with ⟨accounts, rfl⟩
      rw [Database.total_eq, accounts, balances_append, Database.total_eq]
  | upsertAccounts inputs selected set =>
      rcases bind_eq_ok_iff.mp success with ⟨rows, _, success⟩
      rcases bind_eq_ok_iff.mp success with ⟨⟨changed, added⟩, upserted, checked⟩
      rcases accounts_of_check checked with ⟨accounts, rfl⟩
      have accounting := RowTable.upsertRows_total (fun row : Account => row.balance.measure)
        (fun _ _ _ updated => measure_of_assign withoutPermission updated) upserted
      rw [balances_untouched] at accounting
      rw [Database.total_eq, accounts, balances_map_fst, accounting, Database.total_eq]
      rfl
  | updateAccounts selected set =>
      rcases bind_eq_ok_iff.mp success with ⟨rows, updated, checked⟩
      rcases accounts_of_check checked with ⟨accounts, rfl⟩
      have accounting := RowTable.updateRows_total (fun row : Account => row.balance.measure)
        (fun _ _ _ assignedRow => measure_of_assign withoutPermission assignedRow) updated
      rw [Database.total_eq, accounts]
      exact accounting.trans (add_zero _).symm
  | deleteAccounts selected =>
      rcases bind_eq_ok_iff.mp success with ⟨rows, deleted, checked⟩
      rcases accounts_of_check checked with ⟨accounts, rfl⟩
      have accounting := RowTable.deleteRows_total (fun row : Account => row.balance.measure)
        (fun _ _ released => measure_of_preventDeleteNonzeroBalance released) deleted
      rw [Database.total_eq, accounts]
      exact accounting.trans (add_zero _).symm
  | insertTransactions inputs =>
      rcases bind_eq_ok_iff.mp success with ⟨rows, _, checked⟩
      exact keepsAccounts checked rfl
  | upsertTransactions inputs selected =>
      rcases bind_eq_ok_iff.mp success with ⟨rows, _, success⟩
      rcases bind_eq_ok_iff.mp success with ⟨⟨changed, others⟩, _, checked⟩
      exact keepsAccounts checked rfl
  | updateTransactions selected =>
      rcases bind_eq_ok_iff.mp success with ⟨rows, _, checked⟩
      exact keepsAccounts checked rfl
  | deleteTransactions selected =>
      rcases bind_eq_ok_iff.mp success with ⟨rows, _, checked⟩
      exact keepsAccounts checked rfl

/-! ## Runs of many sessions -/

/-- The tables, the value of `database1.allow_balance_update` that each session
sees, and all account rows that successful insertions have stored. -/
structure Bank (Session : Type) where
  database : Database
  settings : Session -> Option String
  inserted : List Account

/-- What a session does.  `interrupted` marks a statement that raises for a
reason outside this model, such as a timeout.  The end of a transaction gives
the session the value back that the parameter has outside transactions. -/
inductive Event (Session : Type) where
  | statement (session : Session) (statement : Statement) (interrupted : Bool)
  | transferMoney (session : Session) (request : Attempt) (interrupted : Bool)
  | endTransaction (session : Session)

section Sessions

variable {Session : Type}

/-- A statement of a session; an error undoes it. -/
def Bank.execute (bank : Bank Session) (session : Session) (statement : Statement) : Bank Session :=
  match statement.execute (bank.settings session) bank.database with
  | .ok (result, inserted) => { bank with database := result, inserted := bank.inserted ++ inserted }
  | .error _ => bank

/-- An amount that is a number of whole cents, if it is a finite number. -/
def Event.WholeCent : Event Session -> Prop
  | .transferMoney _ request _ =>
      forall decimal, request.call.amount = some (.finite decimal) -> decimal.IsWholeCent
  | _ => True

/-- The invariant of the runs: no session holds the permission, and the total
is the opening total with the inserted balances. -/
structure Bank.Conserves (opening : WithTop ℤ) (bank : Bank Session) : Prop where
  withoutPermission : forall session, bank.settings session ≠ some "on"
  total : bank.database.total = opening + balances bank.inserted

theorem Bank.execute_conserves {opening : WithTop ℤ} {bank : Bank Session}
    (conserves : bank.Conserves opening) (session : Session) (statement : Statement) :
    (bank.execute session statement).Conserves opening := by
  unfold Bank.execute
  cases executed : statement.execute (bank.settings session) bank.database with
  | error problem => exact conserves
  | ok outcome =>
      rcases outcome with ⟨result, inserted⟩
      have accounting := total_of_execute (conserves.withoutPermission session) executed
      constructor
      · exact conserves.withoutPermission
      · calc result.total = bank.database.total + balances inserted := accounting
          _ = opening + balances bank.inserted + balances inserted := by rw [conserves.total]
          _ = opening + balances (bank.inserted ++ inserted) := by rw [balances_append, add_assoc]

theorem total_of_acceptance {database : Database} {call : TransferCall} {generated : Generated}
    (accepted : Acceptance database call generated)
    (whole : forall decimal, call.amount = some (.finite decimal) -> decimal.IsWholeCent) :
    accepted.result.total = database.total := by
  have exact : forall decimal, accepted.amount = .finite decimal -> ¬ decimal.IsHalfCent := by
    intro decimal finite
    exact (whole decimal (finite ▸ accepted.amountGiven)).not_isHalfCent
  exact accepted.total_of_agreement
    (accepted.debit_agrees fun decimal finite half => absurd half (exact decimal finite))
    (accepted.credit_agrees fun decimal _ finite half => absurd half (exact decimal finite))

variable [DecidableEq Session]

/-- A call of the procedure; an error undoes it together with its setting. -/
def Bank.transferMoney (bank : Bank Session) (session : Session) (request : Attempt) : Bank Session :=
  match CoreBank.transferMoney request.call request.generated
      ⟨bank.database, bank.settings session⟩ with
  | .ok (_, after) =>
      { bank with
        database := after.database
        settings := Function.update bank.settings session after.allowBalanceUpdate }
  | .error _ => bank

/-- One event. -/
def Bank.step (outside : Session -> Option String) (bank : Bank Session) :
    Event Session -> Bank Session
  | .statement session statement interrupted =>
      if interrupted then bank else bank.execute session statement
  | .transferMoney session request interrupted =>
      if interrupted then bank else bank.transferMoney session request
  | .endTransaction session =>
      { bank with settings := Function.update bank.settings session (outside session) }

theorem withoutPermission_update {settings : Session -> Option String} {session : Session}
    {value : Option String} (others : forall other, settings other ≠ some "on")
    (new : value ≠ some "on") (other : Session) :
    Function.update settings session value other ≠ some "on" := by
  by_cases same : other = session
  · rw [same, Function.update_self]
    exact new
  · rw [Function.update_of_ne same]
    exact others other

theorem Bank.transferMoney_conserves {opening : WithTop ℤ} {bank : Bank Session}
    (conserves : bank.Conserves opening) (session : Session) (request : Attempt)
    (whole : forall decimal, request.call.amount = some (.finite decimal) -> decimal.IsWholeCent) :
    (bank.transferMoney session request).Conserves opening := by
  unfold Bank.transferMoney
  cases executed : CoreBank.transferMoney request.call request.generated
      ⟨bank.database, bank.settings session⟩ with
  | error problem => exact conserves
  | ok outcome =>
      rcases outcome with ⟨nothing, after⟩
      rcases transferMoney_iff_acceptance.mp executed with ⟨accepted, rfl⟩
      constructor
      · exact withoutPermission_update conserves.withoutPermission off_ne_on
      · rw [← conserves.total]
        exact total_of_acceptance accepted whole

theorem Bank.step_conserves {outside : Session -> Option String}
    (unassigned : forall session, outside session ≠ some "on") {opening : WithTop ℤ}
    {bank : Bank Session} (conserves : bank.Conserves opening) (event : Event Session)
    (whole : event.WholeCent) : (bank.step outside event).Conserves opening := by
  cases event with
  | statement session statement interrupted =>
      cases interrupted with
      | true => exact conserves
      | false => exact bank.execute_conserves conserves session statement
  | transferMoney session request interrupted =>
      cases interrupted with
      | true => exact conserves
      | false => exact bank.transferMoney_conserves conserves session request whole
  | endTransaction session =>
      constructor
      · exact withoutPermission_update conserves.withoutPermission (unassigned session)
      · exact conserves.total

/-- In every run of sessions that never assign the permission, with transfers
of whole cents, the total of all balances is the opening total with the
balances stored by the insertions of the run. -/
theorem total_of_events (outside : Session -> Option String)
    (unassigned : forall session, outside session ≠ some "on") (opening : Database)
    (events : List (Event Session)) (whole : forall event, event ∈ events -> event.WholeCent) :
    (run (Bank.step outside) ⟨opening, outside, []⟩ events).database.total =
      opening.total + balances (run (Bank.step outside) ⟨opening, outside, []⟩ events).inserted := by
  have initially : Bank.Conserves opening.total ⟨opening, outside, []⟩ :=
    ⟨unassigned, (add_zero _).symm⟩
  exact (run_invariant (Bank.Conserves opening.total)
    (fun _ event conserves whole => Bank.step_conserves unassigned conserves event whole) initially
    (Along.of_inputs whole _)).total

/-- An account of five dollars is opened by one session, after which the other
transfers thirty cents. -/
def openAndTransfer : List (Event Bool) :=
  [.statement true (.insertAccounts [⟨some 3, some 1, some "savings", some (.finite ⟨500, 2⟩), some "USD"⟩])
      false,
    .transferMoney false thirtyCents false]

theorem total_of_events_openAndTransfer :
    (run (Bank.step fun _ => none)
        ⟨twoAccounts (.cents ⟨100, by decide⟩) .zero, fun _ : Bool => none, []⟩
        openAndTransfer).database.total =
      ((600 : ℤ) : WithTop ℤ) := by
  have conserved := total_of_events (fun _ : Bool => none) (fun _ => by decide)
    (twoAccounts (.cents ⟨100, by decide⟩) .zero) openAndTransfer (by
      intro event member
      rcases List.mem_cons.mp member with rfl | later
      · exact trivial
      · rw [List.mem_singleton.mp later]
        intro decimal given
        cases given
        decide +kernel)
  rw [conserved]
  decide +kernel

end Sessions

end CoreBank
