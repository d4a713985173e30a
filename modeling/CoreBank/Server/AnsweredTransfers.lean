import CoreBank.Database.RoundingDrift
import CoreBank.Foundation.Contributions
import CoreBank.Server.RequestedTransfers
import Mathlib.Data.Fintype.Basic

namespace CoreBank

open Foundation

/-!
# Balances from the replies

`OK` tells a client that its transfer is in the tables, and any other reply that
it is not.  So the clients together can say what is on every account, each from
its own commands and the replies to them, although the handlers carry the
commands out in an order that nobody knows.  An amount of whole cents counts
exactly; any other is stored with an error of half a cent at most.
-/

section Replies

variable {Client Double : Type} (driver : Driver Double)

/-- The cents that an amount stands for, if it is a finite number. -/
def Driver.cents (amount : Double) : ℚ :=
  match driver.parameter amount with
  | .finite decimal => decimal.inCents
  | _ => 0

/-- Half a cent, unless the amount is of whole cents. -/
def Driver.rounding (amount : Double) : ℚ :=
  match driver.parameter amount with
  | .finite decimal => if decimal.inCents.den = 1 then 0 else 1 / 2
  | _ => 0

/-- What a reply says about an account: a transfer that is answered with `OK`
brings its cents to one account and takes them from the other. -/
def answeredGain (id : ℤ) (command : Command Double) (reply : String) : ℚ :=
  match command with
  | .transfer fromId toId amount =>
      if reply = "OK\n" then
        (if toId = id then driver.cents amount else 0) - (if fromId = id then driver.cents amount else 0)
      else 0
  | _ => 0

/-- How far a reply may be off: once for each time the account is written. -/
def answeredRounding (id : ℤ) (command : Command Double) (reply : String) : ℚ :=
  match command with
  | .transfer fromId toId amount =>
      if reply = "OK\n" then
        (if toId = id then driver.rounding amount else 0) +
          (if fromId = id then driver.rounding amount else 0)
      else 0
  | _ => 0

variable {driver}

theorem storesWithin_rounding {amount : Double} {decimal : Decimal}
    (finite : driver.parameter amount = .finite decimal) :
    StoresWithin (driver.rounding amount) decimal := by
  rw [Driver.rounding, finite]
  dsimp only
  split_ifs with whole
  · exact storesWithin_zero (Rat.coe_int_num_of_den_eq_one whole).symm
  · exact storesWithin_half decimal

variable (driver) in
theorem answeredGain_of_ne (command : Command Double) {reply : String} (other : reply ≠ "OK\n")
    (id : ℤ) : answeredGain driver id command reply = 0 ∧ answeredRounding driver id command reply = 0 := by
  cases command with
  | transfer fromId toId amount => exact ⟨if_neg other, if_neg other⟩
  | _ => exact ⟨rfl, rfl⟩

/-- An answer other than `OK` leaves the tables, and `OK` stands for an accepted
call of the procedure. -/
theorem Answers.cases {showDouble : Double -> String} {refusal : Database -> Option String}
    {command : Command Double} {before after : Database} {reply : String}
    (answers : Answers driver showDouble refusal command before reply after) :
    (reply ≠ "OK\n" ∧ after = before) ∨
      Exists fun request : Attempt => command.call driver = some request.call ∧ reply = "OK\n" ∧
        Exists fun accepted : Acceptance before request.call request.generated =>
          after = accepted.result := by
  rcases answers with ⟨generated, answer⟩
  cases called : command.call driver with
  | none =>
      have same := respond_of_call_eq_none driver showDouble (dependable refusal) generated called before
      rw [answer] at same
      refine Or.inl ⟨?_, same⟩
      intro ok
      have replied := congrArg Prod.fst answer
      rcases (respond_eq_ok_iff _ _ _).mp (replied.trans ok) with ⟨fromId, toId, amount, rfl, _⟩
      cases called
  | some call =>
      rcases command.call_eq_some called with ⟨fromId, toId, amount, rfl, rfl⟩
      have ends := transferEnds driver (dependable refusal) generated fromId toId amount
        "Server transfer" before
      simp only [respond, bankServices] at answer
      generalize TransactionService.transfer driver (dependable refusal) generated fromId toId amount
        "Server transfer" before = outcome at ends answer
      cases ends with
      | returned accepted _ =>
          cases answer
          exact Or.inr ⟨⟨_, generated⟩, rfl, rfl, accepted, rfl⟩
      | undone what _ =>
          cases answer
          exact Or.inl ⟨errorReply_ne_ok what, rfl⟩
      | inDoubt what accepted doubtful =>
          exact False.elim (not_commitsInDoubt_dependable generated _ before doubtful)

theorem Answers.ordinary {showDouble : Double -> String} {refusal : Database -> Option String}
    {command : Command Double} {before after : Database} {reply : String}
    (answers : Answers driver showDouble refusal command before reply after)
    (ordinary : Ordinary before) : Ordinary after := by
  rcases answers.cases with ⟨_, rfl⟩ | ⟨request, _, _, accepted, rfl⟩
  · exact ordinary
  · rw [← attempt_of_acceptance accepted]
    exact ordinary_attempt ordinary request

/-- One answer is off by its rounding at most. -/
theorem Answers.near {showDouble : Double -> String} {refusal : Database -> Option String}
    {command : Command Double} {before after : Database} {reply : String}
    (answers : Answers driver showDouble refusal command before reply after)
    (ordinary : Ordinary before) (id : ℤ) :
    |centsOf id after - (centsOf id before + answeredGain driver id command reply)| ≤
      answeredRounding driver id command reply := by
  rcases answers.cases with ⟨other, rfl⟩ | ⟨request, called, rfl, accepted, rfl⟩
  · rcases answeredGain_of_ne driver command other id with ⟨gain, rounding⟩
    rw [gain, rounding, add_zero, sub_self, abs_zero]
  · rcases accepted.exists_finite ordinary with ⟨decimal, finite⟩
    rcases command.call_eq_some called with ⟨fromId, toId, amount, rfl, call⟩
    have given : some (driver.parameter amount) = some accepted.amount :=
      (congrArg TransferCall.amount call).symm.trans accepted.amountGiven
    have parameter : driver.parameter amount = .finite decimal := (Option.some.inj given).trans finite
    have within := accepted.result_within ordinary finite (storesWithin_rounding parameter) id
    have exact : exactGain id before request =
        answeredGain driver id (.transfer fromId toId amount) "OK\n" := by
      simp only [exactGain, isAccepted_of_acceptance accepted, answeredGain, if_true, Attempt.inCents,
        Driver.cents, call, TransactionService.transferCall, parameter, Option.some.injEq]
    rw [exact] at within
    simp only [call, TransactionService.transferCall, Option.some.injEq] at within
    rw [answeredRounding, if_pos rfl]
    exact within

end Replies

/-! ## Behind the handlers -/

section Handlers

variable {Client Double : Type} [DecidableEq Client] (driver : Driver Double)
  (showDouble : Double -> String) (refusal : Database -> Option String)
  (strtod : List Byte -> Option Double)

namespace Threads

/-- The threads after a schedule. -/
def after (database : Database) (pieces : Client -> List (List Byte))
    (schedule : List (Client × Generated)) : Threads Client Double :=
  run (step driver showDouble refusal strtod) (start database pieces) schedule

/-- The replies to a client, the last of which may still have to be sent. -/
def replies (threads : Threads Client Double) (client : Client) : List String :=
  (threads.handlers client).sent ++ (threads.handlers client).stage.answered

end Threads

end Handlers

end CoreBank
