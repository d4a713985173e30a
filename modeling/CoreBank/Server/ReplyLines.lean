import CoreBank.Foundation.Runs
import CoreBank.Server.PrintedBalances

namespace CoreBank

open Foundation

/-!
# One line for each reply

A client pairs replies with its commands by splitting what it receives at the
newlines.  Every reply that the handler composes itself is one line.  The text
of an exception is pasted as it is, so the pairing lasts exactly as long as no
exception brings a newline along.
-/

/-- A text without a newline. -/
def Unbroken (text : String) : Prop :=
  '\n' ∉ text.toList

instance (text : String) : Decidable (Unbroken text) :=
  inferInstanceAs (Decidable (_ ∉ _))

/-- Exactly one newline, at the end. -/
def IsLine (reply : String) : Prop :=
  Exists fun text => Unbroken text ∧ reply = text ++ "\n"

/-- What a client has received, split at the newlines; `current` is what has
come since the last one. -/
def splitLines (current : List Char) : List Char -> List (List Char)
  | [] => []
  | character :: rest =>
      if character = '\n' then current :: splitLines [] rest
      else splitLines (current ++ [character]) rest

section Handlers

variable {Bank : Type}

/-- The services of a handler with doubles, which prints them as a stream
does. -/
def handlerServices (getBalance : ℤ -> Bank -> Except String Double × Bank)
    (transfer : ℤ -> ℤ -> Double -> Bank -> Except String Unit × Bank) : Services Bank Double where
  getBalance := getBalance
  transfer := transfer
  showDouble := showDouble

/-- The bank after a command. -/
def carryOut (services : Services Bank Double) (bank : Bank) (command : Command Double) : Bank :=
  (respond services command bank).2

/-- An exception that the command throws has no newline in its text. -/
def ThrowsUnbroken (services : Services Bank Double) (bank : Bank) : Command Double -> Prop
  | .balance accId => forall what, (services.getBalance accId bank).1 = .error what -> Unbroken what
  | .transfer fromId toId amount =>
      forall what, (services.transfer fromId toId amount bank).1 = .error what -> Unbroken what
  | _ => True

/-- One reply for each piece, each of them one line, so that the client finds
reply after reply between the newlines. -/
structure RepliesPairUp (services : Services Bank Double) (pieces : List (List Byte)) (bank : Bank) :
    Prop where
  count : (handleClient services strtod pieces bank).1.length = pieces.length
  single : forall reply, reply ∈ (handleClient services strtod pieces bank).1 -> IsLine reply
  received : splitLines [] ((handleClient services strtod pieces bank).1.flatMap String.toList) =
    (handleClient services strtod pieces bank).1.map fun reply => reply.toList.dropLast

end Handlers

/-! ## Texts without newlines -/

theorem unbroken_append {first second : String} :
    Unbroken (first ++ second) ↔ Unbroken first ∧ Unbroken second := by
  unfold Unbroken
  rw [String.toList_append, List.mem_append, not_or]

theorem unbroken_natText (n : ℕ) : Unbroken (toString n) := by
  intro member
  have digits : (toString n).toList = Nat.toDigits 10 n := Nat.toList_repr
  rw [digits] at member
  have digit := Nat.isDigit_of_mem_toDigits (by decide) (by decide) member
  exact absurd digit (by decide)

theorem unbroken_intText (n : ℤ) : Unbroken (toString n) := by
  cases n with
  | ofNat n => exact unbroken_natText n
  | negSucc n =>
      have split : toString (Int.negSucc n) = "-" ++ toString (n + 1) := rfl
      rw [split, unbroken_append]
      exact ⟨by decide, unbroken_natText (n + 1)⟩

theorem unbroken_padded (width n : ℕ) : Unbroken (Decimal.padded width n) := by
  unfold Decimal.padded
  rw [unbroken_append]
  refine ⟨?_, unbroken_natText n⟩
  intro member
  rw [String.toList_ofList] at member
  exact absurd (List.eq_of_mem_replicate member) (by decide)

theorem unbroken_decimalText (decimal : Decimal) : Unbroken decimal.text := by
  rw [Decimal.text_eq, unbroken_append, Decimal.unsignedText]
  constructor
  · split_ifs
    · decide
    · decide
  · split_ifs
    · exact unbroken_natText _
    · rw [unbroken_append, unbroken_append]
      exact ⟨⟨unbroken_natText _, by decide⟩, unbroken_padded _ _⟩

theorem unbroken_generalText (x : ℚ) : Unbroken (generalText x) := by
  unfold generalText
  dsimp only
  split_ifs with fixed
  · exact unbroken_decimalText _
  · rw [unbroken_append, exponentText, unbroken_append, unbroken_append]
    refine ⟨unbroken_decimalText _, ⟨by decide, ?_⟩, unbroken_padded _ _⟩
    split_ifs
    · decide
    · decide

/-- No printed double has a newline. -/
theorem unbroken_showDouble (double : Double) : Unbroken (showDouble double) := by
  cases double with
  | nan =>
      change Unbroken "nan"
      decide
  | infinity negative =>
      cases negative with
      | false =>
          change Unbroken "inf"
          decide
      | true =>
          change Unbroken "-inf"
          decide
  | finite number => exact unbroken_generalText number.value

/-! ## Replies that are lines -/

theorem isLine_append_iff (text : String) : IsLine (text ++ "\n") ↔ Unbroken text := by
  constructor
  · rintro ⟨other, unbroken, same⟩
    have letters := congrArg String.toList same
    rw [String.toList_append, String.toList_append] at letters
    have equal := String.toList_inj.mp (List.append_cancel_right letters)
    exact equal ▸ unbroken
  · intro unbroken
    exact ⟨text, unbroken, rfl⟩

theorem isLine_errorReply_iff (what : String) : IsLine (errorReply what) ↔ Unbroken what := by
  have start : Unbroken "ERROR " := by decide
  rw [errorReply, isLine_append_iff, unbroken_append, and_iff_right start]

theorem isLine_balanceReply (accId : ℤ) (bal : Double) :
    IsLine (balanceReply showDouble accId (.ok bal)) := by
  rw [balanceReply, isLine_append_iff, unbroken_append, unbroken_append, unbroken_append]
  exact ⟨⟨⟨by decide, unbroken_intText accId⟩, by decide⟩, unbroken_showDouble bal⟩

/-- The texts that the handler composes itself. -/
theorem isLine_fixed : IsLine "PONG\n" ∧ IsLine "OK\n" ∧ IsLine "ERROR Invalid BALANCE arguments\n" ∧
    IsLine "ERROR Invalid TRANSFER arguments\n" ∧ IsLine "ERROR Unknown command\n" :=
  ⟨⟨"PONG", by decide, rfl⟩, ⟨"OK", by decide, rfl⟩,
    ⟨"ERROR Invalid BALANCE arguments", by decide, rfl⟩,
    ⟨"ERROR Invalid TRANSFER arguments", by decide, rfl⟩, ⟨"ERROR Unknown command", by decide, rfl⟩⟩

section Handlers

variable {Bank : Type} {getBalance : ℤ -> Bank -> Except String Double × Bank}
  {transfer : ℤ -> ℤ -> Double -> Bank -> Except String Unit × Bank}

/-- A reply is one line exactly if no exception breaks it. -/
theorem isLine_respond_iff (command : Command Double) (bank : Bank) :
    IsLine (respond (handlerServices getBalance transfer) command bank).1 ↔
      ThrowsUnbroken (handlerServices getBalance transfer) bank command := by
  rcases isLine_fixed with ⟨pong, ok, invalidBalance, invalidTransfer, unknown⟩
  cases command with
  | ping => exact iff_of_true pong trivial
  | balance accId =>
      have reply : (respond (handlerServices getBalance transfer) (.balance accId) bank).1 =
        balanceReply showDouble accId (getBalance accId bank).1 := rfl
      have throws : ThrowsUnbroken (handlerServices getBalance transfer) bank (.balance accId) ↔
        forall what, (getBalance accId bank).1 = .error what -> Unbroken what := Iff.rfl
      rw [reply, throws]
      cases (getBalance accId bank).1 with
      | ok bal =>
          refine iff_of_true (isLine_balanceReply accId bal) ?_
          intro what impossible
          cases impossible
      | error what => simpa [balanceReply] using isLine_errorReply_iff what
  | invalidBalance => exact iff_of_true invalidBalance trivial
  | transfer fromId toId amount =>
      have reply : (respond (handlerServices getBalance transfer) (.transfer fromId toId amount) bank).1 =
        transferReply (transfer fromId toId amount bank).1 := rfl
      have throws : ThrowsUnbroken (handlerServices getBalance transfer) bank
          (.transfer fromId toId amount) ↔
        forall what, (transfer fromId toId amount bank).1 = .error what -> Unbroken what := Iff.rfl
      rw [reply, throws]
      cases (transfer fromId toId amount bank).1 with
      | ok _ =>
          refine iff_of_true ok ?_
          intro what impossible
          cases impossible
      | error what => simpa [transferReply] using isLine_errorReply_iff what
  | invalidTransfer => exact iff_of_true invalidTransfer trivial
  | unknown => exact iff_of_true unknown trivial

theorem isLine_respondAll_iff (commands : List (Command Double)) (bank : Bank) :
    (forall reply, reply ∈ (respondAll (handlerServices getBalance transfer) commands bank).1 ->
        IsLine reply) ↔
      Along (carryOut (handlerServices getBalance transfer))
        (ThrowsUnbroken (handlerServices getBalance transfer)) bank commands := by
  induction commands generalizing bank with
  | nil =>
      refine iff_of_true ?_ trivial
      intro reply impossible
      cases impossible
  | cons command commands inductionHypothesis =>
      rw [respondAll]
      simp only [List.forall_mem_cons, isLine_respond_iff, inductionHypothesis]
      rfl

/-- Pieces with text are one command each. -/
theorem length_executed {pieces : List (List Byte)}
    (filled : forall piece, piece ∈ pieces -> lineOf piece ≠ []) :
    (executed strtod pieces).length = pieces.length := by
  induction pieces with
  | nil => rfl
  | cons piece pieces inductionHypothesis =>
      have command : receive strtod piece = some (parseCommand strtod (lineOf piece)) :=
        if_neg (filled piece List.mem_cons_self)
      rw [executed] at inductionHypothesis ⊢
      rw [List.filterMap_cons_some command, List.length_cons, List.length_cons,
        inductionHypothesis fun later member => filled later (List.mem_cons_of_mem _ member)]

theorem length_respondAll (services : Services Bank Double) (commands : List (Command Double))
    (bank : Bank) : (respondAll services commands bank).1.length = commands.length := by
  induction commands generalizing bank with
  | nil => rfl
  | cons command commands inductionHypothesis =>
      rw [respondAll]
      simp only [List.length_cons, inductionHypothesis]

/-! ## The pairing -/

theorem splitLines_line {text : List Char} (unbroken : '\n' ∉ text) (current rest : List Char) :
    splitLines current (text ++ '\n' :: rest) = (current ++ text) :: splitLines [] rest := by
  induction text generalizing current with
  | nil => rw [List.nil_append, splitLines, if_pos rfl, List.append_nil]
  | cons character text inductionHypothesis =>
      have differs : character ≠ '\n' := by
        rintro rfl
        exact unbroken List.mem_cons_self
      rw [List.cons_append, splitLines, if_neg differs,
        inductionHypothesis fun member => unbroken (List.mem_cons_of_mem _ member),
        List.append_assoc, List.singleton_append]

/-- Lines one after another are split where they end. -/
theorem splitLines_replies {replies : List String}
    (lines : forall reply, reply ∈ replies -> IsLine reply) :
    splitLines [] (replies.flatMap String.toList) = replies.map fun reply => reply.toList.dropLast := by
  induction replies with
  | nil => rfl
  | cons reply replies inductionHypothesis =>
      rcases lines reply List.mem_cons_self with ⟨text, unbroken, rfl⟩
      have newline : "\n".toList = ['\n'] := rfl
      rw [List.flatMap_cons, List.map_cons, String.toList_append, newline, List.append_assoc,
        List.singleton_append, splitLines_line unbroken, List.nil_append, List.dropLast_concat,
        inductionHypothesis fun later member => lines later (List.mem_cons_of_mem _ member)]

/-- Replies can be paired with the lines exactly as long as no exception text
has a newline. -/
theorem repliesPairUp_iff (getBalance : ℤ -> Bank -> Except String Double × Bank)
    (transfer : ℤ -> ℤ -> Double -> Bank -> Except String Unit × Bank) (bank : Bank)
    {pieces : List (List Byte)} (filled : forall piece, piece ∈ pieces -> lineOf piece ≠ []) :
    RepliesPairUp (handlerServices getBalance transfer) pieces bank ↔
      Along (carryOut (handlerServices getBalance transfer))
        (ThrowsUnbroken (handlerServices getBalance transfer)) bank (executed strtod pieces) := by
  rw [← isLine_respondAll_iff, ← handleClient_eq]
  constructor
  · intro pairUp
    exact pairUp.single
  · intro lines
    refine ⟨?_, lines, splitLines_replies lines⟩
    rw [handleClient_eq, length_respondAll, length_executed filled]

end Handlers

/-- libpqxx with the full error text of the server: the message, and where it
was raised. -/
def verboseDriver : Driver Double where
  parameter := Double.parameter
  readBalance := Money.toDouble
  what problem := numericDriver.what problem ++
    "CONTEXT:  PL/pgSQL function transfermoney(integer,integer,numeric,text) line 40 at RAISE\n"
  whatNull := numericDriver.whatNull

/-- The services on a database that answers. -/
def verboseServices : Services Database Double :=
  bankServices verboseDriver showDouble (dependable fun _ => none) ⟨some 1, none⟩

theorem repliesPairUp_iff_uncovered :
    RepliesPairUp (handlerServices verboseServices.getBalance verboseServices.transfer)
        [ascii "TRANSFER 1 2 30\n", ascii "BALANCE 2\n"] (twoAccounts .zero .zero) ↔
      Along (carryOut (handlerServices verboseServices.getBalance verboseServices.transfer))
        (ThrowsUnbroken (handlerServices verboseServices.getBalance verboseServices.transfer))
        (twoAccounts .zero .zero)
        (executed strtod [ascii "TRANSFER 1 2 30\n", ascii "BALANCE 2\n"]) :=
  repliesPairUp_iff _ _ _ (by decide)

/-- A transfer that is not covered is answered with three newlines, and the
client finds the balance two lines too late. -/
theorem not_repliesPairUp_of_every_outcome :
    ¬ forall (getBalance : ℤ -> Database -> Except String Double × Database)
      (transfer : ℤ -> ℤ -> Double -> Database -> Except String Unit × Database) (bank : Database)
      (pieces : List (List Byte)), (forall piece, piece ∈ pieces -> lineOf piece ≠ []) ->
        RepliesPairUp (handlerServices getBalance transfer) pieces bank := by
  intro always
  have pairUp := always verboseServices.getBalance verboseServices.transfer (twoAccounts .zero .zero)
    [ascii "TRANSFER 1 2 30\n", ascii "BALANCE 2\n"] (by decide)
  have lines := congrArg List.length pairUp.received
  exact absurd lines (by decide +kernel)

end CoreBank
