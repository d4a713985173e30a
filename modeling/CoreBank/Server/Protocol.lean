import Mathlib.Algebra.Group.Int.Defs
import Mathlib.Data.List.DropRight
import Mathlib.Data.List.TakeWhile

namespace CoreBank

/-!
# One command and its reply

A piece of bytes that `recv` has delivered becomes a line, the line is read
through an `istringstream`, and the command found there is carried out by the
services.  The extraction operators take the longest prefix of the right shape
and fail on an empty one, on an `int` out of range and on a number that
`strtod` does not read to its end; what follows the arguments is never looked
at.

The type of `double`, `strtod` and the output of a `double` are parameters.
-/

abbrev Byte : Type :=
  UInt8

def ascii (text : String) : List Byte :=
  text.toList.map fun character => UInt8.ofNat character.toNat

def lineFeed : Byte := 10

def carriageReturn : Byte := 13

/-- A byte that ends a line. -/
def isLineEnd (byte : Byte) : Bool :=
  byte = lineFeed || byte = carriageReturn

/-- `isspace` in the classic locale. -/
def isSpace (byte : Byte) : Bool :=
  byte = 32 || (9 ≤ byte && byte ≤ 13)

def isDigit (byte : Byte) : Bool :=
  48 ≤ byte && byte ≤ 57

def isSign (byte : Byte) : Bool :=
  byte = 43 || byte = 45

/-! ## Extraction -/

/-- What is left in a stream that has not failed. -/
abbrev Extraction (A : Type) : Type :=
  StateT (List Byte) Option A

/-- The sentry of a formatted extraction: skip white space, and fail at the end
of the stream. -/
def skipSpace : Extraction Unit := fun stream =>
  match stream.dropWhile isSpace with
  | [] => none
  | rest => some ((), rest)

/-- `>>` into a `std::string`. -/
def readWord : Extraction (List Byte) := do
  skipSpace
  fun stream => some (stream.takeWhile fun byte => !isSpace byte,
    stream.dropWhile fun byte => !isSpace byte)

def digitValue (byte : Byte) : ℕ :=
  byte.toNat - 48

def digitsValue (digits : List Byte) : ℕ :=
  digits.foldl (fun value digit => 10 * value + digitValue digit) 0

/-- An optional sign in front of a number. -/
def readSign : Extraction (List Byte) := fun stream =>
  match stream with
  | byte :: rest => if isSign byte then some ([byte], rest) else some ([], stream)
  | [] => some ([], [])

/-- `>>` into an `int`. -/
def readInt : Extraction ℤ := do
  skipSpace
  let sign <- readSign
  let digits <- fun stream => some (stream.takeWhile isDigit, stream.dropWhile isDigit)
  let value : ℤ := if sign = [45] then -digitsValue digits else digitsValue digits
  if digits = [] ∨ value < -2 ^ 31 ∨ 2 ^ 31 ≤ value then failure
  pure value

/-- The longest text that can belong to a `double`, behind sign and leading
zeros, with the rest of the stream.  The flags say that a digit, the decimal
point and the exponent have been found, and that the last byte was the `e`. -/
def floatText (mantissa point exponent afterExponent : Bool) :
    List Byte -> List Byte × List Byte
  | [] => ([], [])
  | byte :: rest =>
      if afterExponent && isSign byte then
        let (text, left) := floatText mantissa point exponent false rest
        (byte :: text, left)
      else if isDigit byte then
        let (text, left) := floatText true point exponent false rest
        (byte :: text, left)
      else if byte = 46 && !point && !exponent then
        let (text, left) := floatText mantissa true exponent false rest
        (46 :: text, left)
      else if (byte = 101 || byte = 69) && !exponent && mantissa then
        let (text, left) := floatText mantissa point true true rest
        (101 :: text, left)
      else ([], byte :: rest)

/-- Leading zeros count as one digit. -/
def readZeros : Extraction (List Byte) := fun stream =>
  some (if stream.head? = some 48 then [48] else [], stream.dropWhile fun byte => byte = 48)

/-- `>>` into a `double`. -/
def readDouble {Double : Type} (strtod : List Byte -> Option Double) : Extraction Double := do
  skipSpace
  let sign <- readSign
  let zeros <- readZeros
  let text <- fun stream => some (floatText (zeros ≠ []) false false false stream)
  StateT.lift (strtod (sign ++ zeros ++ text))

/-! ## Commands -/

inductive Command (Double : Type) where
  | ping
  | balance (accId : ℤ)
  | invalidBalance
  | transfer (fromId toId : ℤ) (amount : Double)
  | invalidTransfer
  | unknown
  deriving DecidableEq, Repr

section Lines

variable {Double : Type} (strtod : List Byte -> Option Double)

def transferArguments : Extraction (ℤ × ℤ × Double) := do
  let fromId <- readInt
  let toId <- readInt
  let amount <- readDouble strtod
  pure (fromId, toId, amount)

/-- The first word of a line; it stays empty when there is none. -/
def commandWord (line : List Byte) : List Byte × List Byte :=
  (readWord line).getD ([], [])

def parseCommand (line : List Byte) : Command Double :=
  let (cmd, arguments) := commandWord line
  if cmd = ascii "PING" then .ping
  else if cmd = ascii "BALANCE" then
    match readInt arguments with
    | some (accId, _) => .balance accId
    | none => .invalidBalance
  else if cmd = ascii "TRANSFER" then
    match transferArguments strtod arguments with
    | some ((fromId, toId, amount), _) => .transfer fromId toId amount
    | none => .invalidTransfer
  else .unknown

/-- The line in a piece: all line ends at its end are removed. -/
def lineOf (piece : List Byte) : List Byte :=
  piece.rdropWhile isLineEnd

/-- What `handleClient` makes of one piece; an empty line is ignored. -/
def receive (piece : List Byte) : Option (Command Double) :=
  if lineOf piece = [] then none else some (parseCommand strtod (lineOf piece))

end Lines

/-! ## Replies -/

/-- The services as a handler sees them: an exception shows its `what()`. -/
structure Services (Bank Double : Type) where
  getBalance : ℤ -> Bank -> Except String Double × Bank
  transfer : ℤ -> ℤ -> Double -> Bank -> Except String Unit × Bank
  showDouble : Double -> String

variable {Bank Double : Type}

/-- `ERROR` with the text of an exception, as both handlers write it. -/
def errorReply (what : String) : String :=
  "ERROR " ++ what ++ "\n"

def balanceReply (showDouble : Double -> String) (accId : ℤ) : Except String Double -> String
  | .ok bal => "BALANCE " ++ toString accId ++ " " ++ showDouble bal ++ "\n"
  | .error what => errorReply what

def transferReply : Except String Unit -> String
  | .ok () => "OK\n"
  | .error what => errorReply what

/-- A reply that starts with `ERROR`. -/
def IsError (reply : String) : Prop :=
  "ERROR".toList <+: reply.toList

instance (reply : String) : Decidable (IsError reply) :=
  inferInstanceAs (Decidable (_ <+: _))

theorem isError_errorReply (what : String) : IsError (errorReply what) := by
  refine ⟨(" " ++ what ++ "\n").toList, ?_⟩
  rw [errorReply, ← String.toList_append]
  rfl

theorem not_isError_ok : ¬ IsError "OK\n" := by
  decide

theorem errorReply_ne_ok (what : String) : errorReply what ≠ "OK\n" := by
  intro same
  exact not_isError_ok (same ▸ isError_errorReply what)

/-- Carry out one command: the reply and what has become of the bank. -/
def respond (services : Services Bank Double) (command : Command Double) (bank : Bank) :
    String × Bank :=
  match command with
  | .ping => ("PONG\n", bank)
  | .balance accId =>
      let (bal, after) := services.getBalance accId bank
      (balanceReply services.showDouble accId bal, after)
  | .invalidBalance => ("ERROR Invalid BALANCE arguments\n", bank)
  | .transfer fromId toId amount =>
      let (outcome, after) := services.transfer fromId toId amount bank
      (transferReply outcome, after)
  | .invalidTransfer => ("ERROR Invalid TRANSFER arguments\n", bank)
  | .unknown => ("ERROR Unknown command\n", bank)

theorem transferReply_eq_ok_iff (outcome : Except String Unit) :
    transferReply outcome = "OK\n" ↔ outcome = .ok () := by
  cases outcome with
  | ok _ => exact ⟨fun _ => rfl, fun _ => rfl⟩
  | error what =>
      constructor
      · intro same
        exact False.elim (errorReply_ne_ok what same)
      · intro impossible
        cases impossible

theorem isError_transferReply_iff (outcome : Except String Unit) :
    IsError (transferReply outcome) ↔ outcome ≠ .ok () := by
  cases outcome with
  | ok _ =>
      constructor
      · intro starts
        exact False.elim (not_isError_ok starts)
      · intro differs
        exact False.elim (differs rfl)
  | error what =>
      constructor
      · intro _ impossible
        cases impossible
      · intro _
        exact isError_errorReply what

/-- A balance starts with another letter than `OK`. -/
theorem balanceReply_ne_ok (showDouble : Double -> String) (accId : ℤ) (bal : Except String Double) :
    balanceReply showDouble accId bal ≠ "OK\n" := by
  intro same
  cases bal with
  | error what => exact errorReply_ne_ok what same
  | ok value =>
      have letters := congrArg (fun reply => reply.toList.head?) same
      simp [balanceReply, String.toList_append] at letters

/-- Only a transfer that has returned is answered with `OK`. -/
theorem respond_eq_ok_iff (services : Services Bank Double) (command : Command Double) (bank : Bank) :
    (respond services command bank).1 = "OK\n" ↔
      Exists fun fromId => Exists fun toId => Exists fun amount =>
        command = .transfer fromId toId amount ∧
          (services.transfer fromId toId amount bank).1 = .ok () := by
  constructor
  · intro same
    cases command with
    | ping => exact absurd same (by simp only [respond]; decide)
    | balance accId => exact False.elim (balanceReply_ne_ok _ _ _ same)
    | invalidBalance => exact absurd same (by simp only [respond]; decide)
    | transfer fromId toId amount =>
        exact ⟨fromId, toId, amount, rfl, (transferReply_eq_ok_iff _).mp same⟩
    | invalidTransfer => exact absurd same (by simp only [respond]; decide)
    | unknown => exact absurd same (by simp only [respond]; decide)
  · rintro ⟨fromId, toId, amount, rfl, returned⟩
    exact (transferReply_eq_ok_iff _).mpr returned

/-- Carry out commands one after another. -/
def respondAll (services : Services Bank Double) :
    List (Command Double) -> Bank -> List String × Bank
  | [], bank => ([], bank)
  | command :: commands, bank =>
      let (reply, after) := respond services command bank
      let (replies, final) := respondAll services commands after
      (reply :: replies, final)

/-- The loop of `handleClient` over the pieces that `recv` delivers before the
connection ends. -/
def handleClient (services : Services Bank Double) (strtod : List Byte -> Option Double) :
    List (List Byte) -> Bank -> List String × Bank
  | [], bank => ([], bank)
  | piece :: pieces, bank =>
      match receive strtod piece with
      | none => handleClient services strtod pieces bank
      | some command =>
          let (reply, after) := respond services command bank
          let (replies, final) := handleClient services strtod pieces after
          (reply :: replies, final)

/-- The commands in the pieces, in order. -/
def executed (strtod : List Byte -> Option Double) (pieces : List (List Byte)) :
    List (Command Double) :=
  pieces.filterMap (receive strtod)

/-- The replies depend on the pieces through the commands alone. -/
theorem handleClient_eq (services : Services Bank Double) (strtod : List Byte -> Option Double)
    (pieces : List (List Byte)) (bank : Bank) :
    handleClient services strtod pieces bank = respondAll services (executed strtod pieces) bank := by
  induction pieces generalizing bank with
  | nil => rfl
  | cons piece pieces inductionHypothesis =>
      unfold executed
      cases received : receive strtod piece with
      | none =>
          rw [handleClient, received, List.filterMap_cons_none received]
          exact inductionHypothesis bank
      | some command =>
          rw [handleClient, received, List.filterMap_cons_some received, respondAll]
          simp only
          rw [inductionHypothesis]
          rfl

example : parseCommand some (ascii "TRANSFER 1 2.50 x") = .transfer 1 2 (ascii ".50") := by
  decide

end CoreBank
