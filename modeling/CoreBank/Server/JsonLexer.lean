import CoreBank.Foundation.CharacterBytes
import CoreBank.Foundation.StatePrograms
import CoreBank.Server.Doubles

namespace CoreBank

open Foundation

/-!
# The lexer of the JSON library

The configuration file is read byte by byte, with one byte that can be put
back.  A lexer keeps count of the bytes and the lines it has read, and of the
raw text since the last string or number began, for its error messages.  The
decimal point is that of the C locale.
-/

inductive TokenType where
  | uninitialized
  | literalTrue
  | literalFalse
  | literalNull
  | valueString
  | valueUnsigned
  | valueInteger
  | valueFloat
  | beginArray
  | beginObject
  | endArray
  | endObject
  | nameSeparator
  | valueSeparator
  | parseError
  | endOfInput
  | literalOrValue
  deriving DecidableEq, Repr

/-- `token_type_name`. -/
def TokenType.name : TokenType -> String
  | uninitialized => "<uninitialized>"
  | literalTrue => "true literal"
  | literalFalse => "false literal"
  | literalNull => "null literal"
  | valueString => "string literal"
  | valueUnsigned => "number literal"
  | valueInteger => "number literal"
  | valueFloat => "number literal"
  | beginArray => "'['"
  | beginObject => "'\x7b'"
  | endArray => "']'"
  | endObject => "'\x7d'"
  | nameSeparator => "':'"
  | valueSeparator => "','"
  | parseError => "<parse error>"
  | endOfInput => "end of input"
  | literalOrValue => "'[', '\x7b', or a literal"

/-- `position_t`. -/
structure Position where
  charsReadTotal : ℕ
  charsReadCurrentLine : ℕ
  linesRead : ℕ
  deriving DecidableEq, Repr

namespace Position

def initial : Position :=
  ⟨0, 0, 0⟩

/-- After another byte, or the end of the input. -/
def reading (position : Position) (current : Option Byte) : Position :=
  if current = some lineFeed then
    ⟨position.charsReadTotal + 1, 0, position.linesRead + 1⟩
  else ⟨position.charsReadTotal + 1, position.charsReadCurrentLine + 1, position.linesRead⟩

/-- Back by one; how long the line before a newline was is not known any more. -/
def unreading (position : Position) : Position :=
  if position.charsReadCurrentLine = 0 then
    ⟨position.charsReadTotal - 1, 0, position.linesRead - 1⟩
  else ⟨position.charsReadTotal - 1, position.charsReadCurrentLine - 1, position.linesRead⟩

end Position

/-- The lexer.  The input is what the adapter has not handed over yet, and no
current byte stands for the end of the file.  A floating-point value that is not
finite is none. -/
structure Lexer where
  input : List Byte
  current : Option Byte
  nextUnget : Bool
  position : Position
  tokenString : List Byte
  tokenBuffer : List Byte
  errorMessage : String
  valueInteger : ℤ
  valueUnsigned : ℕ
  valueFloat : Option FiniteDouble

abbrev Lexing (A : Type) : Type :=
  StateM Lexer A

namespace Lexer

def initial (input : List Byte) : Lexer where
  input := input
  current := none
  nextUnget := false
  position := Position.initial
  tokenString := []
  tokenBuffer := []
  errorMessage := ""
  valueInteger := 0
  valueUnsigned := 0
  valueFloat := FiniteDouble.nearest 0

/-- What `get` will read from here on. -/
def unread (lexer : Lexer) : List Byte :=
  if lexer.nextUnget then lexer.current.toList ++ lexer.input else lexer.input

/-! ## Input -/

def get : Lexing (Option Byte) := fun lexer =>
  let current := if lexer.nextUnget then lexer.current else lexer.input.head?
  (current, { lexer with
    input := if lexer.nextUnget then lexer.input else lexer.input.tail
    current := current
    nextUnget := false
    position := lexer.position.reading current
    tokenString := lexer.tokenString ++ current.toList })

def unget : Lexing Unit :=
  modify fun lexer => { lexer with
    nextUnget := true
    position := lexer.position.unreading
    tokenString := if lexer.current.isSome then lexer.tokenString.dropLast else lexer.tokenString }

/-- The current byte begins the token. -/
def reset : Lexing Unit :=
  modify fun lexer => { lexer with tokenBuffer := [], tokenString := lexer.current.toList }

def add (byte : Byte) : Lexing Unit :=
  modify fun lexer => { lexer with tokenBuffer := lexer.tokenBuffer ++ [byte] }

/-- A parse error with its message. -/
def fail (message : String) : Lexing TokenType := do
  modify fun lexer => { lexer with errorMessage := message }
  pure .parseError

/-- The next bytes are these; the first one that is not ends the reading. -/
def nextAre : List Byte -> Lexing Bool
  | [] => pure true
  | byte :: bytes => do
      let current <- get
      if current = some byte then nextAre bytes else pure false

/-! ## Strings -/

/-- The value of a hexadecimal digit. -/
def hexValue : Option Byte -> Option ℕ
  | none => none
  | some byte =>
      if 0x30 ≤ byte ∧ byte ≤ 0x39 then some (byte.toNat - 0x30)
      else if 0x41 ≤ byte ∧ byte ≤ 0x46 then some (byte.toNat - 0x37)
      else if 0x61 ≤ byte ∧ byte ≤ 0x66 then some (byte.toNat - 0x57)
      else none

/-- One digit for each of the factors. -/
def addDigits (codepoint : ℕ) : List ℕ -> Lexing (Option ℕ)
  | [] => pure (some codepoint)
  | factor :: factors => do
      match hexValue (<- get) with
      | some digit => addDigits (codepoint + digit <<< factor) factors
      | none => pure none

/-- None stands for -1. -/
def getCodepoint : Lexing (Option ℕ) :=
  addDigits 0 [12, 8, 4, 0]

def bytesInRange : List (Byte × Byte) -> Lexing Bool
  | [] => pure true
  | (low, high) :: ranges => do
      match <- get with
      | none => pure false
      | some byte =>
          if low ≤ byte ∧ byte ≤ high then do
            add byte
            bytesInRange ranges
          else pure false

def nextByteInRange (current : Byte) (ranges : List (Byte × Byte)) : Lexing Bool := do
  add current
  bytesInRange ranges

/-- The bytes that a codepoint is translated into. -/
def codepointBytes (codepoint : ℕ) : List Byte :=
  if codepoint < 0x80 then [UInt8.ofNat codepoint]
  else if codepoint ≤ 0x7FF then
    [UInt8.ofNat (0xC0 ||| codepoint >>> 6), UInt8.ofNat (0x80 ||| codepoint &&& 0x3F)]
  else if codepoint ≤ 0xFFFF then
    [UInt8.ofNat (0xE0 ||| codepoint >>> 12), UInt8.ofNat (0x80 ||| codepoint >>> 6 &&& 0x3F),
      UInt8.ofNat (0x80 ||| codepoint &&& 0x3F)]
  else
    [UInt8.ofNat (0xF0 ||| codepoint >>> 18), UInt8.ofNat (0x80 ||| codepoint >>> 12 &&& 0x3F),
      UInt8.ofNat (0x80 ||| codepoint >>> 6 &&& 0x3F), UInt8.ofNat (0x80 ||| codepoint &&& 0x3F)]

def addAll (bytes : List Byte) : Lexing Unit :=
  modify fun lexer => { lexer with tokenBuffer := lexer.tokenBuffer ++ bytes }

/-- What a letter behind a backslash stands for, except `u`. -/
def escapes : List (Byte × Byte) :=
  [(0x22, 0x22), (0x5C, 0x5C), (0x2F, 0x2F), (0x62, 0x08), (0x66, 0x0C), (0x6E, 0x0A),
    (0x72, 0x0D), (0x74, 0x09)]

/-- The name of a control character, and its short escape. -/
def controlNames : List (String × String) :=
  [("NUL", ""), ("SOH", ""), ("STX", ""), ("ETX", ""), ("EOT", ""), ("ENQ", ""), ("ACK", ""),
    ("BEL", ""), ("BS", " or \\b"), ("HT", " or \\t"), ("LF", " or \\n"), ("VT", ""),
    ("FF", " or \\f"), ("CR", " or \\r"), ("SO", ""), ("SI", ""), ("DLE", ""), ("DC1", ""),
    ("DC2", ""), ("DC3", ""), ("DC4", ""), ("NAK", ""), ("SYN", ""), ("ETB", ""), ("CAN", ""),
    ("EM", ""), ("SUB", ""), ("ESC", ""), ("FS", ""), ("GS", ""), ("RS", ""), ("US", "")]

/-- Two hexadecimal digits. -/
def hexText (n : ℕ) : String :=
  String.ofList [(n / 16).digitChar.toUpper, (n % 16).digitChar.toUpper]

def controlMessage (byte : Byte) : String :=
  let (name, short) := controlNames.getD byte.toNat ("", "")
  "invalid string: control character U+00" ++ hexText byte.toNat ++ " (" ++ name ++
    ") must be escaped to \\u00" ++ hexText byte.toNat ++ short

def illFormed : String :=
  "invalid string: ill-formed UTF-8 byte"

def loneHighSurrogate : String :=
  "invalid string: surrogate U+D800..U+DBFF must be followed by U+DC00..U+DFFF"

def loneLowSurrogate : String :=
  "invalid string: surrogate U+DC00..U+DFFF must follow U+D800..U+DBFF"

def noHexDigits : String :=
  "invalid string: '\\u' must be followed by 4 hex digits"

/-- The string goes on. -/
def goOn : Lexing (Unit ⊕ TokenType) :=
  pure (.inl ())

/-- The scan ends with a parse error. -/
def failed {Carried : Type} (message : String) : Lexing (Carried ⊕ TokenType) := do
  let type <- fail message
  pure (.inr type)

/-- Behind a high surrogate. -/
def scanLowSurrogate (codepoint1 : ℕ) : Lexing (Unit ⊕ TokenType) := do
  if <- nextAre [0x5C, 0x75] then
    match <- getCodepoint with
    | none => failed noHexDigits
    | some codepoint2 =>
        if 0xDC00 ≤ codepoint2 ∧ codepoint2 ≤ 0xDFFF then do
          addAll (codepointBytes ((codepoint1 <<< 10) + codepoint2 - 0x35FDC00))
          goOn
        else failed loneHighSurrogate
  else failed loneHighSurrogate

/-- Behind `\u`. -/
def scanUnicode : Lexing (Unit ⊕ TokenType) := do
  match <- getCodepoint with
  | none => failed noHexDigits
  | some codepoint1 =>
      if 0xD800 ≤ codepoint1 ∧ codepoint1 ≤ 0xDBFF then scanLowSurrogate codepoint1
      else if 0xDC00 ≤ codepoint1 ∧ codepoint1 ≤ 0xDFFF then failed loneLowSurrogate
      else do
        addAll (codepointBytes codepoint1)
        goOn

/-- Behind a backslash. -/
def scanEscape : Lexing (Unit ⊕ TokenType) := do
  let current <- get
  match current.bind fun byte => escapes.lookup byte with
  | some meant => do
      add meant
      goOn
  | none =>
      if current = some 0x75 then scanUnicode
      else failed "invalid string: forbidden character after backslash"

/-- One round of the loop of `scan_string`. -/
def scanStringRound (_ : Unit) : Lexing (Unit ⊕ TokenType) := do
  match <- get with
  | none => failed "invalid string: missing closing quote"
  | some current =>
      if current = 0x22 then pure (.inr .valueString)
      else if current = 0x5C then scanEscape
      else if current ≤ 0x1F then failed (controlMessage current)
      else if current ≤ 0x7F then do
        add current
        goOn
      else
        match followingRanges current with
        | none => failed illFormed
        | some ranges => do
            if <- nextByteInRange current ranges then goOn else failed illFormed

def scanString : Lexing TokenType := do
  reset
  fun lexer => loop (fail "") scanStringRound (lexer.unread.length + 1) () lexer

/-! ## Numbers -/

/-- The states of the scan of a number, after the byte that leads to them. -/
inductive NumberState where
  | minus
  | zero
  | any1
  | decimal1
  | decimal2
  | exponent
  | sign
  | any2
  deriving DecidableEq, Repr

namespace NumberState

/-- The type of the number once the state is reached. -/
def numberType (type : TokenType) : NumberState -> TokenType
  | minus => .valueInteger
  | decimal1 => .valueFloat
  | exponent => .valueFloat
  | _ => type

/-- The state after the next byte; none when the number is done. -/
def next (current : Option Byte) : NumberState -> Except String (Option NumberState)
  | minus =>
      if current = some 0x30 then .ok (some zero)
      else if current.any isDigit then .ok (some any1)
      else .error "invalid number; expected digit after '-'"
  | zero =>
      if current = some 0x2E then .ok (some decimal1)
      else if current = some 0x65 ∨ current = some 0x45 then .ok (some exponent)
      else .ok none
  | any1 =>
      if current.any isDigit then .ok (some any1)
      else if current = some 0x2E then .ok (some decimal1)
      else if current = some 0x65 ∨ current = some 0x45 then .ok (some exponent)
      else .ok none
  | decimal1 =>
      if current.any isDigit then .ok (some decimal2)
      else .error "invalid number; expected digit after '.'"
  | decimal2 =>
      if current.any isDigit then .ok (some decimal2)
      else if current = some 0x65 ∨ current = some 0x45 then .ok (some exponent)
      else .ok none
  | exponent =>
      if current = some 0x2B ∨ current = some 0x2D then .ok (some sign)
      else if current.any isDigit then .ok (some any2)
      else .error "invalid number; expected '+', '-', or digit after exponent"
  | sign =>
      if current.any isDigit then .ok (some any2)
      else .error "invalid number; expected digit after exponent sign"
  | any2 =>
      if current.any isDigit then .ok (some any2)
      else .ok none

end NumberState

/-- `strtoull` of digits, unless it reports a range error. -/
def strtoull (text : List Byte) : Option ℕ :=
  (naturalValue text).filter fun value => value < 2 ^ 64

/-- `strtoll` of a minus and digits, unless it reports a range error. -/
def strtoll (text : List Byte) : Option ℤ :=
  (integerValue text).filter fun value => -2 ^ 63 ≤ value ∧ value < 2 ^ 63

/-- `strtof` of a number into a double; none for an overflow. -/
def strtof (text : List Byte) : Option FiniteDouble :=
  (decimalValue text).bind FiniteDouble.nearest

def convertFloat : Lexing TokenType := fun lexer =>
  (.valueFloat, { lexer with valueFloat := strtof lexer.tokenBuffer })

/-- The conversion of the buffer: an integer if it is one that fits. -/
def convert : TokenType -> Lexing TokenType
  | .valueUnsigned => fun lexer =>
      match strtoull lexer.tokenBuffer with
      | some value => (.valueUnsigned, { lexer with valueUnsigned := value })
      | none => convertFloat lexer
  | .valueInteger => fun lexer =>
      match strtoll lexer.tokenBuffer with
      | some value => (.valueInteger, { lexer with valueInteger := value })
      | none => convertFloat lexer
  | _ => convertFloat

/-- One round of `scan_number`: the state, and the type so far. -/
def scanNumberRound (carried : NumberState × TokenType) :
    Lexing ((NumberState × TokenType) ⊕ TokenType) := do
  let current <- get
  match carried.1.next current with
  | .error message => failed message
  | .ok none => do
      unget
      let type <- convert carried.2
      pure (.inr type)
  | .ok (some next) => do
      addAll current.toList
      pure (.inl (next, next.numberType carried.2))

def scanNumberFrom (state : NumberState) : Lexing TokenType := fun lexer =>
  loop (fail "") scanNumberRound (lexer.unread.length + 1) (state, state.numberType .valueUnsigned) lexer

def scanNumber (current : Byte) : Lexing TokenType := do
  reset
  add current
  if current = 0x2D then scanNumberFrom .minus
  else if current = 0x30 then scanNumberFrom .zero
  else scanNumberFrom .any1

/-! ## Tokens -/

/-- The first byte of the literal is the current one. -/
def scanLiteral (rest : List Byte) (returnType : TokenType) : Lexing TokenType := do
  if <- nextAre rest then pure returnType else fail "invalid literal"

/-- Whether there is no byte order mark, or the right one has been skipped. -/
def skipBom : Lexing Bool := do
  if (<- get) = some 0xEF then nextAre [0xBB, 0xBF]
  else do
    unget
    pure true

def isWhitespace (byte : Byte) : Bool :=
  byte = 0x20 || byte = 0x09 || byte = 0x0A || byte = 0x0D

def skipWhitespaceRound (_ : Unit) : Lexing (Unit ⊕ Unit) := do
  if (<- get).any isWhitespace then pure (.inl ()) else pure (.inr ())

def skipWhitespace : Lexing Unit := fun lexer =>
  loop (pure ()) skipWhitespaceRound (lexer.unread.length + 1) () lexer

/-- The token that the current byte begins. -/
def scanToken : Option Byte -> Lexing TokenType
  | none => pure .endOfInput
  | some current =>
      if current = 0x5B then pure .beginArray
      else if current = 0x5D then pure .endArray
      else if current = 0x7B then pure .beginObject
      else if current = 0x7D then pure .endObject
      else if current = 0x3A then pure .nameSeparator
      else if current = 0x2C then pure .valueSeparator
      else if current = 0x74 then scanLiteral [0x72, 0x75, 0x65] .literalTrue
      else if current = 0x66 then scanLiteral [0x61, 0x6C, 0x73, 0x65] .literalFalse
      else if current = 0x6E then scanLiteral [0x75, 0x6C, 0x6C] .literalNull
      else if current = 0x22 then scanString
      else if current = 0x2D ∨ isDigit current then scanNumber current
      else if current = 0 then pure .endOfInput
      else fail "invalid literal"

/-- `scan` behind the byte order mark; comments are not ignored. -/
def scanNext : Lexing TokenType := do
  skipWhitespace
  fun lexer => scanToken lexer.current lexer

def scan : Lexing TokenType := fun lexer =>
  if lexer.position.charsReadTotal = 0 then
    (do if <- skipBom then scanNext
        else fail "invalid BOM; must be 0xEF 0xBB 0xBF if given") lexer
  else scanNext lexer

end Lexer

end CoreBank
