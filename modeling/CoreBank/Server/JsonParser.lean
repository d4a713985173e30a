import CoreBank.Server.JsonLexer
import CoreBank.Server.LoadedFields

namespace CoreBank

open Foundation

/-!
# The parser of the JSON library

The parser has no recursion: it keeps a stack of the arrays and objects that are
open and goes round a loop.  A round begins at a token that should begin a
value, or behind a value that is complete.  The value is all it wants; what
follows it in the file is not read.
-/

/-- An array or an object that is open.  An object has the members so far and
the key of the one that is being read. -/
inductive Frame where
  | array
  | object (members : List (List Byte × Json)) (key : List Byte)

structure Parser where
  lexer : Lexer
  lastToken : TokenType
  root : Json
  frames : List Frame

/-- Code that may throw an exception of the library. -/
abbrev Parsing (A : Type) : Type :=
  StateT Parser (Except String) A

/-- Where the next round begins. -/
inductive ParseStage where
  | value
  | stateEvaluation
  deriving DecidableEq, Repr

/-- `object[key] = value`. -/
def assignMember (key : List Byte) (value : Json) (members : List (List Byte × Json)) :
    List (List Byte × Json) :=
  (key, value) :: members.filter fun member => member.1 ≠ key

/-- Bytes in a message. -/
def byteText (bytes : List Byte) : String :=
  String.ofList (bytes.map fun byte => Char.ofNat byte.toNat)

/-- A byte of a token in a message: control characters are escaped. -/
def tokenByteText (byte : Byte) : String :=
  if byte ≤ 0x1F then "<U+00" ++ Lexer.hexText byte.toNat ++ ">" else byteText [byte]

/-- `get_token_string`. -/
def Lexer.tokenText (lexer : Lexer) : String :=
  String.join (lexer.tokenString.map tokenByteText)

namespace Parser

/-! ## Exceptions -/

/-- `parse_error::create`. -/
def parseErrorText (position : Position) (what : String) : String :=
  "[json.exception.parse_error.101] parse error at line " ++ toString (position.linesRead + 1) ++
    ", column " ++ toString position.charsReadCurrentLine ++ ": " ++ what

def exceptionMessage (parser : Parser) (expected : TokenType) (context : String) : String :=
  "syntax error while parsing " ++ context ++ " - " ++
    (if parser.lastToken = .parseError then
      parser.lexer.errorMessage ++ "; last read: '" ++ parser.lexer.tokenText ++ "'"
    else "unexpected " ++ parser.lastToken.name) ++
    if expected = .uninitialized then "" else "; expected " ++ expected.name

/-- A parse error at the position of the lexer. -/
def raise {A : Type} (what : Parser -> String) : Parsing A := fun parser =>
  .error (parseErrorText parser.lexer.position (what parser))

def raiseExpected {A : Type} (expected : TokenType) (context : String) : Parsing A :=
  raise fun parser => parser.exceptionMessage expected context

/-- `out_of_range::create` for a number that overflows. -/
def overflowText (lexer : Lexer) : String :=
  "[json.exception.out_of_range.406] number overflow parsing '" ++ lexer.tokenText ++ "'"

/-! ## Rounds -/

def getToken : Parsing TokenType := fun parser =>
  let (type, lexer) := Lexer.scan parser.lexer
  .ok (type, { parser with lexer := lexer, lastToken := type })

/-- A complete value goes to where it belongs: it is the root, or an element of
an array, whose elements are not kept, or the member under the key. -/
def handled (value : Json) (parser : Parser) : Parser :=
  match parser.frames with
  | [] => { parser with root := value }
  | .array :: _ => parser
  | .object members key :: outer =>
      { parser with frames := .object (assignMember key value members) key :: outer }

def handleValue (value : Json) : Parsing Unit :=
  modify (handled value)

def setFrames (frames : List Frame) : Parsing Unit :=
  modify fun parser => { parser with frames := frames }

/-- The key of a member and its separator. -/
def parseKey : Parsing (List Byte) := do
  let parser <- get
  if parser.lastToken ≠ .valueString then
    raiseExpected .valueString "object key"
  if (<- getToken) ≠ .nameSeparator then
    raiseExpected .nameSeparator "object separator"
  pure parser.lexer.tokenBuffer

variable (toInt : FiniteDouble -> Int32)

/-- A token that should begin a value; whether the value is complete with it. -/
def startValue : Parsing Bool := do
  let parser <- get
  match parser.lastToken with
  | .beginObject => do
      if (<- getToken) = .endObject then do
        handleValue (.object [])
        pure true
      else do
        let key <- parseKey
        setFrames (.object [] key :: parser.frames)
        let _ <- getToken
        pure false
  | .beginArray => do
      if (<- getToken) = .endArray then do
        handleValue .array
        pure true
      else do
        setFrames (.array :: parser.frames)
        pure false
  | .valueFloat =>
      match parser.lexer.valueFloat with
      | none => throw (overflowText parser.lexer)
      | some number => do
          handleValue (.float (toInt number))
          pure true
  | .literalFalse => do
      handleValue (.boolean false)
      pure true
  | .literalNull => do
      handleValue .null
      pure true
  | .literalTrue => do
      handleValue (.boolean true)
      pure true
  | .valueInteger => do
      handleValue (.integer parser.lexer.valueInteger)
      pure true
  | .valueString => do
      handleValue (.string parser.lexer.tokenBuffer)
      pure true
  | .valueUnsigned => do
      handleValue (.integer parser.lexer.valueUnsigned)
      pure true
  | .parseError => raiseExpected .uninitialized "value"
  | .endOfInput =>
      if parser.lexer.position.charsReadTotal = 1 then
        raise fun _ => "attempting to parse an empty input; check that your input string or stream contains the expected JSON"
      else raiseExpected .literalOrValue "value"
  | _ => raiseExpected .literalOrValue "value"

/-- Behind a complete value. -/
def evaluateState : Parsing (ParseStage ⊕ Unit) := do
  let parser <- get
  match parser.frames with
  | [] => pure (.inr ())
  | .array :: outer => do
      let type <- getToken
      if type = .valueSeparator then do
        let _ <- getToken
        pure (.inl .value)
      else if type = .endArray then do
        setFrames outer
        handleValue .array
        pure (.inl .stateEvaluation)
      else raiseExpected .endArray "array"
  | .object members _ :: outer => do
      let type <- getToken
      if type = .valueSeparator then do
        let _ <- getToken
        let key <- parseKey
        setFrames (.object members key :: outer)
        let _ <- getToken
        pure (.inl .value)
      else if type = .endObject then do
        setFrames outer
        handleValue (.object members)
        pure (.inl .stateEvaluation)
      else raiseExpected .endObject "object"

/-- One round of the loop of `sax_parse_internal`. -/
def parseRound : ParseStage -> Parsing (ParseStage ⊕ Unit)
  | .value => do
      if <- startValue toInt then evaluateState
      else pure (.inl .value)
  | .stateEvaluation => evaluateState

def saxParseInternal : Parsing Unit := fun parser =>
  loop (throw "") (parseRound toInt) (parser.lexer.unread.length + 2) .value parser

/-- The parser before its first token. -/
def initial (text : List Byte) : Parser where
  lexer := Lexer.initial text
  lastToken := .uninitialized
  root := .null
  frames := []

/-- `file >> cfg`: the constructor reads the first token. -/
def parse (text : List Byte) : Except String Json := do
  let (_, parser) <- (do
    let _ <- getToken
    saxParseInternal toInt).run (initial text)
  pure parser.root

end Parser

/-- What the stream of `loadConfig` gives: no file, or one with these bytes. -/
def ConfigFile.ofContents (toInt : FiniteDouble -> Int32) : Option (List Byte) -> ConfigFile
  | none => .missing
  | some text =>
      match Parser.parse toInt text with
      | .ok cfg => .parsed cfg
      | .error what => .malformed what

end CoreBank
