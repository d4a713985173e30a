import CoreBank.Server.JsonTexts

namespace CoreBank

open Foundation

/-!
# The positions of parse errors

A file that is not read gives a message with a position, or one that names a
number.  The position is one of the file: the line is the one of the last byte
that has been read, and the column counts the bytes in it.  The number stands in
the file, and rounds to no finite double.
-/

/-- The position of a part that has been read, the end of the file perhaps
several times.  A newline that has been put back leaves no column. -/
def Position.IsIn (position : Position) (text : List Byte) : Prop :=
  Exists fun read => Exists fun unread => Exists fun past => text = read ++ unread ∧
    (0 < past -> unread = []) ∧ position.charsReadTotal = read.length + past ∧
    position.linesRead = read.count lineFeed ∧
    (position.charsReadCurrentLine = column read + past ∨
      unread.head? = some lineFeed ∧ position.charsReadCurrentLine = 0)

variable {text : List Byte} {A B : Type}

namespace Lexer

theorem Placed.isIn {lexer : Lexer} (placed : lexer.Placed text) : lexer.position.IsIn text := by
  rcases placed with ⟨read, past, split, has⟩
  refine ⟨read, lexer.unread, past, split, has.exhausted, has.total, has.lines, ?_⟩
  rcases has.line with line | ⟨again, current, line⟩
  · exact .inl line
  · refine .inr ⟨?_, line⟩
    rw [Lexer.unread, again, current]
    rfl

theorem Placed.offers {lexer : Lexer} (placed : lexer.Placed text) : lexer.Offers lexer.unread := by
  rcases placed with ⟨_, _, _, has⟩
  exact ⟨rfl, has.ended⟩

/-! ## The token string of a number -/

variable {input rest buffer : List Byte}

/-- The token string and what has not been taken yet make up the input. -/
structure Traces (lexer : Lexer) (input : List Byte) : Prop where
  taken : lexer.nextUnget = false
  split : input = lexer.tokenString ++ lexer.input

/-- So they do with the byte that is put back. -/
def Spells (lexer : Lexer) (input : List Byte) : Prop :=
  input = lexer.tokenString ++ lexer.unread

theorem establishes_get_traces :
    Establishes (fun lexer => lexer.Traces input) get fun current lexer =>
      lexer.Traces input ∧ lexer.current = current ∧
        Exists fun earlier => lexer.tokenString = earlier ++ current.toList := by
  rintro lexer ⟨taken, split⟩
  unfold get
  rw [taken]
  refine ⟨⟨rfl, ?_⟩, rfl, _, rfl⟩
  rw [split, List.append_assoc]
  cases lexer.input with
  | nil => rfl
  | cons => rfl

theorem establishes_unget_spells {current : Option Byte} :
    Establishes (fun lexer => lexer.Traces input ∧ lexer.current = current ∧
        Exists fun earlier => lexer.tokenString = earlier ++ current.toList) unget
      fun _ lexer => lexer.Spells input := by
  rintro lexer ⟨⟨_, split⟩, rfl, earlier, spelt⟩
  have back : (unget lexer).2.tokenString = earlier := by
    change (if lexer.current.isSome then lexer.tokenString.dropLast else lexer.tokenString) = earlier
    rw [spelt]
    cases lexer.current with
    | none => exact List.append_nil earlier
    | some byte => exact List.dropLast_concat
  unfold Spells
  rw [back, split, spelt, List.append_assoc]
  rfl

theorem establishes_convert_spells {type : TokenType} :
    Establishes (fun lexer => lexer.Spells input) (convert type) fun _ lexer => lexer.Spells input := by
  intro lexer spells
  rcases convert_kept type lexer with ⟨unchanged, current, nextUnget, tokenString⟩
  unfold Spells Lexer.unread at spells ⊢
  rw [tokenString, nextUnget, current, unchanged]
  exact spells

/-- What a number leaves, unless it is an error. -/
def SpellsUnlessError (input : List Byte) (type : TokenType) (lexer : Lexer) : Prop :=
  type ≠ .parseError -> lexer.Spells input

theorem establishes_fail_spells {message : String} {before : Lexer -> Prop} :
    Establishes before (fail message) (SpellsUnlessError input) :=
  fun _ _ other => absurd rfl other

theorem establishes_scanNumberRound_spells (carried : NumberState × TokenType) :
    Establishes (fun lexer => lexer.Traces input) (scanNumberRound carried)
      (Sum.elim (fun _ lexer => lexer.Traces input) (SpellsUnlessError input)) := by
  refine establishes_get_traces.bind fun current => ?_
  cases carried.1.next current with
  | error message => exact establishes_fail_spells.bind fun _ _ spells => spells
  | ok outcome =>
      cases outcome with
      | none =>
          refine establishes_unget_spells.bind fun _ => establishes_convert_spells.bind fun _ => ?_
          exact fun _ spells _ => spells
      | some further => exact fun _ traces => ⟨traces.1.taken, traces.1.split⟩

/-- The token string of a number is its text. -/
theorem establishes_scanNumber_spells {first : Byte} :
    Establishes (fun lexer => lexer.Stands input buffer ∧ lexer.current = some first) (scanNumber first)
      (SpellsUnlessError (first :: input)) := by
  rw [scanNumber_eq]
  rintro lexer ⟨stands, current⟩
  refine Establishes.loop (fun _ lexer => lexer.Traces (first :: input))
    (fun _ => establishes_fail_spells) establishes_scanNumberRound_spells _ _ _ ⟨stands.taken, ?_⟩
  change first :: input = lexer.current.toList ++ lexer.input
  rw [current, stands.input]
  rfl

/-- The floating-point number that has been read stands in the text, written as
the token string. -/
structure Names (lexer : Lexer) (text : List Byte) : Prop where
  stands : Exists fun before => text = before ++ (lexer.tokenString ++ lexer.unread)
  number : TokenText (.number (.float lexer.valueFloat)) lexer.tokenString lexer.unread

theorem Names.prepend {lexer : Lexer} (names : lexer.Names text) (before : List Byte) :
    lexer.Names (before ++ text) := by
  rcases names with ⟨⟨space, split⟩, number⟩
  refine ⟨⟨before ++ space, ?_⟩, number⟩
  rw [List.append_assoc, ← split]

theorem Shows.eq_float {lexer : Lexer} {token : Token} (shows : lexer.Shows .valueFloat token) :
    token = .number (.float lexer.valueFloat) := by
  cases shows with
  | mark listed => simp [marks] at listed
  | number kept =>
      cases kept with
      | float kept => rw [kept]

/-- The text of a number. -/
theorem of_numberText {value : ScannedNumber} {word : List Byte} (written : TokenText (.number value) word rest) :
    Exists fun first => Exists fun others => Exists fun last => word = first :: others ∧
      (first = 0x2D ∨ isDigit first = true) ∧ NumberPath (numberStart first) others last ∧
        last.next rest.head? = .ok none ∧ value = numberOf word := by
  generalize number : Token.number value = token at written
  cases written with
  | mark => cases number
  | string => cases number
  | number begins path done => exact ⟨_, _, _, rfl, begins, path, done, Token.number.inj number⟩

/-- A token that begins with a digit or a minus is a number. -/
theorem names_of_lexes {first : Byte} {others : List Byte} {lexer : Lexer}
    (solid : isWhitespace first = false) (spells : (first = 0x2D ∨ isDigit first = true) ->
      lexer.Spells (first :: others)) (offers : lexer.Offers rest)
    (lexes : Lexes (first :: others) (.number (.float lexer.valueFloat)) rest) :
    lexer.Names (first :: others) := by
  rcases lexes with ⟨_ | ⟨white, space⟩, word, split, whites, written⟩
  · rcases of_numberText written with ⟨head, tail, _, rfl, begins, _⟩
    have spelt := spells (List.head_eq_of_cons_eq split ▸ begins)
    unfold Spells at spelt
    rw [offers.unread] at spelt
    have same : head :: tail = lexer.tokenString := List.append_cancel_right (split.symm.trans spelt)
    rw [same, ← offers.unread] at written
    exact ⟨⟨[], offers.unread ▸ spelt⟩, written⟩
  · cases split
    rw [List.all_cons, solid] at whites
    cases whites

theorem establishes_scanNext_names :
    Establishes (fun lexer => lexer.Offers input) scanNext fun type lexer =>
      type = .valueFloat -> lexer.Names input := by
  refine establishes_skipWhitespace.bind fun _ => ?_
  have split := List.takeWhile_append_dropWhile (p := isWhitespace) (l := input)
  rintro lexer ⟨current, stands⟩ isFloat
  cases left : input.dropWhile isWhitespace with
  | nil =>
      rw [left] at current
      simp only [current] at isFloat
      cases isFloat
  | cons first others =>
      rw [left] at current stands
      rw [List.head?_cons] at current
      simp only [current] at isFloat ⊢
      have solid : isWhitespace first = false := by
        have head := List.head?_dropWhile_not isWhitespace input
        rw [left] at head
        simpa using head
      rw [← split, left]
      refine Names.prepend ?_ _
      have scanned : TokenOutcome (first :: others) (scanToken (some first) _).1 _ :=
        tokenOutcome_scanToken _ stands
      rcases scanned with failed | ended | outcome
      · cases isFloat.symm.trans failed
      · cases isFloat.symm.trans ended
      · rcases outcome with ⟨token, rest, lexes, shows, offers⟩
        rw [isFloat] at shows
        rw [shows.eq_float] at lexes
        refine names_of_lexes solid (fun begins => ?_) offers lexes
        rw [scanToken_of_number begins] at isFloat ⊢
        refine establishes_scanNumber_spells lexer ⟨stands, current⟩ ?_
        rw [isFloat]
        decide

/-- What a scan leaves of a text. -/
theorem establishes_scanNext_placed_names :
    Establishes (Placed text) scanNext fun type lexer => type = .valueFloat -> lexer.Names text := by
  intro lexer placed isFloat
  have names := establishes_scanNext_names lexer placed.offers isFloat
  rcases placed with ⟨read, _, split, _⟩
  exact split ▸ names.prepend read

theorem establishes_scan_names :
    Establishes (Placed text) scan fun type lexer => type = .valueFloat -> lexer.Names text :=
  establishes_scan_of establishes_scanNext_placed_names fun _ _ _ impossible => by cases impossible

/-- The lexer stands behind a number of the text that is too large for a finite
double, and the token string is how it is written. -/
structure Overflows (lexer : Lexer) (text : List Byte) : Prop where
  placed : lexer.Placed text
  names : lexer.Names text
  infinite : lexer.valueFloat = none
  tooLarge : Exists fun value => decimalValue lexer.tokenString = some value ∧
    2 ^ 1024 ≤ |binary64.nearest value|

theorem strtof_of_numberOf {value : Option FiniteDouble} (number : numberOf text = .float value) :
    strtof text = value := by
  unfold numberOf at number
  cases whole : integerValue text with
  | none =>
      rw [whole] at number
      cases number
      rfl
  | some integer =>
      rw [whole] at number
      simp only at number
      split_ifs at number
      cases number
      rfl

/-- A number without a double is too large for one. -/
theorem Names.overflows {lexer : Lexer} (placed : lexer.Placed text) (names : lexer.Names text)
    (infinite : lexer.valueFloat = none) : lexer.Overflows text := by
  refine ⟨placed, names, infinite, ?_⟩
  rcases of_numberText names.number with ⟨first, others, last, spelt, begins, path, done, number⟩
  rcases decimalValue_of_path begins path done with ⟨value, read⟩
  rw [← spelt] at read
  have overflow := strtof_of_numberOf number.symm
  rw [strtof, read, Option.bind_some, infinite, FiniteDouble.nearest] at overflow
  split_ifs at overflow with inRange
  exact ⟨value, read, not_lt.mp inRange⟩

end Lexer

namespace Parser

/-- What a failure says of the text. -/
inductive Located (text : List Byte) : String -> Prop where
  | syntaxError {position : Position} {what : String} (isIn : position.IsIn text) :
      Located text (parseErrorText position what)
  | overflow {lexer : Lexer} (overflows : lexer.Overflows text) : Located text (overflowText lexer)

/-- The lexer stands in the text, and a floating-point number that it has read
is one of the text. -/
structure IsAt (parser : Parser) (text : List Byte) : Prop where
  placed : parser.lexer.Placed text
  names : parser.lastToken = .valueFloat -> parser.lexer.Names text

/-- The parser stays at the text, and a failure is located there. -/
def Stays (text : List Byte) (program : Parsing A) : Prop :=
  forall parser : Parser, parser.IsAt text ->
    Attempts (Located text) program (fun _ next => next.IsAt text) parser

theorem Stays.bind {program : Parsing A} {next : A -> Parsing B} (first : Stays text program)
    (second : forall value, Stays text (next value)) : Stays text (program >>= next) :=
  fun parser isAt => (first parser isAt).bind fun value further => second value further

theorem stays_pure {value : A} : Stays text (pure value) :=
  fun _ isAt => isAt

/-- The parser that is read is at the text. -/
theorem stays_get_bind {next : Parser -> Parsing A}
    (second : forall parser : Parser, parser.IsAt text -> Stays text (next parser)) :
    Stays text (get >>= next) :=
  fun parser isAt => second parser isAt parser isAt

theorem stays_raise {what : Parser -> String} : Stays text (raise what : Parsing A) :=
  fun _ isAt => .syntaxError isAt.placed.isIn

theorem stays_raiseExpected {expected : TokenType} {context : String} :
    Stays text (raiseExpected expected context : Parsing A) :=
  stays_raise

theorem stays_overflow {lexer : Lexer} (overflows : lexer.Overflows text) :
    Stays text (throw (overflowText lexer) : Parsing A) :=
  fun _ _ => .overflow overflows

theorem stays_getToken : Stays text getToken :=
  fun parser isAt => ⟨Lexer.establishes_scan_placed parser.lexer isAt.placed,
    Lexer.establishes_scan_names parser.lexer isAt.placed⟩

theorem stays_setFrames {frames : List Frame} : Stays text (setFrames frames) :=
  fun _ isAt => ⟨isAt.placed, isAt.names⟩

theorem stays_handleValue {value : Json} : Stays text (handleValue value) := by
  intro parser isAt
  refine ⟨?_, ?_⟩
  · rw [lexer_handled]
    exact isAt.placed
  · rw [lexer_handled, lastToken_handled]
    exact isAt.names

theorem Stays.ite {condition : Prop} [Decidable condition] {first second : Parsing A}
    (holds : Stays text first) (fails : Stays text second) :
    Stays text (if condition then first else second) := by
  split_ifs
  · exact holds
  · exact fails

/-- A check that raises if it fails. -/
theorem Stays.unless {condition : Prop} [Decidable condition] {check : Parsing B} {next : Parsing A}
    (raises : Stays text check) (rest : Stays text next) :
    Stays text (if condition then check >>= fun _ => next else next) :=
  (raises.bind fun _ => rest).ite rest

theorem stays_parseKey : Stays text parseKey := by
  refine stays_get_bind fun parser _ => Stays.unless stays_raiseExpected ?_
  exact stays_getToken.bind fun _ => Stays.unless stays_raiseExpected stays_pure

variable {toInt : FiniteDouble -> Int32}

theorem stays_startValue : Stays text (startValue toInt) := by
  have complete {value : Json} : Stays text (do
      handleValue value
      pure true) :=
    stays_handleValue.bind fun _ => stays_pure
  refine stays_get_bind fun parser isAt => ?_
  cases last : parser.lastToken with
  | beginObject =>
      refine stays_getToken.bind fun _ => complete.ite (stays_parseKey.bind fun _ => ?_)
      exact stays_setFrames.bind fun _ => stays_getToken.bind fun _ => stays_pure
  | beginArray =>
      refine stays_getToken.bind fun _ => complete.ite ?_
      exact stays_setFrames.bind fun _ => stays_pure
  | valueFloat =>
      cases infinite : parser.lexer.valueFloat with
      | none => exact stays_overflow ((isAt.names last).overflows isAt.placed infinite)
      | some number => exact complete
  | endOfInput => exact Stays.ite stays_raise stays_raiseExpected
  | literalFalse => exact complete
  | literalNull => exact complete
  | literalTrue => exact complete
  | valueInteger => exact complete
  | valueString => exact complete
  | valueUnsigned => exact complete
  | _ => exact stays_raiseExpected

theorem stays_evaluateState : Stays text evaluateState := by
  have closed {outer : List Frame} {value : Json} : Stays text (do
      setFrames outer
      handleValue value
      pure (.inl .stateEvaluation : ParseStage ⊕ Unit)) :=
    stays_setFrames.bind fun _ => stays_handleValue.bind fun _ => stays_pure
  refine stays_get_bind fun parser _ => ?_
  rcases parser.frames with _ | ⟨_ | ⟨members, key⟩, outer⟩
  · exact stays_pure
  · refine stays_getToken.bind fun _ => Stays.ite ?_ (closed.ite stays_raiseExpected)
    exact stays_getToken.bind fun _ => stays_pure
  · refine stays_getToken.bind fun _ => Stays.ite ?_ (closed.ite stays_raiseExpected)
    refine stays_getToken.bind fun _ => stays_parseKey.bind fun _ => stays_setFrames.bind fun _ => ?_
    exact stays_getToken.bind fun _ => stays_pure

theorem stays_parseRound {stage : ParseStage} : Stays text (parseRound toInt stage) := by
  cases stage with
  | value =>
      exact stays_startValue.bind fun _ => Stays.ite stays_evaluateState stays_pure
  | stateEvaluation => exact stays_evaluateState

/-! ## The whole file -/

theorem located_saxParseInternal {body : List Byte} {parser : Parser} (frames : parser.frames = [])
    (has : parser.HasToken text body) (isAt : parser.IsAt text) :
    Attempts (Located text) (saxParseInternal toInt) (fun _ _ => True) parser := by
  -- the rounds are enough because of what the parser reads, and each of them stays at the text
  refine attempts_loop (parseRound toInt) size (fun stage parser => parser.IsAt text ∧
    Faces toInt text (fun value rest => Reads toInt (.value value) body rest) stage parser) ?_
    ⟨isAt, faces_of_hasToken frames has⟩ (size_lt parser)
  rintro stage parser ⟨isAt, faces⟩
  refine ((attempts_parseRound faces).and (stays_parseRound parser isAt)).weaken
    (fun _ raised => raised.2) ?_
  rintro outcome next ⟨ends, still⟩
  cases outcome with
  | inl stage => exact ⟨⟨still, ends.1⟩, ends.2⟩
  | inr _ => exact trivial

theorem located_of_error {what : String} (error : parse toInt text = .error what) : Located text what := by
  have attempts : Attempts (Located text) (saxParseInternal toInt) (fun _ _ => True)
      ⟨(Lexer.scan (Lexer.initial text)).2, (Lexer.scan (Lexer.initial text)).1, .null, []⟩ :=
    located_saxParseInternal rfl (hasScanned_first text)
      ⟨(hasScanned_first text).placed, Lexer.establishes_scan_names _ (Lexer.placed_initial text)⟩
  rw [parse_eq_bind] at error
  unfold Attempts at attempts
  rcases outcome : saxParseInternal toInt _ with problem | ⟨_, last⟩
  all_goals rw [outcome] at attempts error
  · cases error
    exact attempts
  · cases error

end Parser

/-- A file gives a value, or a message with a position in it, or a message that
names a number of the file that is too large for a double. -/
theorem ofContents_located (toInt : FiniteDouble -> Int32) (text : List Byte) :
    (Exists fun cfg => ConfigFile.ofContents toInt (some text) = .parsed cfg) ∨
    (Exists fun position : Position => Exists fun what => position.IsIn text ∧
      ConfigFile.ofContents toInt (some text) = .malformed (Parser.parseErrorText position what)) ∨
    Exists fun lexer : Lexer => lexer.Overflows text ∧
      ConfigFile.ofContents toInt (some text) = .malformed (Parser.overflowText lexer) := by
  simp only [ConfigFile.ofContents]
  rcases outcome : Parser.parse toInt text with what | cfg
  · rcases Parser.located_of_error outcome with ⟨isIn⟩ | ⟨overflows⟩
    · exact .inr (.inl ⟨_, _, isIn, rfl⟩)
    · exact .inr (.inr ⟨_, overflows, rfl⟩)
  · exact .inl ⟨cfg, rfl⟩

end CoreBank
