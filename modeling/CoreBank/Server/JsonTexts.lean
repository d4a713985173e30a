import CoreBank.Server.JsonGrammar
import CoreBank.Server.JsonPositions

namespace CoreBank

open Foundation

/-!
# The parser reads the JSON texts

In every round the parser has something to read: a value whose first token it
has, or what the open frames demand behind a complete value.  What the whole
text comes to does not change from round to round, so the parser ends with the
value of the text, and raises only where the text has none.
-/

namespace Lexer

variable {whole text : List Byte}

/-- The lexer is behind the beginning of the whole, in front of this text. -/
structure Ready (lexer : Lexer) (whole text : List Byte) : Prop where
  placed : lexer.Placed whole
  offers : lexer.Offers text
  within : text.length < whole.length

/-- The lexer has read the first token of the text, if it has one. -/
structure HasScanned (lexer : Lexer) (whole text : List Byte) (type : TokenType) : Prop where
  placed : lexer.Placed whole
  within : text.length ≤ whole.length
  outcome : TokenOutcome text type lexer
  only : forall {token : Token} {rest : List Byte}, Lexes text token rest ->
    lexer.Shows type token ∧ lexer.Offers rest

theorem establishes_scanNext_ready (within : text.length ≤ whole.length) :
    Establishes (fun lexer => lexer.Placed whole ∧ lexer.Offers text) scanNext fun type lexer =>
      lexer.HasScanned whole text type := by
  rintro lexer ⟨placed, offers⟩
  exact ⟨establishes_scanNext_placed lexer placed, within, tokenOutcome_scanNext lexer offers,
    fun lexes => establishes_scanNext lexes lexer offers⟩

theorem establishes_scan :
    Establishes (fun lexer => lexer.Ready whole text) scan fun type lexer =>
      lexer.HasScanned whole text type := by
  rintro lexer ⟨placed, offers, within⟩
  have started := placed.started (offers.unread ▸ within)
  unfold scan
  rw [if_neg started]
  exact establishes_scanNext_ready (Nat.le_of_lt within) lexer ⟨placed, offers⟩

theorem Shows.eq_mark {lexer : Lexer} {type : TokenType} {token : Token}
    (shows : lexer.Shows type token) (listed : type ∈ marks.map Prod.fst) : token = .mark type := by
  cases shows with
  | mark => rfl
  | string => simp [marks] at listed
  | number kept =>
      cases kept with
      | _ => simp [marks] at listed

theorem Shows.type_eq {lexer : Lexer} {type other : TokenType} (shows : lexer.Shows type (.mark other)) :
    type = other := by
  cases shows with
  | mark => rfl

theorem Shows.of_string {lexer : Lexer} {type : TokenType} {characters : List Char}
    (shows : lexer.Shows type (.string characters)) :
    type = .valueString ∧ lexer.tokenBuffer = encode characters := by
  cases shows with
  | string buffer => exact ⟨rfl, buffer⟩

theorem Shows.eq_string {lexer : Lexer} {type : TokenType} {token : Token} (shows : lexer.Shows type token)
    (isString : type = .valueString) : Exists fun characters => token = .string characters := by
  subst isString
  cases shows with
  | mark listed => simp [marks] at listed
  | string => exact ⟨_, rfl⟩
  | number kept => cases kept

theorem Shows.solid {lexer : Lexer} {type : TokenType} {token : Token} (shows : lexer.Shows type token) :
    ¬ (type = .parseError ∨ type = .endOfInput) := by
  cases shows with
  | mark listed =>
      rintro (rfl | rfl)
      · simp [marks] at listed
      · simp [marks] at listed
  | string => decide
  | number kept =>
      cases kept with
      | _ => decide

/-- The value that a token is by itself. -/
def scalarValue (toInt : FiniteDouble -> Int32) (lexer : Lexer) : TokenType -> Option Json
  | .literalTrue => some (.boolean true)
  | .literalFalse => some (.boolean false)
  | .literalNull => some .null
  | .valueString => some (.string lexer.tokenBuffer)
  | .valueUnsigned => some (.integer lexer.valueUnsigned)
  | .valueInteger => some (.integer lexer.valueInteger)
  | .valueFloat => lexer.valueFloat.map fun number => .float (toInt number)
  | _ => none

theorem Shows.scalar {toInt : FiniteDouble -> Int32} {lexer : Lexer} {type : TokenType} {token : Token}
    (shows : lexer.Shows type token) : token.scalar toInt = lexer.scalarValue toInt type := by
  cases shows with
  | mark listed =>
      simp only [marks, List.mem_cons, Prod.mk.injEq, List.not_mem_nil, or_false] at listed
      rcases listed with ⟨rfl, _⟩ | ⟨rfl, _⟩ | ⟨rfl, _⟩ | ⟨rfl, _⟩ | ⟨rfl, _⟩ | ⟨rfl, _⟩ | ⟨rfl, _⟩ |
        ⟨rfl, _⟩ | ⟨rfl, _⟩
      all_goals rfl
  | string buffer => rw [Token.scalar, scalarValue, buffer]
  | number kept =>
      cases kept with
      | unsigned kept => rw [Token.scalar, scalarValue, kept]
      | integer kept => rw [Token.scalar, scalarValue, kept]
      | float kept => rw [Token.scalar, scalarValue, kept]

end Lexer

namespace Parser

variable {toInt : FiniteDouble -> Int32} {whole text : List Byte} {A : Type}

/-! ## One token -/

/-- The last token is the first one of the text. -/
abbrev HasToken (parser : Parser) (whole text : List Byte) : Prop :=
  parser.lexer.HasScanned whole text parser.lastToken

/-- What is left to be read, with the last token. -/
def size (parser : Parser) : ℕ :=
  if parser.lastToken = .parseError ∨ parser.lastToken = .endOfInput then 0
  else parser.lexer.unread.length + 1

theorem size_lt (parser : Parser) : parser.size < parser.lexer.unread.length + 2 := by
  unfold size
  split_ifs
  · exact Nat.zero_lt_succ _
  · exact Nat.lt_succ_self _

theorem HasToken.token {parser : Parser} (has : parser.HasToken whole text)
    (solid : ¬ (parser.lastToken = .parseError ∨ parser.lastToken = .endOfInput)) :
    Exists fun token => Exists fun rest => Lexes text token rest ∧
      parser.lexer.Shows parser.lastToken token ∧ parser.lexer.Ready whole rest := by
  rcases has.outcome with failed | ended | ⟨token, rest, lexes, shows, offers⟩
  · exact absurd (.inl failed) solid
  · exact absurd (.inr ended) solid
  · exact ⟨token, rest, lexes, shows, has.placed, offers, Nat.lt_of_lt_of_le lexes.shorter has.within⟩

theorem HasToken.rest_eq {parser : Parser} (has : parser.HasToken whole text) {rest other : List Byte}
    {token : Token} (ready : parser.lexer.Ready whole rest) (lexes : Lexes text token other) : other = rest :=
  (has.only lexes).2.unread.symm.trans ready.offers.unread

theorem HasToken.type_eq {parser : Parser} (has : parser.HasToken whole text) {type : TokenType}
    {rest : List Byte} (lexes : Lexes text (.mark type) rest) : parser.lastToken = type :=
  (has.only lexes).1.type_eq

/-- The last token is a mark, and what stands behind it. -/
theorem HasToken.mark {parser : Parser} (has : parser.HasToken whole text) {type : TokenType}
    (last : parser.lastToken = type) (listed : type ∈ marks.map Prod.fst) :
    Exists fun rest => BeginsWith text type rest ∧ parser.lexer.Ready whole rest ∧
      parser.size = rest.length + 1 := by
  subst last
  have solid : ¬ (parser.lastToken = .parseError ∨ parser.lastToken = .endOfInput) := by
    rintro (failed | ended)
    · simp [marks, failed] at listed
    · simp [marks, ended] at listed
  rcases has.token solid with ⟨token, rest, lexes, shows, ready⟩
  have same := shows.eq_mark listed
  subst same
  refine ⟨rest, ⟨lexes, fun other => ?_⟩, ready, ?_⟩
  · exact ⟨(has.only other).1.eq_mark listed, has.rest_eq ready other⟩
  · rw [size, if_neg solid, ready.offers.unread]

theorem HasToken.size_le {parser : Parser} (has : parser.HasToken whole text) :
    parser.size ≤ text.length := by
  unfold size
  split_ifs with ended
  · exact Nat.zero_le _
  · rcases has.token ended with ⟨token, rest, lexes, _, ready⟩
    rw [ready.offers.unread]
    exact lexes.shorter

/-! ## The programs -/

section Programs

variable {refuted : Prop} {after : A -> Parser -> Prop} {parser : Parser}

theorem attempts_get_bind {next : Parser -> Parsing A}
    (attempts : Attempts (fun _ => refuted) (next parser) after parser) :
    Attempts (fun _ => refuted) (get >>= next) after parser :=
  attempts

theorem attempts_raiseExpected {expected : TokenType} {context : String} (refutes : refuted) :
    Attempts (fun _ => refuted) (raiseExpected expected context) after parser :=
  refutes

theorem attempts_getToken_bind {next : TokenType -> Parsing A} (ready : parser.lexer.Ready whole text)
    (attempts : forall further : Parser, further.HasToken whole text ->
      further.frames = parser.frames -> further.root = parser.root ->
        Attempts (fun _ => refuted) (next further.lastToken) after further) :
    Attempts (fun _ => refuted) (getToken >>= next) after parser :=
  attempts ⟨(Lexer.scan parser.lexer).2, (Lexer.scan parser.lexer).1, parser.root, parser.frames⟩
    (Lexer.establishes_scan parser.lexer ready) rfl rfl

theorem attempts_handleValue_bind {value : Json} {next : Unit -> Parsing A}
    (attempts : Attempts (fun _ => refuted) (next ()) after (handled value parser)) :
    Attempts (fun _ => refuted) (handleValue value >>= next) after parser :=
  attempts

theorem attempts_setFrames_bind {frames : List Frame} {next : Unit -> Parsing A}
    (attempts : Attempts (fun _ => refuted) (next ()) after { parser with frames := frames }) :
    Attempts (fun _ => refuted) (setFrames frames >>= next) after parser :=
  attempts

end Programs

/-- A key is read with its separator. -/
theorem attempts_parseKey {parser : Parser} (has : parser.HasToken whole text) :
    Attempts (fun _ => forall key start, ¬ LexesKey text key start) parseKey (fun key next =>
      Exists fun start => BeginsWithKey text key start ∧ next.lexer.Ready whole start ∧
        next.frames = parser.frames ∧ start.length < text.length) parser := by
  refine attempts_get_bind ?_
  by_cases isString : parser.lastToken = .valueString
  · rw [if_neg (not_not_intro isString)]
    rcases has.token (by simp [isString]) with ⟨token, behind, lexes, shows, ready⟩
    rcases shows.eq_string isString with ⟨characters, rfl⟩
    refine attempts_getToken_bind ready ?_
    intro further separator frames _
    by_cases isSeparator : further.lastToken = .nameSeparator
    · rw [if_neg (not_not_intro isSeparator)]
      rcases separator.mark isSeparator (by simp [marks]) with ⟨start, colon, readyBehind, _⟩
      have shorter := Nat.lt_trans colon.lexes.shorter lexes.shorter
      have named : LexesKey text parser.lexer.tokenBuffer start :=
        ⟨characters, behind, lexes, shows.of_string.2, colon.lexes⟩
      refine ⟨start, ⟨named, ?_⟩, readyBehind, frames, shorter⟩
      rintro other place ⟨otherCharacters, between, otherLexes, rfl, otherColon⟩
      rcases has.rest_eq ready otherLexes
      exact ⟨(has.only otherLexes).1.of_string.2.symm, (colon.only otherColon).2⟩
    · rw [if_pos isSeparator]
      refine attempts_raiseExpected ?_
      rintro key start ⟨otherCharacters, between, otherLexes, _, otherColon⟩
      rcases has.rest_eq ready otherLexes
      exact isSeparator (separator.type_eq otherColon)
  · rw [if_pos isString]
    refine attempts_raiseExpected ?_
    rintro key start ⟨characters, behind, lexes, _⟩
    exact isString (has.only lexes).1.of_string.1

/-! ## Complete values -/

/-- The value has gone to where it belongs. -/
def Handled : List Frame -> Json -> Parser -> Prop
  | [], value, parser => parser.frames = [] ∧ parser.root = value
  | .array :: outer, _, parser => parser.frames = .array :: outer
  | .object members key :: outer, value, parser =>
      parser.frames = .object (assignMember key value members) key :: outer

theorem handled_handled (value : Json) (parser : Parser) :
    Handled parser.frames value (handled value parser) := by
  rcases parser with ⟨lexer, lastToken, root, _ | ⟨_ | ⟨members, key⟩, outer⟩⟩
  · exact ⟨rfl, rfl⟩
  · rfl
  · rfl

theorem lexer_handled (value : Json) (parser : Parser) : (handled value parser).lexer = parser.lexer := by
  unfold handled
  rcases parser.frames with _ | ⟨_ | ⟨members, key⟩, outer⟩
  · rfl
  · rfl
  · rfl

theorem lastToken_handled (value : Json) (parser : Parser) :
    (handled value parser).lastToken = parser.lastToken := by
  unfold handled
  rcases parser.frames with _ | ⟨_ | ⟨members, key⟩, outer⟩
  · rfl
  · rfl
  · rfl

/-- A value is complete, within these frames and in front of this text. -/
structure HasValue (parser : Parser) (whole : List Byte) (frames : List Frame) (value : Json)
    (text : List Byte) : Prop where
  ready : parser.lexer.Ready whole text
  handled : Handled frames value parser
  size : parser.size = text.length + 1

theorem hasValue_handled {parser : Parser} {value : Json} (ready : parser.lexer.Ready whole text)
    (size : parser.size = text.length + 1) :
    (handled value parser).HasValue whole parser.frames value text := by
  refine ⟨(lexer_handled value parser).symm ▸ ready, handled_handled value parser, ?_⟩
  rw [Parser.size, lastToken_handled, lexer_handled]
  exact size

/-- What the whole text comes to, seen from where a round begins. -/
def Faces (toInt : FiniteDouble -> Int32) (whole : List Byte) (wanted : Json -> List Byte -> Prop) :
    ParseStage -> Parser -> Prop
  | .value, parser => Exists fun text => parser.HasToken whole text ∧ forall result rest,
      wanted result rest ↔ Faced toInt parser.frames text result rest
  | .stateEvaluation, parser => Exists fun frames => Exists fun value => Exists fun text =>
      parser.HasValue whole frames value text ∧ forall result rest,
        wanted result rest ↔ Closes toInt frames value text result rest

/-- The whole text has no value. -/
def Refuted (wanted : Json -> List Byte -> Prop) : Prop :=
  forall result rest, ¬ wanted result rest

/-- How a round comes out. -/
def RoundEnds (toInt : FiniteDouble -> Int32) (whole : List Byte) (wanted : Json -> List Byte -> Prop)
    (size : ℕ) : ParseStage ⊕ Unit -> Parser -> Prop
  | .inl stage, next => Faces toInt whole wanted stage next ∧ next.size < size
  | .inr _, last => forall result rest, wanted result rest ↔ result = last.root ∧ rest = last.lexer.unread

variable {wanted : Json -> List Byte -> Prop}

/-- Behind the mark that closes the innermost frame. -/
theorem attempts_close {parser : Parser} {outer : List Frame} {value : Json} {behind : List Byte}
    (ready : parser.lexer.Ready whole behind) (size : parser.size = behind.length + 1)
    (shorter : behind.length < text.length)
    (closes : forall result rest, wanted result rest ↔ Closes toInt outer value behind result rest) :
    Attempts (fun _ => Refuted wanted)
      (do
        setFrames outer
        handleValue value
        pure (.inl .stateEvaluation))
      (RoundEnds toInt whole wanted (text.length + 1)) parser := by
  refine attempts_setFrames_bind (attempts_handleValue_bind ?_)
  have complete : HasValue (handled value { parser with frames := outer }) whole outer value behind :=
    hasValue_handled ready size
  refine ⟨⟨outer, value, behind, complete, closes⟩, ?_⟩
  rw [complete.size]
  exact Nat.succ_lt_succ shorter

theorem attempts_evaluateState_array {parser : Parser} {outer : List Frame} {value : Json}
    (frames : parser.frames = .array :: outer) (ready : parser.lexer.Ready whole text)
    (faces : forall result rest,
      wanted result rest ↔ Closes toInt (.array :: outer) value text result rest) :
    Attempts (fun _ => Refuted wanted) evaluateState (RoundEnds toInt whole wanted (text.length + 1))
      parser := by
  refine attempts_get_bind ?_
  rw [frames]
  refine attempts_getToken_bind ready ?_
  intro further token sameFrames _
  by_cases isComma : further.lastToken = .valueSeparator
  · rw [if_pos isComma]
    rcases token.mark isComma (by simp [marks]) with ⟨start, comma, readyBehind, _⟩
    refine attempts_getToken_bind readyBehind ?_
    intro next nextToken nextFrames _
    refine ⟨⟨start, nextToken, fun result rest => ?_⟩, ?_⟩
    · rw [faces, nextFrames, sameFrames, frames]
      exact closes_array_of_comma comma
    · exact Nat.lt_succ_of_le (nextToken.size_le.trans comma.lexes.shorter.le)
  · rw [if_neg isComma]
    by_cases isEnd : further.lastToken = .endArray
    · rw [if_pos isEnd]
      rcases token.mark isEnd (by simp [marks]) with ⟨behind, ends, readyBehind, size⟩
      refine attempts_close readyBehind size ends.lexes.shorter fun result rest => ?_
      rw [faces]
      exact closes_array_of_end ends
    · rw [if_neg isEnd]
      refine attempts_raiseExpected fun result rest => ?_
      rw [faces]
      exact not_closes_array (fun comma => isComma (token.type_eq comma)) fun ends =>
        isEnd (token.type_eq ends)

theorem attempts_evaluateState_object {parser : Parser} {outer : List Frame} {value : Json}
    {members : List (List Byte × Json)} {key : List Byte}
    (frames : parser.frames = .object (assignMember key value members) key :: outer)
    (ready : parser.lexer.Ready whole text)
    (faces : forall result rest,
      wanted result rest ↔ Closes toInt (.object members key :: outer) value text result rest) :
    Attempts (fun _ => Refuted wanted) evaluateState (RoundEnds toInt whole wanted (text.length + 1))
      parser := by
  refine attempts_get_bind ?_
  rw [frames]
  refine attempts_getToken_bind ready ?_
  intro further token _ _
  by_cases isComma : further.lastToken = .valueSeparator
  · rw [if_pos isComma]
    rcases token.mark isComma (by simp [marks]) with ⟨inner, comma, readyInner, _⟩
    refine attempts_getToken_bind readyInner ?_
    intro next nextToken _ _
    refine ((attempts_parseKey nextToken).weaken ?_ fun _ _ keyed => keyed).bind ?_
    · intro _ unnamed result rest
      rw [faces]
      exact not_closes_object_of_comma comma unnamed
    · rintro name keyed ⟨start, begins, readyBehind, _, shorter⟩
      refine attempts_setFrames_bind (attempts_getToken_bind readyBehind ?_)
      intro last lastToken lastFrames _
      refine ⟨⟨start, lastToken, fun result rest => ?_⟩, ?_⟩
      · rw [faces, lastFrames]
        exact closes_object_of_comma comma begins
      · have bound := lastToken.size_le
        have shorterInner := comma.lexes.shorter
        omega
  · rw [if_neg isComma]
    by_cases isEnd : further.lastToken = .endObject
    · rw [if_pos isEnd]
      rcases token.mark isEnd (by simp [marks]) with ⟨behind, ends, readyBehind, size⟩
      refine attempts_close readyBehind size ends.lexes.shorter fun result rest => ?_
      rw [faces]
      exact closes_object_of_end ends
    · rw [if_neg isEnd]
      refine attempts_raiseExpected fun result rest => ?_
      rw [faces]
      exact not_closes_object (fun comma => isComma (token.type_eq comma)) fun ends =>
        isEnd (token.type_eq ends)

theorem attempts_evaluateState {parser : Parser} {frames : List Frame} {value : Json}
    (has : parser.HasValue whole frames value text)
    (faces : forall result rest, wanted result rest ↔ Closes toInt frames value text result rest) :
    Attempts (fun _ => Refuted wanted) evaluateState (RoundEnds toInt whole wanted (text.length + 1))
      parser := by
  have placed := has.handled
  rcases frames with _ | ⟨_ | ⟨members, key⟩, outer⟩
  · refine attempts_get_bind ?_
    rw [placed.1]
    intro result rest
    rw [faces, placed.2, has.ready.offers.unread]
    rfl
  · exact attempts_evaluateState_array placed has.ready faces
  · exact attempts_evaluateState_object placed has.ready faces

/-! ## The beginning of a value -/

/-- A value that is one token is handled, and another token is an error. -/
theorem attempts_startValue_scalar {refuted : Prop} {after : Bool -> Parser -> Prop} {parser : Parser}
    (noObject : parser.lastToken ≠ .beginObject) (noArray : parser.lastToken ≠ .beginArray)
    (handles : forall value, parser.lexer.scalarValue toInt parser.lastToken = some value ->
      after true (handled value parser))
    (raises : parser.lexer.scalarValue toInt parser.lastToken = none -> refuted) :
    Attempts (fun _ => refuted) (startValue toInt) after parser := by
  rcases parser with ⟨lexer, lastToken, root, frames⟩
  cases lastToken with
  | beginObject => exact absurd rfl noObject
  | beginArray => exact absurd rfl noArray
  | literalTrue => exact handles _ rfl
  | literalFalse => exact handles _ rfl
  | literalNull => exact handles _ rfl
  | valueString => exact handles _ rfl
  | valueUnsigned => exact handles _ rfl
  | valueInteger => exact handles _ rfl
  | valueFloat =>
      refine attempts_get_bind ?_
      cases number : lexer.valueFloat with
      | none =>
          have overflows : lexer.scalarValue toInt .valueFloat = none := by
            rw [Lexer.scalarValue, number]
            rfl
          exact raises overflows
      | some value =>
          have meant : lexer.scalarValue toInt .valueFloat = some (.float (toInt value)) := by
            rw [Lexer.scalarValue, number]
            rfl
          exact handles _ meant
  | endOfInput =>
      refine attempts_get_bind ?_
      dsimp only
      split_ifs
      · exact raises rfl
      · exact raises rfl
  | _ => exact raises rfl

/-- What a round has come to when it has begun a value. -/
def Started (toInt : FiniteDouble -> Int32) (whole : List Byte) (wanted : Json -> List Byte -> Prop)
    (size : ℕ) : Bool -> Parser -> Prop
  | true, next => Exists fun frames => Exists fun value => Exists fun text =>
      next.HasValue whole frames value text ∧ text.length < size ∧ forall result rest,
        wanted result rest ↔ Closes toInt frames value text result rest
  | false, next => Faces toInt whole wanted .value next ∧ next.size < size

theorem attempts_startValue_object {parser : Parser} (has : parser.HasToken whole text)
    (isObject : parser.lastToken = .beginObject)
    (faces : forall result rest, wanted result rest ↔ Faced toInt parser.frames text result rest) :
    Attempts (fun _ => Refuted wanted) (startValue toInt) (Started toInt whole wanted parser.size)
      parser := by
  rcases has.mark isObject (by simp [marks]) with ⟨inner, opens, ready, size⟩
  refine attempts_get_bind ?_
  rw [isObject, size]
  refine attempts_getToken_bind ready ?_
  intro further token sameFrames _
  by_cases isEnd : further.lastToken = .endObject
  · rw [if_pos isEnd]
    rcases token.mark isEnd (by simp [marks]) with ⟨behind, ends, readyBehind, sizeBehind⟩
    refine attempts_handleValue_bind ⟨_, _, behind, hasValue_handled readyBehind sizeBehind, ?_, ?_⟩
    · exact Nat.lt_succ_of_lt ends.lexes.shorter
    · intro result rest
      rw [faces, sameFrames]
      exact faced_of_empty_object opens ends
  · rw [if_neg isEnd]
    have goesOn {behind : List Byte} : ¬ Lexes inner (.mark .endObject) behind :=
      fun lexes => isEnd (token.type_eq lexes)
    refine ((attempts_parseKey token).weaken ?_ fun _ _ keyed => keyed).bind ?_
    · intro _ unnamed result rest
      rw [faces]
      exact not_faced_of_object opens unnamed goesOn
    · rintro key keyed ⟨start, begins, readyBehind, _, shorter⟩
      refine attempts_setFrames_bind (attempts_getToken_bind readyBehind ?_)
      intro last lastToken lastFrames _
      refine ⟨⟨start, lastToken, fun result rest => ?_⟩, ?_⟩
      · rw [faces, lastFrames]
        exact faced_of_object opens begins goesOn
      · have bound := lastToken.size_le
        omega

theorem attempts_startValue_array {parser : Parser} (has : parser.HasToken whole text)
    (isArray : parser.lastToken = .beginArray)
    (faces : forall result rest, wanted result rest ↔ Faced toInt parser.frames text result rest) :
    Attempts (fun _ => Refuted wanted) (startValue toInt) (Started toInt whole wanted parser.size)
      parser := by
  rcases has.mark isArray (by simp [marks]) with ⟨inner, opens, ready, size⟩
  refine attempts_get_bind ?_
  rw [isArray, size]
  refine attempts_getToken_bind ready ?_
  intro further token sameFrames _
  by_cases isEnd : further.lastToken = .endArray
  · rw [if_pos isEnd]
    rcases token.mark isEnd (by simp [marks]) with ⟨behind, ends, readyBehind, sizeBehind⟩
    refine attempts_handleValue_bind ⟨_, _, behind, hasValue_handled readyBehind sizeBehind, ?_, ?_⟩
    · exact Nat.lt_succ_of_lt ends.lexes.shorter
    · intro result rest
      rw [faces, sameFrames]
      exact faced_of_empty_array opens ends
  · rw [if_neg isEnd]
    refine attempts_setFrames_bind ⟨⟨inner, token, fun result rest => ?_⟩, ?_⟩
    · rw [faces]
      exact faced_of_array opens fun lexes => isEnd (token.type_eq lexes)
    · exact Nat.lt_succ_of_le token.size_le

theorem attempts_startValue {parser : Parser} (has : parser.HasToken whole text)
    (faces : forall result rest, wanted result rest ↔ Faced toInt parser.frames text result rest) :
    Attempts (fun _ => Refuted wanted) (startValue toInt) (Started toInt whole wanted parser.size)
      parser := by
  by_cases isObject : parser.lastToken = .beginObject
  · exact attempts_startValue_object has isObject faces
  by_cases isArray : parser.lastToken = .beginArray
  · exact attempts_startValue_array has isArray faces
  refine attempts_startValue_scalar isObject isArray ?_ ?_
  · intro value meant
    have solid : ¬ (parser.lastToken = .parseError ∨ parser.lastToken = .endOfInput) := by
      rintro (failed | ended)
      · rw [failed] at meant
        cases meant
      · rw [ended] at meant
        cases meant
    rcases has.token solid with ⟨token, behind, lexes, shows, ready⟩
    have size : parser.size = behind.length + 1 := by
      rw [Parser.size, if_neg solid, ready.offers.unread]
    refine ⟨parser.frames, value, behind, hasValue_handled ready size, ?_, fun result rest => ?_⟩
    · rw [size]
      exact Nat.lt_succ_self _
    · rw [faces]
      refine faced_of_scalar lexes fun other => ?_
      exact ⟨(has.only other).1.scalar.trans meant, has.rest_eq ready other⟩
  · intro none result rest
    rw [faces]
    refine not_faced fun lexes => ⟨(has.only lexes).1.scalar.trans none, ?_, ?_⟩
    · rintro rfl
      exact isArray (has.type_eq lexes)
    · rintro rfl
      exact isObject (has.type_eq lexes)

/-! ## The whole text -/

theorem attempts_parseRound {stage : ParseStage} {parser : Parser}
    (faces : Faces toInt whole wanted stage parser) :
    Attempts (fun _ => Refuted wanted) (parseRound toInt stage)
      (RoundEnds toInt whole wanted parser.size) parser := by
  cases stage with
  | value =>
      rcases faces with ⟨text, has, same⟩
      refine (attempts_startValue has same).bind ?_
      intro complete next started
      cases complete with
      | false => exact started
      | true =>
          rcases started with ⟨frames, value, behind, hasValue, shorter, closes⟩
          refine (attempts_evaluateState hasValue closes).weaken (fun _ refuted => refuted) ?_
          intro outcome last ends
          cases outcome with
          | inl stage => exact ⟨ends.1, Nat.lt_of_lt_of_le ends.2 shorter⟩
          | inr _ => exact ends
  | stateEvaluation =>
      rcases faces with ⟨frames, value, text, hasValue, closes⟩
      rw [hasValue.size]
      exact attempts_evaluateState hasValue closes

theorem faces_of_hasToken {parser : Parser} (frames : parser.frames = []) (has : parser.HasToken whole text) :
    Faces toInt whole (fun value rest => Reads toInt (.value value) text rest) .value parser := by
  refine ⟨text, has, fun result rest => ?_⟩
  rw [frames]
  constructor
  · exact fun reads => ⟨result, rest, reads, rfl, rfl⟩
  · rintro ⟨value, behind, reads, rfl, rfl⟩
    exact reads

/-- From the first token of a text the parser comes to its value, if it has one. -/
theorem attempts_saxParseInternal {parser : Parser} (frames : parser.frames = [])
    (has : parser.HasToken whole text) :
    Attempts (fun _ => Refuted (fun value rest => Reads toInt (.value value) text rest))
      (saxParseInternal toInt) (fun _ last => forall value rest,
        Reads toInt (.value value) text rest ↔ value = last.root ∧ rest = last.lexer.unread) parser := by
  refine attempts_loop (parseRound toInt) size
    (Faces toInt whole fun value rest => Reads toInt (.value value) text rest) ?_
    (faces_of_hasToken frames has) (size_lt parser)
  intro stage parser faces
  refine (attempts_parseRound faces).weaken (fun _ refuted => refuted) ?_
  intro outcome next ends
  cases outcome with
  | inl stage => exact ends
  | inr _ => exact ends

/-- What the parser reads of a file: a byte order mark in front of it is
skipped, and a part of one is an error. -/
def contents (text : List Byte) : Option (List Byte) :=
  if text.head? = some 0xEF then
    if [0xEF, 0xBB, 0xBF].isPrefixOf text then some (text.drop 3) else none
  else some text

theorem establishes_skipBom : Establishes (fun lexer => lexer.Stands text []) Lexer.skipBom
    fun valid lexer => if valid = true then Exists fun body => contents text = some body ∧ lexer.Offers body
      else contents text = none := by
  refine Lexer.establishes_get.bind_value ?_
  by_cases marked : text.head? = some 0xEF
  · rw [if_pos marked]
    rintro lexer ⟨stands, _⟩
    rw [contents, if_pos marked]
    by_cases whole : [0xEF, 0xBB, 0xBF].isPrefixOf text = true
    · rcases List.isPrefixOf_iff_prefix.mp whole with ⟨body, rfl⟩
      have same : (Lexer.nextAre [0xBB, 0xBF] lexer).1 = true ∧
          (Lexer.nextAre [0xBB, 0xBF] lexer).2.Stands body [] :=
        Lexer.establishes_nextAre lexer stands
      rcases same with ⟨valid, after⟩
      rw [if_pos valid, if_pos whole]
      exact ⟨body, rfl, after.offers⟩
    · have different : ¬ (Lexer.nextAre [0xBB, 0xBF] lexer).1 = true := by
        intro same
        rcases Lexer.establishes_nextAre_only lexer stands same with ⟨rest, split, _⟩
        cases text with
        | nil => cases marked
        | cons first others =>
            cases Option.some.inj marked
            rw [List.tail_cons] at split
            exact whole (List.isPrefixOf_iff_prefix.mpr ⟨rest, by rw [split]; rfl⟩)
      rw [if_neg different, if_neg whole]
  · rw [if_neg marked]
    refine Lexer.establishes_unget.bind fun _ lexer after => ?_
    rw [contents, if_neg marked]
    exact ⟨text, rfl, after.1⟩

theorem hasScanned_first (text : List Byte) :
    (Lexer.scan (Lexer.initial text)).2.HasScanned text ((contents text).getD [])
      (Lexer.scan (Lexer.initial text)).1 := by
  have start : Establishes (fun lexer => lexer.Stands text [] ∧ lexer.Placed text)
      (do
        if <- Lexer.skipBom then Lexer.scanNext
        else Lexer.fail "invalid BOM; must be 0xEF 0xBB 0xBF if given")
      fun type lexer => lexer.HasScanned text ((contents text).getD []) type := by
    refine (establishes_skipBom.and Lexer.establishes_skipBom_placed).bind fun valid => ?_
    cases valid with
    | false =>
        rintro lexer ⟨none, placed⟩
        rw [show contents text = .none from none]
        exact ⟨placed.moved rfl rfl rfl rfl, Nat.zero_le _, .inl rfl,
          fun lexes => absurd lexes.shorter (Nat.not_lt_zero _)⟩
    | true =>
        rintro lexer ⟨⟨body, found, offers⟩, placed⟩
        have within : body.length ≤ text.length := by
          rcases placed with ⟨read, past, split, _⟩
          rw [split, offers.unread, List.length_append]
          exact Nat.le_add_left _ _
        rw [found]
        exact Lexer.establishes_scanNext_ready within lexer ⟨placed, offers⟩
  exact start (Lexer.initial text) ⟨⟨rfl, rfl, rfl⟩, Lexer.placed_initial text⟩

theorem not_reads_nil {value : Json} {rest : List Byte} : ¬ Reads toInt (.value value) [] rest := by
  intro reads
  rcases reads.begins with ⟨token, ⟨behind, lexes⟩, _⟩
  exact absurd lexes.shorter (Nat.not_lt_zero _)

theorem parse_eq_bind (toInt : FiniteDouble -> Int32) (text : List Byte) : parse toInt text =
    (saxParseInternal toInt ⟨(Lexer.scan (Lexer.initial text)).2,
      (Lexer.scan (Lexer.initial text)).1, .null, []⟩).bind fun outcome => .ok outcome.2.root :=
  rfl

theorem parse_cases (toInt : FiniteDouble -> Int32) (text : List Byte) :
    match parse toInt text with
    | .ok root => Exists fun unread => forall value rest,
        Reads toInt (.value value) ((contents text).getD []) rest ↔ value = root ∧ rest = unread
    | .error _ => forall value rest, ¬ Reads toInt (.value value) ((contents text).getD []) rest := by
  have attempts : Attempts _ (saxParseInternal toInt) _
      ⟨(Lexer.scan (Lexer.initial text)).2, (Lexer.scan (Lexer.initial text)).1, .null, []⟩ :=
    attempts_saxParseInternal rfl (hasScanned_first text)
  rw [parse_eq_bind]
  unfold Attempts at attempts
  rcases outcome : saxParseInternal toInt _ with problem | ⟨_, last⟩
  all_goals rw [outcome] at attempts
  · exact attempts
  · exact ⟨last.lexer.unread, attempts⟩

/-- The parser gives a value exactly if the file begins with a text of it. -/
theorem parse_eq_ok_iff {text : List Byte} {cfg : Json} : parse toInt text = .ok cfg ↔
    Exists fun body => contents text = some body ∧ Exists fun rest =>
      Reads toInt (.value cfg) body rest := by
  have cases := parse_cases toInt text
  constructor
  · intro parsed
    rw [parsed] at cases
    rcases cases with ⟨unread, same⟩
    have reads := (same cfg unread).mpr ⟨rfl, rfl⟩
    cases found : contents text with
    | none =>
        rw [found] at reads
        exact absurd reads not_reads_nil
    | some body =>
        rw [found] at reads
        exact ⟨body, rfl, unread, reads⟩
  · rintro ⟨body, found, rest, reads⟩
    rw [found] at cases
    rcases parsed : parse toInt text with problem | root
    · rw [parsed] at cases
      exact absurd reads (cases cfg rest)
    · rw [parsed] at cases
      rcases cases with ⟨unread, same⟩
      rw [((same cfg rest).mp reads).1]

/-- A text begins with one value at most. -/
theorem reads_unique {text body : List Byte} (found : contents text = some body) {value other : Json}
    {rest place : List Byte} (reads : Reads toInt (.value value) body rest)
    (again : Reads toInt (.value other) body place) : other = value ∧ place = rest := by
  have cases := parse_cases toInt text
  rw [found] at cases
  rcases parsed : parse toInt text with problem | root
  · rw [parsed] at cases
    exact absurd reads (cases value rest)
  · rw [parsed] at cases
    rcases cases with ⟨unread, same⟩
    rcases (same value rest).mp reads with ⟨rfl, rfl⟩
    exact (same other place).mp again

end Parser

end CoreBank
