import CoreBank.Server.JsonParser
import CoreBank.Server.JsonTokens

namespace CoreBank

open Foundation

/-!
# The JSON texts

The texts of the values that the parser keeps, over the tokens of the lexer.
Elements of arrays are not kept, and of the members of an object with the same
key the last one is.
-/

/-- What a token is a value of, if it is one by itself. -/
def Token.scalar (toInt : FiniteDouble -> Int32) : Token -> Option Json
  | .mark .literalTrue => some (.boolean true)
  | .mark .literalFalse => some (.boolean false)
  | .mark .literalNull => some .null
  | .mark _ => none
  | .string characters => some (.string (encode characters))
  | .number (.integer value) => some (.integer value)
  | .number (.float value) => value.map fun number => .float (toInt number)

/-- The text begins with a key and its separator. -/
def LexesKey (text key rest : List Byte) : Prop :=
  Exists fun characters => Exists fun behind => Lexes text (.string characters) behind ∧
    key = encode characters ∧ Lexes behind (.mark .nameSeparator) rest

/-- What a text begins with: a value, or what follows an element of an array or
the members of an object up to its end. -/
inductive Phrase where
  | value (value : Json)
  | elements
  | members (earlier whole : List (List Byte × Json))

/-- The text begins with the phrase, and goes on with the rest. -/
inductive Reads (toInt : FiniteDouble -> Int32) : Phrase -> List Byte -> List Byte -> Prop where
  | scalar {text rest : List Byte} {token : Token} {value : Json} (lexes : Lexes text token rest)
      (meant : token.scalar toInt = some value) : Reads toInt (.value value) text rest
  | emptyArray {text inner rest : List Byte} (opens : Lexes text (.mark .beginArray) inner)
      (closes : Lexes inner (.mark .endArray) rest) : Reads toInt (.value .array) text rest
  | array {text inner behind rest : List Byte} {element : Json}
      (opens : Lexes text (.mark .beginArray) inner) (first : Reads toInt (.value element) inner behind)
      (others : Reads toInt .elements behind rest) : Reads toInt (.value .array) text rest
  | emptyObject {text inner rest : List Byte} (opens : Lexes text (.mark .beginObject) inner)
      (closes : Lexes inner (.mark .endObject) rest) : Reads toInt (.value (.object [])) text rest
  | object {text inner key start behind rest : List Byte} {value : Json}
      {whole : List (List Byte × Json)} (opens : Lexes text (.mark .beginObject) inner)
      (named : LexesKey inner key start) (first : Reads toInt (.value value) start behind)
      (others : Reads toInt (.members (assignMember key value []) whole) behind rest) :
      Reads toInt (.value (.object whole)) text rest
  | lastElement {text rest : List Byte} (closes : Lexes text (.mark .endArray) rest) :
      Reads toInt .elements text rest
  | nextElement {text start behind rest : List Byte} {element : Json}
      (comma : Lexes text (.mark .valueSeparator) start) (next : Reads toInt (.value element) start behind)
      (others : Reads toInt .elements behind rest) : Reads toInt .elements text rest
  | lastMember {text rest : List Byte} {whole : List (List Byte × Json)}
      (closes : Lexes text (.mark .endObject) rest) : Reads toInt (.members whole whole) text rest
  | nextMember {text inner key start behind rest : List Byte} {value : Json}
      {earlier whole : List (List Byte × Json)} (comma : Lexes text (.mark .valueSeparator) inner)
      (named : LexesKey inner key start) (next : Reads toInt (.value value) start behind)
      (others : Reads toInt (.members (assignMember key value earlier) whole) behind rest) :
      Reads toInt (.members earlier whole) text rest

variable {toInt : FiniteDouble -> Int32} {text rest : List Byte}

/-! ## What a phrase begins with -/

theorem reads_value_iff {value : Json} : Reads toInt (.value value) text rest ↔
    (Exists fun token => Lexes text token rest ∧ token.scalar toInt = some value) ∨
    (value = .array ∧ Exists fun inner => Lexes text (.mark .beginArray) inner ∧
      (Lexes inner (.mark .endArray) rest ∨ Exists fun element => Exists fun behind =>
        Reads toInt (.value element) inner behind ∧ Reads toInt .elements behind rest)) ∨
    Exists fun whole => value = .object whole ∧ Exists fun inner =>
      Lexes text (.mark .beginObject) inner ∧
      ((whole = [] ∧ Lexes inner (.mark .endObject) rest) ∨ Exists fun key => Exists fun start =>
        LexesKey inner key start ∧ Exists fun member => Exists fun behind =>
          Reads toInt (.value member) start behind ∧
            Reads toInt (.members (assignMember key member []) whole) behind rest) := by
  constructor
  · intro reads
    cases reads with
    | scalar lexes meant => exact .inl ⟨_, lexes, meant⟩
    | emptyArray opens closes => exact .inr (.inl ⟨rfl, _, opens, .inl closes⟩)
    | array opens first others => exact .inr (.inl ⟨rfl, _, opens, .inr ⟨_, _, first, others⟩⟩)
    | emptyObject opens closes => exact .inr (.inr ⟨[], rfl, _, opens, .inl ⟨rfl, closes⟩⟩)
    | object opens named first others =>
        exact .inr (.inr ⟨_, rfl, _, opens, .inr ⟨_, _, named, _, _, first, others⟩⟩)
  · rintro (⟨token, lexes, meant⟩ | ⟨rfl, inner, opens, closes | ⟨element, behind, first, others⟩⟩ |
      ⟨whole, rfl, inner, opens, ⟨rfl, closes⟩ | ⟨key, start, named, member, behind, first, others⟩⟩)
    · exact .scalar lexes meant
    · exact .emptyArray opens closes
    · exact .array opens first others
    · exact .emptyObject opens closes
    · exact .object opens named first others

theorem reads_elements_iff : Reads toInt .elements text rest ↔ Lexes text (.mark .endArray) rest ∨
    Exists fun start => Lexes text (.mark .valueSeparator) start ∧ Exists fun element =>
      Exists fun behind => Reads toInt (.value element) start behind ∧ Reads toInt .elements behind rest := by
  constructor
  · intro reads
    cases reads with
    | lastElement closes => exact .inl closes
    | nextElement comma next others => exact .inr ⟨_, comma, _, _, next, others⟩
  · rintro (closes | ⟨start, comma, element, behind, next, others⟩)
    · exact .lastElement closes
    · exact .nextElement comma next others

theorem reads_members_iff {earlier whole : List (List Byte × Json)} :
    Reads toInt (.members earlier whole) text rest ↔
      (whole = earlier ∧ Lexes text (.mark .endObject) rest) ∨
      Exists fun inner => Lexes text (.mark .valueSeparator) inner ∧ Exists fun key => Exists fun start =>
        LexesKey inner key start ∧ Exists fun value => Exists fun behind =>
          Reads toInt (.value value) start behind ∧
            Reads toInt (.members (assignMember key value earlier) whole) behind rest := by
  constructor
  · intro reads
    cases reads with
    | lastMember closes => exact .inl ⟨rfl, closes⟩
    | nextMember comma named next others =>
        exact .inr ⟨_, comma, _, _, named, _, _, next, others⟩
  · rintro (⟨rfl, closes⟩ | ⟨inner, comma, key, start, named, value, behind, next, others⟩)
    · exact .lastMember closes
    · exact .nextMember comma named next others

/-- Every value begins with a token. -/
theorem Reads.begins {value : Json} (reads : Reads toInt (.value value) text rest) :
    Exists fun token => (Exists fun behind => Lexes text token behind) ∧
      (token = .mark .beginArray ∨ token = .mark .beginObject ∨ token.scalar toInt = some value) := by
  rcases reads_value_iff.mp reads with ⟨token, lexes, meant⟩ | ⟨_, inner, opens, _⟩ | ⟨_, _, inner, opens, _⟩
  · exact ⟨token, ⟨_, lexes⟩, .inr (.inr meant)⟩
  · exact ⟨_, ⟨inner, opens⟩, .inl rfl⟩
  · exact ⟨_, ⟨inner, opens⟩, .inr (.inl rfl)⟩

theorem Lexes.shorter {token : Token} (lexes : Lexes text token rest) : rest.length < text.length := by
  rcases lexes with ⟨space, word, rfl, _, written⟩
  rcases written.begins with ⟨first, others, rfl, _⟩
  simp only [List.length_append, List.length_cons]
  omega

/-! ## What the frames that are open still demand -/

/-- A value is complete; the text closes what is open around it, and the whole
is the result. -/
def Closes (toInt : FiniteDouble -> Int32) :
    List Frame -> Json -> List Byte -> Json -> List Byte -> Prop
  | [], value, text, result, rest => result = value ∧ rest = text
  | .array :: outer, _, text, result, rest =>
      Exists fun behind => Reads toInt .elements text behind ∧
        Closes toInt outer .array behind result rest
  | .object members key :: outer, value, text, result, rest =>
      Exists fun whole => Exists fun behind =>
        Reads toInt (.members (assignMember key value members) whole) text behind ∧
          Closes toInt outer (.object whole) behind result rest

/-! ## Texts that begin with one token only -/

/-- The text begins with the mark, and with no other token. -/
structure BeginsWith (text : List Byte) (type : TokenType) (rest : List Byte) : Prop where
  lexes : Lexes text (.mark type) rest
  only : forall {token : Token} {other : List Byte}, Lexes text token other ->
    token = .mark type ∧ other = rest

/-- The text begins with the key, and with no other one. -/
structure BeginsWithKey (text key rest : List Byte) : Prop where
  named : LexesKey text key rest
  only : forall {other behind : List Byte}, LexesKey text other behind -> other = key ∧ behind = rest

section OneToken

variable {inner start behind key : List Byte} {value result : Json} {outer : List Frame}
  {members : List (List Byte × Json)}

theorem BeginsWith.type_eq {type other : TokenType} (begins : BeginsWith text type rest)
    (lexes : Lexes text (.mark other) behind) : other = type := by
  cases (begins.only lexes).1
  rfl

theorem closes_array_of_comma (begins : BeginsWith text .valueSeparator start) :
    Closes toInt (.array :: outer) value text result rest ↔
      Exists fun element => Exists fun behind => Reads toInt (.value element) start behind ∧
        Closes toInt (.array :: outer) element behind result rest := by
  constructor
  · rintro ⟨last, reads, closes⟩
    rcases reads_elements_iff.mp reads with ends | ⟨other, comma, element, behind, next, others⟩
    · cases begins.type_eq ends
    · rcases (begins.only comma).2
      exact ⟨element, behind, next, last, others, closes⟩
  · rintro ⟨element, behind, next, last, others, closes⟩
    exact ⟨last, .nextElement begins.lexes next others, closes⟩

theorem closes_array_of_end (begins : BeginsWith text .endArray behind) :
    Closes toInt (.array :: outer) value text result rest ↔
      Closes toInt outer .array behind result rest := by
  constructor
  · rintro ⟨last, reads, closes⟩
    rcases reads_elements_iff.mp reads with ends | ⟨other, comma, _⟩
    · rcases (begins.only ends).2
      exact closes
    · cases begins.type_eq comma
  · exact fun closes => ⟨behind, .lastElement begins.lexes, closes⟩

theorem not_closes_array (noComma : forall {place : List Byte}, ¬ Lexes text (.mark .valueSeparator) place)
    (noEnd : forall {place : List Byte}, ¬ Lexes text (.mark .endArray) place) :
    ¬ Closes toInt (.array :: outer) value text result rest := by
  rintro ⟨last, reads, _⟩
  rcases reads_elements_iff.mp reads with ends | ⟨start, comma, _⟩
  · exact noEnd ends
  · exact noComma comma

theorem closes_object_of_comma {old : List Byte} (begins : BeginsWith text .valueSeparator inner)
    (keyed : BeginsWithKey inner key start) :
    Closes toInt (.object members old :: outer) value text result rest ↔
      Exists fun member => Exists fun behind => Reads toInt (.value member) start behind ∧
        Closes toInt (.object (assignMember old value members) key :: outer) member behind result rest := by
  constructor
  · rintro ⟨whole, last, reads, closes⟩
    rcases reads_members_iff.mp reads with ⟨_, ends⟩ |
      ⟨between, comma, other, place, named, member, behind, next, others⟩
    · cases begins.type_eq ends
    · rcases (begins.only comma).2
      rcases keyed.only named with ⟨rfl, rfl⟩
      exact ⟨member, behind, next, whole, last, others, closes⟩
  · rintro ⟨member, behind, next, whole, last, others, closes⟩
    exact ⟨whole, last, .nextMember begins.lexes keyed.named next others, closes⟩

theorem closes_object_of_end {old : List Byte} (begins : BeginsWith text .endObject behind) :
    Closes toInt (.object members old :: outer) value text result rest ↔
      Closes toInt outer (.object (assignMember old value members)) behind result rest := by
  constructor
  · rintro ⟨whole, last, reads, closes⟩
    rcases reads_members_iff.mp reads with ⟨rfl, ends⟩ | ⟨between, comma, _⟩
    · rcases (begins.only ends).2
      exact closes
    · cases begins.type_eq comma
  · exact fun closes => ⟨_, behind, .lastMember begins.lexes, closes⟩

theorem not_closes_object_of_comma {old : List Byte} (begins : BeginsWith text .valueSeparator inner)
    (unnamed : forall key start, ¬ LexesKey inner key start) :
    ¬ Closes toInt (.object members old :: outer) value text result rest := by
  rintro ⟨whole, last, reads, _⟩
  rcases reads_members_iff.mp reads with ⟨_, ends⟩ | ⟨between, comma, other, place, named, _⟩
  · cases begins.type_eq ends
  · rcases (begins.only comma).2
    exact unnamed other place named

theorem not_closes_object {old : List Byte}
    (noComma : forall {place : List Byte}, ¬ Lexes text (.mark .valueSeparator) place)
    (noEnd : forall {place : List Byte}, ¬ Lexes text (.mark .endObject) place) :
    ¬ Closes toInt (.object members old :: outer) value text result rest := by
  rintro ⟨whole, last, reads, _⟩
  rcases reads_members_iff.mp reads with ⟨_, ends⟩ | ⟨between, comma, _⟩
  · exact noEnd ends
  · exact noComma comma

/-- A value in front of what the frames demand. -/
def Faced (toInt : FiniteDouble -> Int32) (frames : List Frame) (text : List Byte) (result : Json)
    (rest : List Byte) : Prop :=
  Exists fun value => Exists fun behind => Reads toInt (.value value) text behind ∧
    Closes toInt frames value behind result rest

theorem faced_of_scalar {token : Token} (lexes : Lexes text token behind)
    (only : forall {other : Token} {place : List Byte}, Lexes text other place ->
      other.scalar toInt = some value ∧ place = behind) :
    Faced toInt outer text result rest ↔ Closes toInt outer value behind result rest := by
  constructor
  · rintro ⟨found, last, reads, closes⟩
    rcases reads_value_iff.mp reads with ⟨other, found, meant⟩ | ⟨_, _, opens, _⟩ | ⟨_, _, _, opens, _⟩
    · rcases only found with ⟨same, rfl⟩
      cases same.symm.trans meant
      exact closes
    · cases (only opens).1
    · cases (only opens).1
  · exact fun closes => ⟨value, behind, .scalar lexes (only lexes).1, closes⟩

theorem not_faced (only : forall {token : Token} {place : List Byte}, Lexes text token place ->
      token.scalar toInt = none ∧ token ≠ .mark .beginArray ∧ token ≠ .mark .beginObject) :
    ¬ Faced toInt outer text result rest := by
  rintro ⟨value, behind, reads, _⟩
  rcases reads.begins with ⟨token, ⟨place, lexes⟩, begins⟩
  rcases only lexes with ⟨none, noArray, noObject⟩
  rcases begins with array | object | some
  · exact noArray array
  · exact noObject object
  · cases none.symm.trans some

theorem faced_of_empty_array (opens : BeginsWith text .beginArray inner)
    (ends : BeginsWith inner .endArray behind) :
    Faced toInt outer text result rest ↔ Closes toInt outer .array behind result rest := by
  constructor
  · rintro ⟨value, last, reads, closes⟩
    rcases reads_value_iff.mp reads with ⟨token, lexes, meant⟩ |
      ⟨rfl, between, again, empty | ⟨element, _, first, _⟩⟩ | ⟨_, rfl, between, other, _⟩
    · rw [(opens.only lexes).1] at meant
      cases meant
    · rcases (opens.only again).2
      rcases (ends.only empty).2
      exact closes
    · rcases (opens.only again).2
      rcases first.begins with ⟨token, ⟨_, lexes⟩, begins⟩
      rw [(ends.only lexes).1] at begins
      rcases begins with begins | begins | begins <;> cases begins
    · cases opens.type_eq other
  · exact fun closes => ⟨.array, behind, .emptyArray opens.lexes ends.lexes, closes⟩

theorem faced_of_array (opens : BeginsWith text .beginArray inner)
    (goesOn : forall {behind : List Byte}, ¬ Lexes inner (.mark .endArray) behind) :
    Faced toInt outer text result rest ↔ Faced toInt (.array :: outer) inner result rest := by
  constructor
  · rintro ⟨value, last, reads, closes⟩
    rcases reads_value_iff.mp reads with ⟨token, lexes, meant⟩ |
      ⟨rfl, between, again, empty | ⟨element, behind, first, others⟩⟩ | ⟨_, rfl, between, other, _⟩
    · rw [(opens.only lexes).1] at meant
      cases meant
    · rcases (opens.only again).2
      exact absurd empty goesOn
    · rcases (opens.only again).2
      exact ⟨element, behind, first, last, others, closes⟩
    · cases opens.type_eq other
  · rintro ⟨element, behind, first, last, others, closes⟩
    exact ⟨.array, last, .array opens.lexes first others, closes⟩

theorem faced_of_empty_object (opens : BeginsWith text .beginObject inner)
    (ends : BeginsWith inner .endObject behind) :
    Faced toInt outer text result rest ↔ Closes toInt outer (.object []) behind result rest := by
  constructor
  · rintro ⟨value, last, reads, closes⟩
    rcases reads_value_iff.mp reads with ⟨token, lexes, meant⟩ | ⟨rfl, between, other, _⟩ |
      ⟨_, rfl, between, again, ⟨rfl, empty⟩ | ⟨key, start, ⟨characters, _, lexes, _⟩, _⟩⟩
    · rw [(opens.only lexes).1] at meant
      cases meant
    · cases opens.type_eq other
    · rcases (opens.only again).2
      rcases (ends.only empty).2
      exact closes
    · rcases (opens.only again).2
      cases (ends.only lexes).1
  · exact fun closes => ⟨_, behind, .emptyObject opens.lexes ends.lexes, closes⟩

theorem faced_of_object (opens : BeginsWith text .beginObject inner) (keyed : BeginsWithKey inner key start)
    (goesOn : forall {behind : List Byte}, ¬ Lexes inner (.mark .endObject) behind) :
    Faced toInt outer text result rest ↔ Faced toInt (.object [] key :: outer) start result rest := by
  constructor
  · rintro ⟨value, last, reads, closes⟩
    rcases reads_value_iff.mp reads with ⟨token, lexes, meant⟩ | ⟨rfl, between, other, _⟩ |
      ⟨whole, rfl, between, again, ⟨rfl, empty⟩ | ⟨other, place, named, member, behind, first, others⟩⟩
    · rw [(opens.only lexes).1] at meant
      cases meant
    · cases opens.type_eq other
    · rcases (opens.only again).2
      exact absurd empty goesOn
    · rcases (opens.only again).2
      rcases keyed.only named with ⟨rfl, rfl⟩
      exact ⟨member, behind, first, whole, last, others, closes⟩
  · rintro ⟨member, behind, first, whole, last, others, closes⟩
    exact ⟨_, last, .object opens.lexes keyed.named first others, closes⟩

theorem not_faced_of_object (opens : BeginsWith text .beginObject inner)
    (unnamed : forall key start, ¬ LexesKey inner key start)
    (goesOn : forall {behind : List Byte}, ¬ Lexes inner (.mark .endObject) behind) :
    ¬ Faced toInt outer text result rest := by
  rintro ⟨value, last, reads, _⟩
  rcases reads_value_iff.mp reads with ⟨token, lexes, meant⟩ | ⟨rfl, between, other, _⟩ |
    ⟨whole, rfl, between, again, ⟨rfl, empty⟩ | ⟨other, place, named, _⟩⟩
  · rw [(opens.only lexes).1] at meant
    cases meant
  · cases opens.type_eq other
  · rcases (opens.only again).2
    exact goesOn empty
  · rcases (opens.only again).2
    exact unnamed other place named

end OneToken

end CoreBank
