import CoreBank.Server.JsonTexts

namespace CoreBank

open Foundation

/-!
# Configuration files that are cut short

The parser stops behind the value.  What stands behind the closing brace of the
configuration is therefore not looked at, and a file that ends anywhere before
it is not loaded, so that nothing is stored of it.
-/

variable {toInt : FiniteDouble -> Int32} {text rest more : List Byte}

/-! ## What has been read -/

/-- A token is the same in front of another rest, but a number must not go on there. -/
theorem Lexes.exists_used {token : Token} (lexes : Lexes text token rest) :
    Exists fun used => text = used ++ rest ∧ used ≠ [] ∧ forall more : List Byte,
      (more.head? = rest.head? ∨ forall value, token ≠ .number value) -> Lexes (used ++ more) token more := by
  rcases lexes with ⟨space, word, rfl, white, written⟩
  refine ⟨space ++ word, (List.append_assoc _ _ _).symm, ?_, fun more same => ?_⟩
  · rcases written.begins with ⟨first, others, rfl, _⟩
    exact List.append_ne_nil_of_right_ne_nil _ (List.cons_ne_nil _ _)
  · refine ⟨space, word, List.append_assoc _ _ _, white, ?_⟩
    cases written with
    | mark listed => exact .mark listed
    | string written => exact .string written
    | number begins path done =>
        refine .number begins path ?_
        rcases same with same | other
        · rw [same]
          exact done
        · exact absurd rfl (other _)

theorem Lexes.exists_used_mark {type : TokenType} (lexes : Lexes text (.mark type) rest) :
    Exists fun used => text = used ++ rest ∧ used ≠ [] ∧
      forall more, Lexes (used ++ more) (.mark type) more := by
  rcases lexes.exists_used with ⟨used, split, filled, again⟩
  refine ⟨used, split, filled, fun more => again more (.inr ?_)⟩
  intro value impossible
  cases impossible

theorem LexesKey.exists_used {key : List Byte} (named : LexesKey text key rest) :
    Exists fun used => text = used ++ rest ∧ forall more, LexesKey (used ++ more) key more := by
  rcases named with ⟨characters, behind, lexes, same, colon⟩
  rcases lexes.exists_used with ⟨used, rfl, _, again⟩
  rcases colon.exists_used_mark with ⟨mark, rfl, _, colonAgain⟩
  refine ⟨used ++ mark, (List.append_assoc _ _ _).symm, fun more => ?_⟩
  refine ⟨characters, mark ++ more, ?_, same, colonAgain more⟩
  rw [List.append_assoc]
  refine again (mark ++ more) (.inr ?_)
  intro value impossible
  cases impossible

namespace Json

/-- A value in brackets or braces. -/
def IsBracketed : Json -> Prop
  | .array => True
  | .object _ => True
  | _ => False

end Json

/-- The phrase is over in front of the other rest too. -/
def Phrase.Stops (rest more : List Byte) : Phrase -> Prop
  | .value found => more.head? = rest.head? ∨ found.IsBracketed
  | .elements => True
  | .members _ _ => True

theorem head_append {front : List Byte} (filled : front ≠ []) (more rest : List Byte) :
    (front ++ more).head? = (front ++ rest).head? := by
  rw [List.head?_append_of_ne_nil _ filled, List.head?_append_of_ne_nil _ filled]

theorem Token.not_isBracketed {token : Token} {value : Json} (meant : token.scalar toInt = some value) :
    ¬ value.IsBracketed := by
  rcases token with type | characters | number | number
  · cases type <;> cases meant <;> exact id
  · cases meant
    exact id
  · cases meant
    exact id
  · cases number with
    | none => cases meant
    | some number =>
        cases meant
        exact id

/-- A phrase is the same in front of another rest. -/
theorem Reads.exists_used {phrase : Phrase} (reads : Reads toInt phrase text rest) :
    Exists fun used => text = used ++ rest ∧ used ≠ [] ∧ forall more : List Byte,
      phrase.Stops rest more -> Reads toInt phrase (used ++ more) more := by
  induction reads with
  | scalar lexes meant =>
      rcases lexes.exists_used with ⟨used, split, filled, again⟩
      refine ⟨used, split, filled, fun more stops => .scalar (again more ?_) meant⟩
      exact .inl (stops.resolve_right (Token.not_isBracketed meant))
  | emptyArray opens closes =>
      rcases opens.exists_used_mark with ⟨bracket, rfl, filled, opensAgain⟩
      rcases closes.exists_used_mark with ⟨used, rfl, _, closesAgain⟩
      refine ⟨bracket ++ used, (List.append_assoc _ _ _).symm, List.append_ne_nil_of_left_ne_nil filled _, ?_⟩
      intro more _
      rw [List.append_assoc]
      exact .emptyArray (opensAgain _) (closesAgain more)
  | array opens _ _ firstUsed othersUsed =>
      rcases opens.exists_used_mark with ⟨bracket, rfl, filled, opensAgain⟩
      rcases firstUsed with ⟨element, rfl, _, firstAgain⟩
      rcases othersUsed with ⟨used, rfl, usedFilled, othersAgain⟩
      refine ⟨bracket ++ (element ++ used), by simp only [List.append_assoc],
        List.append_ne_nil_of_left_ne_nil filled _, fun more _ => ?_⟩
      rw [List.append_assoc, List.append_assoc]
      exact .array (opensAgain _) (firstAgain _ (.inl (head_append usedFilled _ _))) (othersAgain more trivial)
  | emptyObject opens closes =>
      rcases opens.exists_used_mark with ⟨brace, rfl, filled, opensAgain⟩
      rcases closes.exists_used_mark with ⟨used, rfl, _, closesAgain⟩
      refine ⟨brace ++ used, (List.append_assoc _ _ _).symm, List.append_ne_nil_of_left_ne_nil filled _, ?_⟩
      intro more _
      rw [List.append_assoc]
      exact .emptyObject (opensAgain _) (closesAgain more)
  | object opens named _ _ firstUsed othersUsed =>
      rcases opens.exists_used_mark with ⟨brace, rfl, filled, opensAgain⟩
      rcases named.exists_used with ⟨name, rfl, namedAgain⟩
      rcases firstUsed with ⟨member, rfl, _, firstAgain⟩
      rcases othersUsed with ⟨used, rfl, usedFilled, othersAgain⟩
      refine ⟨brace ++ (name ++ (member ++ used)), by simp only [List.append_assoc],
        List.append_ne_nil_of_left_ne_nil filled _, fun more _ => ?_⟩
      rw [List.append_assoc, List.append_assoc, List.append_assoc]
      exact .object (opensAgain _) (namedAgain _) (firstAgain _ (.inl (head_append usedFilled _ _)))
        (othersAgain more trivial)
  | lastElement closes =>
      rcases closes.exists_used_mark with ⟨used, split, filled, again⟩
      exact ⟨used, split, filled, fun more _ => .lastElement (again more)⟩
  | nextElement comma _ _ nextUsed othersUsed =>
      rcases comma.exists_used_mark with ⟨separator, rfl, filled, commaAgain⟩
      rcases nextUsed with ⟨element, rfl, _, nextAgain⟩
      rcases othersUsed with ⟨used, rfl, usedFilled, othersAgain⟩
      refine ⟨separator ++ (element ++ used), by simp only [List.append_assoc],
        List.append_ne_nil_of_left_ne_nil filled _, fun more _ => ?_⟩
      rw [List.append_assoc, List.append_assoc]
      exact .nextElement (commaAgain _) (nextAgain _ (.inl (head_append usedFilled _ _)))
        (othersAgain more trivial)
  | lastMember closes =>
      rcases closes.exists_used_mark with ⟨used, split, filled, again⟩
      exact ⟨used, split, filled, fun more _ => .lastMember (again more)⟩
  | nextMember comma named _ _ nextUsed othersUsed =>
      rcases comma.exists_used_mark with ⟨separator, rfl, filled, commaAgain⟩
      rcases named.exists_used with ⟨name, rfl, namedAgain⟩
      rcases nextUsed with ⟨member, rfl, _, nextAgain⟩
      rcases othersUsed with ⟨used, rfl, usedFilled, othersAgain⟩
      refine ⟨separator ++ (name ++ (member ++ used)), by simp only [List.append_assoc],
        List.append_ne_nil_of_left_ne_nil filled _, fun more _ => ?_⟩
      rw [List.append_assoc, List.append_assoc, List.append_assoc]
      exact .nextMember (commaAgain _) (namedAgain _) (nextAgain _ (.inl (head_append usedFilled _ _)))
        (othersAgain more trivial)

/-! ## Shorter texts -/

theorem Reads.unique {value other : Json} {place : List Byte} (reads : Reads toInt (.value value) text rest)
    (again : Reads toInt (.value other) text place) : other = value ∧ place = rest := by
  have found : Parser.contents ([0xEF, 0xBB, 0xBF] ++ text) = some text := rfl
  exact Parser.reads_unique found reads again

theorem TokenText.of_brace {token : Token} (written : TokenText token (0x7B :: text) rest) :
    token = .mark .beginObject := by
  cases written with
  | mark listed =>
      simp only [marks, List.mem_cons, Prod.mk.injEq, List.cons.injEq, List.not_mem_nil, or_false] at listed
      rcases listed with ⟨rfl, impossible, _⟩ | ⟨rfl, impossible, _⟩ | ⟨rfl, _⟩ | ⟨rfl, impossible, _⟩ |
        ⟨rfl, impossible, _⟩ | ⟨rfl, impossible, _⟩ | ⟨rfl, impossible, _⟩ | ⟨rfl, impossible, _⟩ |
        ⟨rfl, impossible, _⟩
      any_goals cases impossible
      rfl
  | number begins =>
      rcases begins with minus | digit
      · cases minus
      · cases digit

/-- A token begins at the first byte that is no white space, also in a longer text. -/
theorem Lexes.head {token : Token} (lexes : Lexes text token rest) (more : List Byte) :
    Exists fun first => Exists fun others => TokenText token (first :: others) rest ∧
      ((text ++ more).dropWhile Lexer.isWhitespace).head? = some first := by
  rcases lexes with ⟨space, word, rfl, white, written⟩
  rcases written.begins with ⟨first, others, rfl, solid⟩
  refine ⟨first, others, written, ?_⟩
  rw [List.append_assoc, List.dropWhile_append_of_pos (List.all_eq_true.mp white), List.cons_append,
    List.cons_append, List.dropWhile_cons_of_neg (Bool.eq_false_iff.mp solid)]
  rfl

theorem Reads.object_inv {members : List (List Byte × Json)}
    (reads : Reads toInt (.value (.object members)) text rest) :
    Exists fun inner => Lexes text (.mark .beginObject) inner := by
  rcases reads_value_iff.mp reads with ⟨token, _, meant⟩ | ⟨same, _⟩ | ⟨_, _, inner, opens, _⟩
  · exact absurd trivial (Token.not_isBracketed meant)
  · cases same
  · exact ⟨inner, opens⟩

/-- A part of an object, from its beginning, is no value. -/
theorem not_reads_of_part {cut gap : List Byte} {members : List (List Byte × Json)}
    (reads : Reads toInt (.value (.object members)) (cut ++ (gap ++ rest)) rest) (filled : gap ≠ [])
    {value : Json} {place : List Byte} : ¬ Reads toInt (.value value) cut place := by
  intro cutReads
  by_cases bracketed : value.IsBracketed
  · rcases cutReads.exists_used with ⟨used, rfl, _, again⟩
    have longer := again (place ++ (gap ++ rest)) (.inr bracketed)
    rw [← List.append_assoc] at longer
    have lengths := congrArg List.length (reads.unique longer).2
    simp only [List.length_append] at lengths
    exact filled (List.length_eq_zero_iff.mp (by omega))
  · rcases reads.object_inv with ⟨inner, opens⟩
    rcases opens.head [] with ⟨brace, _, opening, first⟩
    rw [List.append_nil] at first
    rcases reads_value_iff.mp cutReads with ⟨token, lexes, meant⟩ | ⟨rfl, _⟩ | ⟨_, rfl, _⟩
    · rcases lexes.head (gap ++ rest) with ⟨byte, others, written, found⟩
      have same : byte = brace := Option.some.inj (found.symm.trans first)
      have isBrace : brace = 0x7B := by
        cases opening with
        | mark listed =>
            simp [marks] at listed
            exact listed.1
      rw [same, isBrace] at written
      rw [written.of_brace] at meant
      cases meant
    · exact bracketed trivial
    · exact bracketed trivial

/-! ## Files -/

namespace Parser

theorem contents_eq_some_iff {body : List Byte} : contents text = some body ↔
    text = [0xEF, 0xBB, 0xBF] ++ body ∨ text = body ∧ text.head? ≠ some 0xEF := by
  unfold contents
  split_ifs with marked whole
  · rcases List.isPrefixOf_iff_prefix.mp whole with ⟨behind, rfl⟩
    simp
  · simp only [marked, ne_eq, not_true_eq_false, and_false, or_false, false_iff]
    rintro rfl
    exact whole (List.isPrefixOf_iff_prefix.mpr (List.prefix_append _ _))
  · constructor
    · intro same
      cases same
      exact .inr ⟨rfl, marked⟩
    · rintro (rfl | ⟨rfl, _⟩)
      · exact absurd rfl marked
      · rfl

/-- A file with an object has an end of the object in it: what stands behind it
makes no difference, and without all that stands in front of it there is no value. -/
theorem parse_object {members : List (List Byte × Json)} (parsed : parse toInt text = .ok (.object members)) :
    Exists fun used => used <+: text ∧
      (forall more, parse toInt (used ++ more) = .ok (.object members)) ∧
      forall cut, cut <+: used -> cut ≠ used -> Exists fun what => parse toInt cut = .error what := by
  rcases parse_eq_ok_iff.mp parsed with ⟨body, found, rest, reads⟩
  rcases reads.exists_used with ⟨used, rfl, filled, again⟩
  -- what is left of the object after the cut is not empty
  have part {body gap : List Byte} (split : used = body ++ gap) (missing : gap ≠ []) {value : Json}
      {place : List Byte} : ¬ Reads toInt (.value value) body place := by
    subst split
    rw [List.append_assoc] at reads
    exact not_reads_of_part reads missing
  have fails {cut : List Byte} (noValue : forall body, contents cut = some body ->
      forall value place, ¬ Reads toInt (.value value) body place) :
      Exists fun what => parse toInt cut = .error what := by
    rcases outcome : parse toInt cut with what | value
    · exact ⟨what, rfl⟩
    · rcases parse_eq_ok_iff.mp outcome with ⟨body, found, place, reads⟩
      exact absurd reads (noValue body found value place)
  rcases contents_eq_some_iff.mp found with rfl | ⟨rfl, unmarked⟩
  · refine ⟨[0xEF, 0xBB, 0xBF] ++ used, ⟨rest, List.append_assoc _ _ _⟩, fun more => ?_, ?_⟩
    · refine parse_eq_ok_iff.mpr ⟨used ++ more, ?_, more, again more (.inr trivial)⟩
      exact contents_eq_some_iff.mpr (.inl (List.append_assoc _ _ _))
    · rintro cut ⟨gap, split⟩ shorter
      refine fails fun body cutFound value place => ?_
      rcases contents_eq_some_iff.mp cutFound with rfl | ⟨rfl, cutUnmarked⟩
      · rw [List.append_assoc] at split
        refine part (List.append_cancel_left split).symm ?_
        rintro rfl
        rw [List.append_nil] at split
        exact shorter split
      · cases cut with
        | nil => exact not_reads_nil
        | cons first others =>
            rw [List.cons_append] at split
            exact absurd (congrArg some (List.cons.inj split).1) cutUnmarked
  · refine ⟨used, ⟨rest, rfl⟩, fun more => ?_, ?_⟩
    · refine parse_eq_ok_iff.mpr ⟨used ++ more, ?_, more, again more (.inr trivial)⟩
      refine contents_eq_some_iff.mpr (.inr ⟨rfl, ?_⟩)
      rw [head_append filled more rest]
      exact unmarked
    · rintro cut ⟨gap, rfl⟩ shorter
      refine fails fun body cutFound value place => ?_
      rcases contents_eq_some_iff.mp cutFound with rfl | ⟨rfl, _⟩
      · exact absurd rfl unmarked
      · refine part rfl ?_
        rintro rfl
        exact shorter (List.append_nil cut).symm

end Parser

theorem ofContents_of_ok {cfg : Json} (parsed : Parser.parse toInt text = .ok cfg) :
    ConfigFile.ofContents toInt (some text) = .parsed cfg := by
  simp only [ConfigFile.ofContents, parsed]

/-- Only an object can be loaded. -/
theorem parse_of_loads {path : String} {prior db : DBConnection}
    (loads : (loadConfig path (.ofContents toInt (some text))).run prior = (.ok (), db)) :
    Exists fun members => Parser.parse toInt text = .ok (.object members) := by
  have outcome := loadConfig_outcome path (.ofContents toInt (some text)) prior
  rw [loads] at outcome
  rcases outcome with ⟨cfg, parsed, _, fromFile⟩
  rcases result : Parser.parse toInt text with what | root
  · simp only [ConfigFile.ofContents, result] at parsed
    cases parsed
  · rw [ofContents_of_ok result] at parsed
    cases parsed
    have host := fromFile .host
    cases cfg with
    | object members => exact ⟨members, rfl⟩
    | _ => cases host

/-- A configuration that is loaded ends somewhere in its file.  The same is
loaded whatever stands behind that end, and from a file that is cut anywhere in
front of it nothing is. -/
theorem loadsUpToItsEnd {path : String} {prior db : DBConnection}
    (loads : (loadConfig path (.ofContents toInt (some text))).run prior = (.ok (), db)) :
    Exists fun used => used <+: text ∧
      (forall more, (loadConfig path (.ofContents toInt (some (used ++ more)))).run prior = (.ok (), db)) ∧
      forall cut, cut <+: used -> cut ≠ used -> Exists fun what =>
        (loadConfig path (.ofContents toInt (some cut))).run prior = (.error (.parseError what), prior) := by
  rcases parse_of_loads loads with ⟨members, parsed⟩
  rcases Parser.parse_object parsed with ⟨used, part, same, fails⟩
  refine ⟨used, part, fun more => ?_, fun cut cutPart shorter => ?_⟩
  · rw [ofContents_of_ok (same more)]
    rw [ofContents_of_ok parsed] at loads
    exact loads
  · rcases fails cut cutPart shorter with ⟨what, error⟩
    refine ⟨what, ?_⟩
    simp only [ConfigFile.ofContents, error]
    rfl

theorem encode_of_ascii {characters : List Char}
    (small : forall character, character ∈ characters -> character.toNat < 0x80) :
    encode characters = characters.map fun character => UInt8.ofNat character.toNat := by
  induction characters with
  | nil => rfl
  | cons character characters inductionHypothesis =>
      have others := inductionHypothesis fun other member => small other (List.mem_cons_of_mem character member)
      rw [List.map_cons, ← others, encode, List.flatMap_cons,
        utf8EncodeChar_of_ascii (small character List.mem_cons_self)]
      rfl

/-- Printable characters stand for themselves. -/
theorem stringText_of_plain {characters : List Char}
    (plain : forall character, character ∈ characters ->
      0x20 ≤ character.toNat ∧ character.toNat ≠ 0x22 ∧ character.toNat ≠ 0x5C) :
    StringText (encode characters) characters := by
  induction characters with
  | nil => exact .nil
  | cons character characters inductionHypothesis =>
      rcases plain character List.mem_cons_self with ⟨printable, noQuote, noBackslash⟩
      exact .cons (.itself printable noQuote noBackslash)
        (inductionHypothesis fun other member => plain other (List.mem_cons_of_mem character member))

/-- `{"host":"db"}`, and an `x` behind it. -/
theorem loadConfig_host : (loadConfig "config/db_credential.json" (.ofContents (fun _ => 0)
    (some (ascii "\x7b\"host\":\"db\"\x7dx")))).run DBConnection.initial =
      (.ok (), DBConnection.filled (ascii "db") [] [] [] [] 0 0) := by
  have opens : Lexes (ascii "\x7b\"host\":\"db\"\x7dx") (.mark .beginObject)
      (ascii "\"host\":\"db\"\x7dx") := ⟨[], [0x7B], rfl, rfl, .mark (by simp [marks])⟩
  have hostBytes : encode "host".toList = ascii "host" := encode_of_ascii (by simp)
  have dbBytes : encode "db".toList = ascii "db" := encode_of_ascii (by simp)
  have host : StringText (encode "host".toList) "host".toList := stringText_of_plain (by simp)
  have db : StringText (encode "db".toList) "db".toList := stringText_of_plain (by simp)
  rw [hostBytes] at host
  rw [dbBytes] at db
  have name : Lexes (ascii "\"host\":\"db\"\x7dx") (.string "host".toList) (ascii ":\"db\"\x7dx") :=
    ⟨[], _, rfl, rfl, .string host⟩
  have colon : Lexes (ascii ":\"db\"\x7dx") (.mark .nameSeparator) (ascii "\"db\"\x7dx") :=
    ⟨[], [0x3A], rfl, rfl, .mark (by simp [marks])⟩
  have value : Lexes (ascii "\"db\"\x7dx") (.string "db".toList) (ascii "\x7dx") :=
    ⟨[], _, rfl, rfl, .string db⟩
  have closes : Lexes (ascii "\x7dx") (.mark .endObject) (ascii "x") :=
    ⟨[], [0x7D], rfl, rfl, .mark (by simp [marks])⟩
  have reads : Reads (fun _ => 0) (.value (.object [(ascii "host", .string (ascii "db"))]))
      (ascii "\x7b\"host\":\"db\"\x7dx") (ascii "x") :=
    .object opens ⟨_, _, name, hostBytes.symm, colon⟩ (.scalar value (congrArg (some ∘ Json.string) dbBytes))
      (.lastMember closes)
  have found : Parser.contents (ascii "\x7b\"host\":\"db\"\x7dx") = some (ascii "\x7b\"host\":\"db\"\x7dx") :=
    Parser.contents_eq_some_iff.mpr (.inr ⟨rfl, by decide⟩)
  have parsed := Parser.parse_eq_ok_iff.mpr ⟨_, found, _, reads⟩
  rw [ofContents_of_ok parsed]
  exact loadConfig_filled rfl rfl rfl rfl rfl rfl rfl _

theorem loadsUpToItsEnd_host :
    Exists fun used => used <+: ascii "\x7b\"host\":\"db\"\x7dx" ∧
      (forall more, (loadConfig "config/db_credential.json"
        (.ofContents (fun _ => 0) (some (used ++ more)))).run DBConnection.initial =
          (.ok (), DBConnection.filled (ascii "db") [] [] [] [] 0 0)) ∧
      forall cut, cut <+: used -> cut ≠ used -> Exists fun what =>
        (loadConfig "config/db_credential.json" (.ofContents (fun _ => 0) (some cut))).run
          DBConnection.initial = (.error (.parseError what), DBConnection.initial) :=
  loadsUpToItsEnd loadConfig_host

/-! ## Texts of characters -/

/-- The bytes of some characters. -/
def IsText (bytes : List Byte) : Prop :=
  Exists fun characters => bytes = encode characters

def TextMembers (members : List (List Byte × Json)) : Prop :=
  forall key bytes : List Byte, (key, .string bytes) ∈ members -> IsText bytes

theorem TextMembers.assignMember {key : List Byte} {value : Json} {members : List (List Byte × Json)}
    (texts : TextMembers members) (isText : forall bytes, value = .string bytes -> IsText bytes) :
    TextMembers (assignMember key value members) := by
  intro other bytes member
  rcases List.mem_cons.mp member with same | earlier
  · exact isText bytes (Prod.mk.inj same).2.symm
  · exact texts other bytes (List.mem_of_mem_filter earlier)

/-- What is a string in a phrase is a text. -/
def Phrase.HasTexts : Phrase -> Prop
  | .value (.string bytes) => IsText bytes
  | .value (.object entries) => TextMembers entries
  | .value _ => True
  | .elements => True
  | .members earlier whole => TextMembers earlier -> TextMembers whole

theorem Phrase.HasTexts.isText {found : Json} (has : (Phrase.value found).HasTexts) (bytes : List Byte)
    (isString : found = .string bytes) : IsText bytes := by
  subst isString
  exact has

theorem Token.hasTexts {token : Token} {value : Json} (meant : token.scalar toInt = some value) :
    (Phrase.value value).HasTexts := by
  rcases token with type | characters | number | number
  · cases type <;> cases meant <;> exact trivial
  · cases meant
    exact ⟨characters, rfl⟩
  · cases meant
    exact trivial
  · cases number with
    | none => cases meant
    | some number =>
        cases meant
        exact trivial

/-- Every phrase is one of texts. -/
theorem Reads.hasTexts {phrase : Phrase} (reads : Reads toInt phrase text rest) : phrase.HasTexts := by
  have noMembers : TextMembers [] := by
    intro key bytes member
    cases member
  induction reads with
  | scalar _ meant => exact Token.hasTexts meant
  | emptyArray => exact trivial
  | array => exact trivial
  | emptyObject => exact noMembers
  | object _ _ _ _ firstTexts othersTexts => exact othersTexts (noMembers.assignMember firstTexts.isText)
  | lastElement => exact trivial
  | nextElement => exact trivial
  | lastMember => exact fun texts => texts
  | nextMember _ _ _ _ nextTexts othersTexts =>
      exact fun texts => othersTexts (texts.assignMember nextTexts.isText)

theorem isText_of_value {key : String} {members : List (List Byte × Json)} {bytes : List Byte}
    (texts : TextMembers members)
    (reads : (Json.object members).value Json.getString key [] = .ok bytes) : IsText bytes := by
  rw [Json.value] at reads
  cases found : members.lookup (ascii key) with
  | none =>
      rw [found] at reads
      cases reads
      exact ⟨[], rfl⟩
  | some value =>
      rw [found] at reads
      rcases List.lookup_eq_some_iff.mp found with ⟨before, after, split, _⟩
      cases value with
      | string text =>
          cases reads
          exact texts _ _ (split ▸ List.mem_append_right before List.mem_cons_self)
      | _ => cases reads

/-- Whatever the bytes of the file are, the fields that are loaded are the bytes
of characters. -/
theorem loadsTexts {path : String} {prior db : DBConnection}
    (loads : (loadConfig path (.ofContents toInt (some text))).run prior = (.ok (), db)) :
    IsText db.host ∧ IsText db.dbname ∧ IsText db.user ∧ IsText db.password ∧ IsText db.sslmode := by
  rcases parse_of_loads loads with ⟨members, parsed⟩
  rcases Parser.parse_eq_ok_iff.mp parsed with ⟨body, _, rest, reads⟩
  have texts : TextMembers members := reads.hasTexts
  have outcome := loadConfig_outcome path (.ofContents toInt (some text)) prior
  rw [loads, ofContents_of_ok parsed] at outcome
  rcases outcome with ⟨cfg, same, _, fromFile⟩
  cases same
  exact ⟨isText_of_value texts (fromFile .host), isText_of_value texts (fromFile .dbname),
    isText_of_value texts (fromFile .user), isText_of_value texts (fromFile .password),
    isText_of_value texts (fromFile .sslmode)⟩

theorem loadsTexts_host :
    IsText (ascii "db") ∧ IsText [] ∧ IsText [] ∧ IsText [] ∧ IsText [] :=
  loadsTexts loadConfig_host

end CoreBank
