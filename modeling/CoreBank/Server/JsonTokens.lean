import CoreBank.Server.JsonNumbers

namespace CoreBank

open Foundation

/-!
# The tokens of a JSON text

A token stands behind white space and has a text of its own: a structural
character, a literal, a string in quotes or a number.  The lexer reads exactly
the tokens of this grammar, and leaves what follows them to be read.
-/

inductive Token where
  | mark (type : TokenType)
  | string (characters : List Char)
  | number (value : ScannedNumber)

/-- The texts of the structural characters and of the literals. -/
def marks : List (TokenType × List Byte) :=
  [(.beginArray, [0x5B]), (.endArray, [0x5D]), (.beginObject, [0x7B]), (.endObject, [0x7D]),
    (.nameSeparator, [0x3A]), (.valueSeparator, [0x2C]), (.literalTrue, [0x74, 0x72, 0x75, 0x65]),
    (.literalFalse, [0x66, 0x61, 0x6C, 0x73, 0x65]), (.literalNull, [0x6E, 0x75, 0x6C, 0x6C])]

/-- The text of a token, in front of a rest that does not prolong it. -/
inductive TokenText : Token -> List Byte -> List Byte -> Prop where
  | mark {type : TokenType} {text rest : List Byte} (listed : (type, text) ∈ marks) :
      TokenText (.mark type) text rest
  | string {text rest : List Byte} {characters : List Char} (written : StringText text characters) :
      TokenText (.string characters) (0x22 :: (text ++ [0x22])) rest
  | number {first : Byte} {text rest : List Byte} {last : Lexer.NumberState}
      (begins : first = 0x2D ∨ isDigit first = true)
      (path : NumberPath (Lexer.numberStart first) text last)
      (done : last.next rest.head? = .ok none) :
      TokenText (.number (numberOf (first :: text))) (first :: text) rest

/-- The text begins with white space and the token, and goes on with the rest. -/
def Lexes (text : List Byte) (token : Token) (rest : List Byte) : Prop :=
  Exists fun space => Exists fun word => text = space ++ (word ++ rest) ∧
    (space.all Lexer.isWhitespace = true) ∧ TokenText token word rest

theorem mark_filled {type : TokenType} {text : List Byte} (listed : (type, text) ∈ marks) :
    text ≠ [] := by
  have all : forall entry, entry ∈ marks -> entry.2 ≠ [] := by decide
  exact all _ listed

/-- A token does not begin with white space. -/
theorem TokenText.begins {text rest : List Byte} {token : Token} (written : TokenText token text rest) :
    Exists fun first => Exists fun others => text = first :: others ∧ Lexer.isWhitespace first = false := by
  cases written with
  | mark listed =>
      have all : (marks.all fun entry => !(entry.2.head?.any Lexer.isWhitespace)) = true := by decide
      have solid := List.all_eq_true.mp all _ listed
      cases text with
      | nil => exact absurd rfl (mark_filled listed)
      | cons first others => exact ⟨first, others, rfl, by simpa using solid⟩
  | string => exact ⟨0x22, _, rfl, rfl⟩
  | @number first others _ _ begins =>
      refine ⟨first, others, rfl, ?_⟩
      rcases begins with rfl | digit
      · rfl
      · cases white : Lexer.isWhitespace first with
        | false => rfl
        | true =>
            simp only [Lexer.isWhitespace, Bool.or_eq_true, decide_eq_true_eq] at white
            rcases white with ((rfl | rfl) | rfl) | rfl <;> cases digit

theorem Lexes.prepend {space text rest : List Byte} {token : Token} (lexes : Lexes text token rest)
    (white : space.all Lexer.isWhitespace = true) : Lexes (space ++ text) token rest := by
  rcases lexes with ⟨inner, word, rfl, innerWhite, written⟩
  refine ⟨space ++ inner, word, (List.append_assoc _ _ _).symm, ?_, written⟩
  rw [List.all_append, white, innerWhite]
  rfl

namespace Lexer

/-- The token that the lexer has read. -/
inductive Shows (lexer : Lexer) : TokenType -> Token -> Prop where
  | mark {type : TokenType} {text : List Byte} (listed : (type, text) ∈ marks) :
      Shows lexer type (.mark type)
  | string {characters : List Char} (buffer : lexer.tokenBuffer = encode characters) :
      Shows lexer .valueString (.string characters)
  | number {type : TokenType} {value : ScannedNumber} (kept : lexer.KeepsNumber type value) :
      Shows lexer type (.number value)

variable {input rest buffer text : List Byte}

/-! ## White space -/

theorem Stands.offers {lexer : Lexer} (stands : lexer.Stands input buffer) : lexer.Offers input where
  unread := stands.unread
  ended again := by
    rw [stands.taken] at again
    cases again

/-- A byte that has been put back is read again. -/
theorem establishes_get_offers :
    Establishes (fun lexer => lexer.Offers input) get fun current lexer => current = input.head? ∧
      lexer.current = input.head? ∧ lexer.Stands input.tail lexer.tokenBuffer := by
  rintro lexer ⟨unread, ended⟩
  subst unread
  unfold get Lexer.unread
  cases again : lexer.nextUnget with
  | false => exact ⟨rfl, rfl, rfl, rfl, rfl⟩
  | true =>
      cases current : lexer.current with
      | none =>
          rw [ended again current]
          exact ⟨rfl, rfl, rfl, rfl, rfl⟩
      | some byte => exact ⟨rfl, rfl, rfl, rfl, rfl⟩

theorem establishes_skipWhitespaceRound :
    Establishes (fun lexer => lexer.Offers input) (skipWhitespaceRound ()) fun outcome lexer =>
      outcome = (if input.head?.any isWhitespace = true then .inl () else .inr ()) ∧
        lexer.current = input.head? ∧ lexer.Stands input.tail lexer.tokenBuffer := by
  refine establishes_get_offers.bind_value ?_
  cases input.head?.any isWhitespace with
  | true => exact fun lexer stands => ⟨rfl, stands⟩
  | false => exact fun lexer stands => ⟨rfl, stands⟩

/-- White space is skipped, and the byte behind it is the current one. -/
theorem establishes_skipWhitespace :
    Establishes (fun lexer => lexer.Offers input) skipWhitespace fun _ lexer =>
      lexer.current = (input.dropWhile isWhitespace).head? ∧
        lexer.Stands (input.dropWhile isWhitespace).tail lexer.tokenBuffer := by
  intro lexer offers
  refine establishes_loop (pure ()) skipWhitespaceRound
    (fun lexer => lexer.unread.length)
    (fun _ lexer => Exists fun left => lexer.Offers left ∧
      left.dropWhile isWhitespace = input.dropWhile isWhitespace)
    (fun _ lexer => lexer.current = (input.dropWhile isWhitespace).head? ∧
      lexer.Stands (input.dropWhile isWhitespace).tail lexer.tokenBuffer)
    ?_ () (lexer.unread.length + 1) lexer ⟨⟨input, offers, rfl⟩, Nat.lt_succ_self _⟩
  rintro _ lexer ⟨left, offers, same⟩
  rcases establishes_skipWhitespaceRound lexer offers with ⟨outcome, current, stands⟩
  rw [outcome]
  constructor
  · rintro _ goesOn
    cases left with
    | nil => cases goesOn
    | cons byte rest =>
        split_ifs at goesOn with white
        refine ⟨⟨rest, stands.offers, ?_⟩, ?_⟩
        · have whiteByte : isWhitespace byte = true := white
          rw [← same, List.dropWhile_cons_of_pos whiteByte]
        · rw [stands.unread, offers.unread]
          exact Nat.lt_succ_self _
  · rintro _ ends
    have unchanged : left.dropWhile isWhitespace = left := by
      cases left with
      | nil => rfl
      | cons byte rest =>
          split_ifs at ends with white
          have otherByte : ¬ isWhitespace byte = true := white
          exact List.dropWhile_cons_of_neg otherByte
    rw [← same, unchanged]
    exact ⟨current, stands⟩

/-! ## One token -/

theorem scanToken_of_mark {type : TokenType} {first : Byte} {others : List Byte}
    (listed : (type, first :: others) ∈ marks) : scanToken (some first) = scanLiteral others type := by
  simp only [marks, List.mem_cons, Prod.mk.injEq, List.cons.injEq, List.not_mem_nil, or_false] at listed
  rcases listed with ⟨rfl, rfl, rfl⟩ | ⟨rfl, rfl, rfl⟩ | ⟨rfl, rfl, rfl⟩ | ⟨rfl, rfl, rfl⟩ |
    ⟨rfl, rfl, rfl⟩ | ⟨rfl, rfl, rfl⟩ | ⟨rfl, rfl, rfl⟩ | ⟨rfl, rfl, rfl⟩ | ⟨rfl, rfl, rfl⟩
  all_goals rfl

theorem scanToken_of_number {first : Byte} (begins : first = 0x2D ∨ isDigit first = true) :
    scanToken (some first) = scanNumber first := by
  have differs : forall byte : Byte, byte ≠ 0x2D -> isDigit byte = false -> first ≠ byte := by
    rintro byte noMinus noDigit rfl
    rcases begins with minus | digit
    · exact noMinus minus
    · rw [digit] at noDigit
      cases noDigit
  simp only [scanToken]
  rw [if_neg (differs _ (by decide) rfl), if_neg (differs _ (by decide) rfl),
    if_neg (differs _ (by decide) rfl), if_neg (differs _ (by decide) rfl),
    if_neg (differs _ (by decide) rfl), if_neg (differs _ (by decide) rfl),
    if_neg (differs _ (by decide) rfl), if_neg (differs _ (by decide) rfl),
    if_neg (differs _ (by decide) rfl), if_neg (differs _ (by decide) rfl), if_pos begins]

theorem establishes_scanToken {token : Token} {first : Byte}
    (written : TokenText token (first :: text) rest) :
    Establishes (fun lexer => lexer.Stands (text ++ rest) buffer) (scanToken (some first))
      fun type lexer => lexer.Shows type token ∧ lexer.Offers rest := by
  cases written with
  | mark listed =>
      rw [scanToken_of_mark listed]
      refine establishes_nextAre.bind_value ?_
      exact fun lexer stands => ⟨.mark listed, stands.offers⟩
  | @string body _ _ written =>
      rw [List.append_assoc]
      refine (establishes_scanString written).weaken (fun _ stands => stands) ?_
      rintro type lexer ⟨rfl, stands⟩
      exact ⟨.string stands.buffer, stands.offers⟩
  | number begins path done =>
      rw [scanToken_of_number begins]
      refine (establishes_scanNumber begins path done).weaken (fun _ stands => stands) ?_
      exact fun type lexer ends => ⟨.number ends.1, ends.2⟩

/-- How the scan of a token comes out. -/
def TokenOutcome (input : List Byte) (type : TokenType) (lexer : Lexer) : Prop :=
  type = .parseError ∨ type = .endOfInput ∨ Exists fun token => Exists fun rest =>
    Lexes input token rest ∧ lexer.Shows type token ∧ lexer.Offers rest

theorem tokenOutcome_of_text {token : Token} {type : TokenType} {lexer : Lexer}
    (written : TokenText token text rest) (shows : lexer.Shows type token) (offers : lexer.Offers rest) :
    TokenOutcome (text ++ rest) type lexer :=
  .inr (.inr ⟨token, rest, ⟨[], text, rfl, rfl, written⟩, shows, offers⟩)

theorem tokenOutcome_scanLiteral (type : TokenType) {first : Byte} (others : List Byte)
    (listed : (type, first :: others) ∈ marks) :
    Establishes (fun lexer => lexer.Stands input buffer) (scanLiteral others type)
      (TokenOutcome (first :: input)) := by
  refine establishes_nextAre_only.bind fun same => ?_
  refine Establishes.ite ?_ fun _ _ _ => .inl rfl
  intro agrees lexer others
  rcases others agrees with ⟨rest, rfl, stands⟩
  exact tokenOutcome_of_text (.mark listed) (.mark listed) stands.offers

theorem tokenOutcome_scanToken {first : Byte} :
    Establishes (fun lexer => lexer.Stands input buffer) (scanToken (some first))
      (TokenOutcome (first :: input)) := by
  simp only [scanToken]
  refine Establishes.ite ?_ fun _ => Establishes.ite ?_ fun _ => Establishes.ite ?_ fun _ =>
    Establishes.ite ?_ fun _ => Establishes.ite ?_ fun _ => Establishes.ite ?_ fun _ =>
    Establishes.ite ?_ fun _ => Establishes.ite ?_ fun _ => Establishes.ite ?_ fun _ =>
    Establishes.ite ?_ fun _ => Establishes.ite ?_ fun _ => Establishes.ite ?_ fun _ => ?_
  · rintro rfl
    exact tokenOutcome_scanLiteral .beginArray [] (by decide)
  · rintro rfl
    exact tokenOutcome_scanLiteral .endArray [] (by decide)
  · rintro rfl
    exact tokenOutcome_scanLiteral .beginObject [] (by decide)
  · rintro rfl
    exact tokenOutcome_scanLiteral .endObject [] (by decide)
  · rintro rfl
    exact tokenOutcome_scanLiteral .nameSeparator [] (by decide)
  · rintro rfl
    exact tokenOutcome_scanLiteral .valueSeparator [] (by decide)
  · rintro rfl
    exact tokenOutcome_scanLiteral _ _ (by decide)
  · rintro rfl
    exact tokenOutcome_scanLiteral _ _ (by decide)
  · rintro rfl
    exact tokenOutcome_scanLiteral _ _ (by decide)
  · rintro rfl
    refine establishes_scanString_only.weaken (fun _ stands => stands) ?_
    rintro type lexer (failed | ⟨rfl, text, characters, rest, written, rfl, stands⟩)
    · exact .inl failed
    · have outcome := tokenOutcome_of_text (.string written) (.string stands.buffer) stands.offers
      rw [List.cons_append, List.append_assoc] at outcome
      exact outcome
  · intro begins
    refine (establishes_scanNumber_only begins).weaken (fun _ stands => stands) ?_
    rintro type lexer (failed | ⟨text, last, rest, path, done, rfl, kept, offers⟩)
    · exact .inl failed
    · exact tokenOutcome_of_text (.number begins path done) (.number kept) offers
  · exact fun _ _ _ => .inr (.inl rfl)
  · exact fun _ _ => .inl rfl

/-! ## The next token -/

/-- A token is read, whatever stands behind it. -/
theorem establishes_scanNext {token : Token} (lexes : Lexes input token rest) :
    Establishes (fun lexer => lexer.Offers input) scanNext fun type lexer =>
      lexer.Shows type token ∧ lexer.Offers rest := by
  rcases lexes with ⟨space, word, rfl, white, written⟩
  rcases written.begins with ⟨first, others, rfl, solid⟩
  have dropped : (space ++ (first :: others ++ rest)).dropWhile isWhitespace = first :: (others ++ rest) := by
    rw [List.dropWhile_append_of_pos (List.all_eq_true.mp white), List.cons_append,
      List.dropWhile_cons_of_neg (Bool.eq_false_iff.mp solid)]
  refine establishes_skipWhitespace.bind fun _ => ?_
  rw [dropped]
  rintro lexer ⟨current, stands⟩
  simp only [current]
  exact establishes_scanToken written lexer stands

/-- Nothing else is read. -/
theorem tokenOutcome_scanNext :
    Establishes (fun lexer => lexer.Offers input) scanNext (TokenOutcome input) := by
  refine establishes_skipWhitespace.bind fun _ => ?_
  have split := List.takeWhile_append_dropWhile (p := isWhitespace) (l := input)
  have white : (input.takeWhile isWhitespace).all isWhitespace = true :=
    List.all_takeWhile
  rintro lexer ⟨current, stands⟩
  cases left : input.dropWhile isWhitespace with
  | nil =>
      rw [left] at current
      simp only [current]
      exact .inr (.inl rfl)
  | cons first others =>
      rw [left] at current stands
      simp only [current]
      rcases tokenOutcome_scanToken lexer stands with failed | ended | ⟨token, rest, lexes, shows, offers⟩
      · exact .inl failed
      · exact .inr (.inl ended)
      · refine .inr (.inr ⟨token, rest, ?_, shows, offers⟩)
        have whole := lexes.prepend white
        rw [List.tail_cons, ← left, split] at whole
        exact whole

end Lexer

end CoreBank
