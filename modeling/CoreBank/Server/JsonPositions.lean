import CoreBank.Server.JsonLexer

namespace CoreBank

open Foundation

/-!
# The positions of the lexer

Wherever the lexer stands, what it has read and what it will read make up the
text, and its position counts the bytes and the lines of what it has read.  Only
the number of bytes in the line is lost when a newline is put back, until the
newline is read again.
-/

/-- The bytes since the last newline. -/
def column (read : List Byte) : ℕ :=
  (read.reverse.takeWhile fun byte => byte ≠ lineFeed).length

namespace Lexer

/-- The lexer has read these bytes, and then the end of the input some times. -/
structure HasRead (lexer : Lexer) (read : List Byte) (past : ℕ) : Prop where
  total : lexer.position.charsReadTotal = read.length + past
  lines : lexer.position.linesRead = read.count lineFeed
  line : lexer.position.charsReadCurrentLine = column read + past ∨
    lexer.nextUnget = true ∧ lexer.current = some lineFeed ∧ lexer.position.charsReadCurrentLine = 0
  last : lexer.nextUnget = false -> lexer.current = if past = 0 then read.getLast? else none
  exhausted : 0 < past -> lexer.unread = []
  ended : lexer.nextUnget = true -> lexer.current = none -> lexer.input = []

/-- The lexer stands somewhere in the text. -/
def Placed (text : List Byte) (lexer : Lexer) : Prop :=
  Exists fun read => Exists fun past => text = read ++ lexer.unread ∧ lexer.HasRead read past

/-- It has just taken a byte from it, or its end. -/
structure Taken (text : List Byte) (lexer : Lexer) : Prop where
  placed : lexer.Placed text
  taken : lexer.nextUnget = false
  started : 0 < lexer.position.charsReadTotal

theorem placed_initial (text : List Byte) : (initial text).Placed text := by
  refine ⟨[], 0, rfl, rfl, rfl, .inl rfl, fun _ => rfl, ?_, ?_⟩
  · intro impossible
    cases impossible
  · intro impossible
    cases impossible

variable {text : List Byte} {A : Type}

/-! ## One byte -/

theorem column_append_lineFeed (read : List Byte) : column (read ++ [lineFeed]) = 0 := by
  rw [column, List.reverse_append]
  rfl

theorem column_append_byte (read : List Byte) {byte : Byte} (other : byte ≠ lineFeed) :
    column (read ++ [byte]) = column read + 1 := by
  simp [column, other]

/-- A newline that has been put back is the next byte. -/
theorem HasRead.line_of_next {lexer : Lexer} {read : List Byte} {past : ℕ} (has : lexer.HasRead read past)
    (other : lexer.unread.head? ≠ some lineFeed) :
    lexer.position.charsReadCurrentLine = column read + past := by
  rcases has.line with line | ⟨again, current, _⟩
  · exact line
  · refine absurd ?_ other
    rw [Lexer.unread, again, current]
    rfl

/-- What `get` comes to. -/
theorem get_eq {lexer : Lexer} (ended : lexer.nextUnget = true -> lexer.current = none -> lexer.input = []) :
    (get lexer).2.current = lexer.unread.head? ∧ (get lexer).2.input = lexer.unread.tail ∧
      (get lexer).2.position = lexer.position.reading lexer.unread.head? := by
  unfold get Lexer.unread
  cases again : lexer.nextUnget with
  | false => exact ⟨rfl, rfl, rfl⟩
  | true =>
      cases current : lexer.current with
      | none =>
          rw [ended again current]
          exact ⟨rfl, rfl, rfl⟩
      | some byte => exact ⟨rfl, rfl, rfl⟩

theorem establishes_get_placed :
    Establishes (Placed text) get fun _ lexer => lexer.Taken text := by
  rintro lexer ⟨read, past, split, has⟩
  rcases get_eq has.ended with ⟨current, input, position⟩
  have unread : (get lexer).2.unread = lexer.unread.tail := input
  have noAgain : (get lexer).2.nextUnget = true -> (get lexer).2.current = none ->
      (get lexer).2.input = [] := by
    intro impossible
    cases impossible
  have line := has.line_of_next
  cases left : lexer.unread with
  | nil =>
      rw [left] at current position unread split line
      have counted : (get lexer).2.position =
          ⟨lexer.position.charsReadTotal + 1, lexer.position.charsReadCurrentLine + 1,
            lexer.position.linesRead⟩ := position
      refine ⟨⟨read, past + 1, ?_, ?_, ?_, ?_, fun _ => current, fun _ => unread, noAgain⟩, rfl, ?_⟩
      · rw [unread]
        exact split
      · rw [counted, has.total, Nat.add_assoc]
      · rw [counted, has.lines]
      · rw [counted, line (by decide)]
        exact .inl rfl
      · rw [counted]
        exact Nat.zero_lt_succ _
  | cons byte rest =>
      rw [left] at current position unread split line
      have inside : past = 0 := by
        by_contra beyond
        have impossible := has.exhausted (Nat.pos_of_ne_zero beyond)
        rw [left] at impossible
        cases impossible
      subst inside
      have placed : text = (read ++ [byte]) ++ (get lexer).2.unread := by
        rw [unread, split, List.append_assoc]
        rfl
      have last : (get lexer).2.current = if 0 = 0 then (read ++ [byte]).getLast? else none := by
        rw [current, if_pos rfl, List.getLast?_append_of_ne_nil _ (List.cons_ne_nil _ _)]
        rfl
      have total : lexer.position.charsReadTotal + 1 = (read ++ [byte]).length + 0 := by
        rw [has.total, List.length_append]
        rfl
      by_cases newline : byte = lineFeed
      · have counted : (get lexer).2.position =
            ⟨lexer.position.charsReadTotal + 1, 0, lexer.position.linesRead + 1⟩ := by
          rw [position, newline]
          rfl
        refine ⟨⟨read ++ [byte], 0, placed, ?_, ?_, ?_, fun _ => last, fun none => ?_, noAgain⟩, rfl, ?_⟩
        · rw [counted]
          exact total
        · rw [counted, newline, has.lines, List.count_append, List.count_singleton_self]
        · rw [counted, newline, column_append_lineFeed]
          exact .inl rfl
        · exact absurd none (Nat.lt_irrefl 0)
        · rw [counted]
          exact Nat.zero_lt_succ _
      · have other : some byte ≠ some lineFeed := fun same => newline (Option.some.inj same)
        have counted : (get lexer).2.position =
            ⟨lexer.position.charsReadTotal + 1, lexer.position.charsReadCurrentLine + 1,
              lexer.position.linesRead⟩ := by
          rw [position]
          exact if_neg other
        refine ⟨⟨read ++ [byte], 0, placed, ?_, ?_, ?_, fun _ => last, fun none => ?_, noAgain⟩, rfl, ?_⟩
        · rw [counted]
          exact total
        · rw [counted, has.lines, List.count_append, List.count_singleton,
            if_neg (by simpa using newline), Nat.add_zero]
        · rw [counted, line other, column_append_byte read newline]
          exact .inl rfl
        · exact absurd none (Nat.lt_irrefl 0)
        · rw [counted]
          exact Nat.zero_lt_succ _

/-- `unget` goes back by the byte that has been taken. -/
theorem establishes_unget_placed :
    Establishes (Taken text) unget fun _ lexer => lexer.Placed text := by
  rintro lexer ⟨⟨read, past, split, has⟩, taken, started⟩
  have line : lexer.position.charsReadCurrentLine = column read + past := by
    rcases has.line with line | ⟨impossible, _⟩
    · exact line
    · rw [taken] at impossible
      cases impossible
  have unread : (unget lexer).2.unread = lexer.current.toList ++ lexer.input := rfl
  have before : lexer.unread = lexer.input := by
    rw [Lexer.unread, taken]
    rfl
  have total := has.total
  have last := has.last taken
  rw [before] at split
  cases past with
  | succ past =>
      have noInput : lexer.input = [] := before ▸ has.exhausted (Nat.zero_lt_succ past)
      have counted : (unget lexer).2.position =
          ⟨lexer.position.charsReadTotal - 1, lexer.position.charsReadCurrentLine - 1,
            lexer.position.linesRead⟩ := if_neg (by omega)
      rw [if_neg (Nat.succ_ne_zero past)] at last
      rw [last, noInput] at unread
      refine ⟨read, past, ?_, ?_, ?_, .inl ?_, ?_, fun _ => unread, fun _ _ => noInput⟩
      · rw [unread, split, noInput]
        rfl
      · rw [counted, total]
        rfl
      · rw [counted, has.lines]
      · rw [counted, line]
        rfl
      · intro impossible
        cases impossible
  | zero =>
      rw [if_pos rfl] at last
      rcases List.eq_nil_or_concat' read with rfl | ⟨earlier, byte, rfl⟩
      · rw [total] at started
        exact absurd started (Nat.lt_irrefl 0)
      · have current : lexer.current = some byte := by
          rw [last, List.getLast?_append_of_ne_nil _ (List.cons_ne_nil _ _)]
          rfl
        rw [current] at unread
        have placed : text = earlier ++ (unget lexer).2.unread := by
          rw [unread, split, List.append_assoc]
          rfl
        have noEnd : (unget lexer).2.nextUnget = true -> (unget lexer).2.current = none ->
            (unget lexer).2.input = [] := by
          intro _ none
          rw [show (unget lexer).2.current = lexer.current from rfl, current] at none
          cases none
        have shorter : lexer.position.charsReadTotal - 1 = earlier.length + 0 := by
          rw [total, List.length_append]
          rfl
        by_cases newline : byte = lineFeed
        · subst newline
          rw [column_append_lineFeed] at line
          have counted : (unget lexer).2.position =
              ⟨lexer.position.charsReadTotal - 1, 0, lexer.position.linesRead - 1⟩ := if_pos line
          refine ⟨earlier, 0, placed, ?_, ?_, .inr ⟨rfl, current, ?_⟩, ?_, ?_, noEnd⟩
          · rw [counted]
            exact shorter
          · rw [counted, has.lines, List.count_append, List.count_singleton_self]
            rfl
          · rw [counted]
          · intro impossible
            cases impossible
          · intro impossible
            cases impossible
        · rw [column_append_byte earlier newline] at line
          have counted : (unget lexer).2.position =
              ⟨lexer.position.charsReadTotal - 1, lexer.position.charsReadCurrentLine - 1,
                lexer.position.linesRead⟩ := if_neg (by omega)
          refine ⟨earlier, 0, placed, ?_, ?_, .inl ?_, ?_, ?_, noEnd⟩
          · rw [counted]
            exact shorter
          · rw [counted, has.lines, List.count_append, List.count_singleton,
              if_neg (by simpa using newline), Nat.add_zero]
          · rw [counted, line]
            rfl
          · intro impossible
            cases impossible
          · intro impossible
            cases impossible

/-! ## The programs of the lexer -/

/-- What is neither input nor position does not move the lexer. -/
theorem Placed.moved {lexer other : Lexer} (placed : lexer.Placed text) (input : other.input = lexer.input)
    (current : other.current = lexer.current) (nextUnget : other.nextUnget = lexer.nextUnget)
    (position : other.position = lexer.position) : other.Placed text := by
  rcases placed with ⟨read, past, split, has⟩
  have unread : other.unread = lexer.unread := by
    rw [Lexer.unread, Lexer.unread, input, current, nextUnget]
  refine ⟨read, past, unread ▸ split, ?_, ?_, ?_, ?_, ?_, ?_⟩
  · rw [position]
    exact has.total
  · rw [position]
    exact has.lines
  · rw [position, nextUnget, current]
    exact has.line
  · rw [nextUnget, current]
    exact has.last
  · rw [unread]
    exact has.exhausted
  · rw [nextUnget, current, input]
    exact has.ended

theorem Taken.moved {lexer other : Lexer} (taken : lexer.Taken text) (input : other.input = lexer.input)
    (current : other.current = lexer.current) (nextUnget : other.nextUnget = lexer.nextUnget)
    (position : other.position = lexer.position) : other.Taken text where
  placed := taken.placed.moved input current nextUnget position
  taken := nextUnget.trans taken.taken
  started := position ▸ taken.started

/-- The program keeps the lexer at a place of the text. -/
abbrev Keeps (text : List Byte) (program : Lexing A) : Prop :=
  Establishes (Taken text) program fun _ lexer => lexer.Taken text

theorem keeps_get : Keeps text get :=
  fun lexer taken => establishes_get_placed lexer taken.placed

theorem keeps_add {byte : Byte} : Keeps text (add byte) :=
  fun _ taken => taken.moved rfl rfl rfl rfl

theorem keeps_addAll {bytes : List Byte} : Keeps text (addAll bytes) :=
  fun _ taken => taken.moved rfl rfl rfl rfl

theorem keeps_reset : Keeps text reset :=
  fun _ taken => taken.moved rfl rfl rfl rfl

theorem keeps_fail {message : String} : Keeps text (fail message) :=
  fun _ taken => taken.moved rfl rfl rfl rfl

theorem keeps_pure {value : A} : Keeps text (pure value) :=
  fun _ taken => taken

theorem keeps_failed {Carried : Type} {message : String} :
    Keeps text (failed message : Lexing (Carried ⊕ TokenType)) :=
  keeps_fail.bind fun _ => keeps_pure

theorem keeps_goOn : Keeps text goOn :=
  keeps_pure

theorem keeps_ite {condition : Prop} [Decidable condition] {first second : Lexing A}
    (holds : Keeps text first) (fails : Keeps text second) :
    Keeps text (if condition then first else second) :=
  Establishes.ite (fun _ => holds) fun _ => fails

theorem keeps_nextAre {bytes : List Byte} : Keeps text (nextAre bytes) := by
  induction bytes with
  | nil => exact keeps_pure
  | cons byte bytes inductionHypothesis =>
      exact keeps_get.bind fun _ => keeps_ite inductionHypothesis keeps_pure

theorem keeps_addDigits {factors : List ℕ} {codepoint : ℕ} :
    Keeps text (addDigits codepoint factors) := by
  induction factors generalizing codepoint with
  | nil => exact keeps_pure
  | cons factor factors inductionHypothesis =>
      refine keeps_get.bind fun current => ?_
      cases hexValue current with
      | none => exact keeps_pure
      | some digit => exact inductionHypothesis

theorem keeps_bytesInRange {ranges : List (Byte × Byte)} : Keeps text (bytesInRange ranges) := by
  induction ranges with
  | nil => exact keeps_pure
  | cons range ranges inductionHypothesis =>
      rcases range with ⟨low, high⟩
      refine keeps_get.bind fun current => ?_
      cases current with
      | none => exact keeps_pure
      | some byte => exact keeps_ite (keeps_add.bind fun _ => inductionHypothesis) keeps_pure

theorem keeps_scanLowSurrogate {codepoint : ℕ} : Keeps text (scanLowSurrogate codepoint) := by
  refine keeps_nextAre.bind fun _ => keeps_ite (keeps_addDigits.bind fun found => ?_) keeps_failed
  cases found with
  | none => exact keeps_failed
  | some low => exact keeps_ite (keeps_addAll.bind fun _ => keeps_goOn) keeps_failed

theorem keeps_scanUnicode : Keeps text scanUnicode := by
  refine keeps_addDigits.bind fun found => ?_
  cases found with
  | none => exact keeps_failed
  | some codepoint =>
      exact keeps_ite keeps_scanLowSurrogate
        (keeps_ite keeps_failed (keeps_addAll.bind fun _ => keeps_goOn))

theorem keeps_scanEscape : Keeps text scanEscape := by
  refine keeps_get.bind fun current => ?_
  cases current.bind fun byte => escapes.lookup byte with
  | some meant => exact keeps_add.bind fun _ => keeps_goOn
  | none => exact keeps_ite keeps_scanUnicode keeps_failed

theorem keeps_scanStringRound : Keeps text (scanStringRound ()) := by
  refine keeps_get.bind fun current => ?_
  cases current with
  | none => exact keeps_failed
  | some byte =>
      refine keeps_ite keeps_pure (keeps_ite keeps_scanEscape (keeps_ite keeps_failed
        (keeps_ite (keeps_add.bind fun _ => keeps_goOn) ?_)))
      cases followingRanges byte with
      | none => exact keeps_failed
      | some ranges =>
          exact (keeps_add.bind fun _ => keeps_bytesInRange).bind fun _ =>
            keeps_ite keeps_goOn keeps_failed

theorem keeps_scanString : Keeps text scanString := by
  refine keeps_reset.bind fun _ lexer taken => ?_
  refine Establishes.loop (fun _ lexer => lexer.Taken text) (fun _ => keeps_fail) ?_ _ () lexer taken
  intro _
  refine keeps_scanStringRound.weaken (fun _ taken => taken) ?_
  rintro (_ | _) _ taken
  · exact taken
  · exact taken

theorem placed_convert {type : TokenType} :
    Establishes (Placed text) (convert type) fun _ lexer => lexer.Placed text := by
  intro lexer placed
  cases type with
  | valueUnsigned =>
      simp only [convert]
      cases strtoull lexer.tokenBuffer with
      | none => exact placed.moved rfl rfl rfl rfl
      | some value => exact placed.moved rfl rfl rfl rfl
  | valueInteger =>
      simp only [convert]
      cases strtoll lexer.tokenBuffer with
      | none => exact placed.moved rfl rfl rfl rfl
      | some value => exact placed.moved rfl rfl rfl rfl
  | _ => exact placed.moved rfl rfl rfl rfl

/-- A number gives a byte back when it ends. -/
theorem establishes_scanNumberRound_placed (carried : NumberState × TokenType) :
    Establishes (Taken text) (scanNumberRound carried)
      (Sum.elim (fun _ lexer => lexer.Taken text) fun _ lexer => lexer.Placed text) := by
  refine keeps_get.bind fun current => ?_
  cases carried.1.next current with
  | error message => exact fun lexer taken => (keeps_fail lexer taken).placed
  | ok outcome =>
      cases outcome with
      | none =>
          refine establishes_unget_placed.bind fun _ => placed_convert.bind fun _ => ?_
          exact fun _ placed => placed
      | some next => exact keeps_addAll.bind fun _ _ taken => taken

theorem establishes_scanNumber_placed {first : Byte} :
    Establishes (Taken text) (scanNumber first) fun _ lexer => lexer.Placed text := by
  have scans (state : NumberState) :
      Establishes (Taken text) (scanNumberFrom state) fun _ lexer => lexer.Placed text := by
    intro lexer taken
    refine Establishes.loop (fun _ lexer => lexer.Taken text) (fun _ => ?_)
      establishes_scanNumberRound_placed _ _ lexer taken
    exact keeps_fail.weaken (fun _ taken => taken) fun _ _ taken => taken.placed
  refine keeps_reset.bind fun _ => keeps_add.bind fun _ => ?_
  exact Establishes.ite (fun _ => scans _) fun _ => Establishes.ite (fun _ => scans _) fun _ => scans _

/-- What a placed lexer reads. -/
theorem Placed.get_eq {lexer : Lexer} (placed : lexer.Placed text) :
    (get lexer).1 = lexer.unread.head? ∧ (get lexer).2.unread = lexer.unread.tail := by
  rcases placed with ⟨read, past, split, has⟩
  rcases Lexer.get_eq has.ended with ⟨current, input, _⟩
  exact ⟨current, input⟩

theorem establishes_skipWhitespace_taken :
    Establishes (Placed text) skipWhitespace fun _ lexer => lexer.Taken text := by
  intro lexer placed
  refine establishes_loop (pure ()) skipWhitespaceRound
    (fun lexer => lexer.unread.length) (fun _ lexer => lexer.Placed text)
    (fun _ lexer => lexer.Taken text) ?_ () (lexer.unread.length + 1) lexer
    ⟨placed, Nat.lt_succ_self _⟩
  rintro _ lexer placed
  rcases placed.get_eq with ⟨current, unread⟩
  have taken := establishes_get_placed lexer placed
  have round : skipWhitespaceRound () lexer =
      ((if lexer.unread.head?.any isWhitespace = true then pure (.inl ())
        else pure (.inr ()) : Lexing (Unit ⊕ Unit)) (get lexer).2) := by
    rw [← current]
    rfl
  rw [round]
  split_ifs with white
  · refine ⟨fun _ _ => ⟨taken.placed, ?_⟩, fun _ impossible => ?_⟩
    · change (get lexer).2.unread.length < lexer.unread.length
      rw [unread]
      cases left : lexer.unread with
      | nil =>
          rw [left] at white
          cases white
      | cons byte rest => exact Nat.lt_succ_self _
    · cases impossible
  · refine ⟨fun _ impossible => ?_, fun _ _ => taken⟩
    cases impossible

theorem keeps_scanLiteral {bytes : List Byte} {type : TokenType} : Keeps text (scanLiteral bytes type) :=
  keeps_nextAre.bind fun _ => keeps_ite keeps_pure keeps_fail

theorem establishes_scanToken_placed {current : Option Byte} :
    Establishes (Taken text) (scanToken current) fun _ lexer => lexer.Placed text := by
  have stays {program : Lexing TokenType} (keeps : Keeps text program) :
      Establishes (Taken text) program fun _ lexer => lexer.Placed text :=
    keeps.weaken (fun _ taken => taken) fun _ _ taken => taken.placed
  cases current with
  | none => exact stays keeps_pure
  | some byte =>
      simp only [scanToken]
      refine Establishes.ite (fun _ => stays keeps_pure) fun _ =>
        Establishes.ite (fun _ => stays keeps_pure) fun _ =>
        Establishes.ite (fun _ => stays keeps_pure) fun _ =>
        Establishes.ite (fun _ => stays keeps_pure) fun _ =>
        Establishes.ite (fun _ => stays keeps_pure) fun _ =>
        Establishes.ite (fun _ => stays keeps_pure) fun _ =>
        Establishes.ite (fun _ => stays keeps_scanLiteral) fun _ =>
        Establishes.ite (fun _ => stays keeps_scanLiteral) fun _ =>
        Establishes.ite (fun _ => stays keeps_scanLiteral) fun _ =>
        Establishes.ite (fun _ => stays keeps_scanString) fun _ =>
        Establishes.ite (fun _ => establishes_scanNumber_placed) fun _ =>
        Establishes.ite (fun _ => stays keeps_pure) fun _ => stays keeps_fail

theorem establishes_scanNext_placed :
    Establishes (Placed text) scanNext fun _ lexer => lexer.Placed text :=
  establishes_skipWhitespace_taken.bind fun _ lexer taken =>
    establishes_scanToken_placed lexer taken

theorem establishes_skipBom_placed :
    Establishes (Placed text) skipBom fun _ lexer => lexer.Placed text := by
  refine establishes_get_placed.bind fun _ => Establishes.ite (fun _ => ?_) fun _ => ?_
  · exact keeps_nextAre.weaken (fun _ taken => taken) fun _ _ taken => taken.placed
  · exact establishes_unget_placed.bind fun _ _ placed => placed

/-- What every scan behind the byte order mark establishes, and every failure,
the whole scan does. -/
theorem establishes_scan_of {after : TokenType -> Lexer -> Prop}
    (next : Establishes (Placed text) scanNext after)
    (fails : forall message, Establishes (Placed text) (fail message) after) :
    Establishes (Placed text) scan after := by
  have start : Establishes (Placed text)
      (do
        if <- skipBom then scanNext
        else fail "invalid BOM; must be 0xEF 0xBB 0xBF if given") after :=
    establishes_skipBom_placed.bind fun _ => Establishes.ite (fun _ => next) fun _ => fails _
  intro lexer placed
  unfold scan
  split_ifs
  · exact start lexer placed
  · exact next lexer placed

/-- Every scan leaves the lexer at a place of the text. -/
theorem establishes_scan_placed :
    Establishes (Placed text) scan fun _ lexer => lexer.Placed text :=
  establishes_scan_of establishes_scanNext_placed fun _ _ placed => placed.moved rfl rfl rfl rfl

/-- Once less than the text is left, the scan does not look for a byte order
mark. -/
theorem Placed.started {lexer : Lexer} (placed : lexer.Placed text)
    (shorter : lexer.unread.length < text.length) : lexer.position.charsReadTotal ≠ 0 := by
  rcases placed with ⟨read, past, split, has⟩
  rw [split, List.length_append] at shorter
  rw [has.total]
  omega

end Lexer

end CoreBank
