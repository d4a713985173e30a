import CoreBank.Server.JsonLexer

namespace CoreBank

open Foundation

/-!
# The strings of a JSON text

A string is written piece by piece between its quotes, and every piece stands
for one character: for itself, or as an escape.  The lexer reads exactly these
strings, and what it has read is the UTF-8 encoding of the characters that the
pieces stand for.
-/

/-! ## The grammar -/

/-- Hexadecimal digits, one for each factor, and the sum of their values. -/
inductive HexDigits : List ℕ -> List Byte -> ℕ -> Prop where
  | nil : HexDigits [] [] 0
  | cons {byte : Byte} {digit factor value : ℕ} {factors : List ℕ} {digits : List Byte}
      (hex : Lexer.hexValue (some byte) = some digit) (others : HexDigits factors digits value) :
      HexDigits (factor :: factors) (byte :: digits) (digit <<< factor + value)

/-- Four hexadecimal digits. -/
abbrev HexNumber (digits : List Byte) (value : ℕ) : Prop :=
  HexDigits [12, 8, 4, 0] digits value

/-- A piece of a string, and the character that it stands for. -/
inductive StringPiece : List Byte -> Char -> Prop where
  | itself {character : Char} (printable : 0x20 ≤ character.toNat)
      (noQuote : character.toNat ≠ 0x22) (noBackslash : character.toNat ≠ 0x5C) :
      StringPiece (String.utf8EncodeChar character) character
  | escape {letter byte : Byte} {character : Char}
      (escaped : Lexer.escapes.lookup letter = some byte) (meant : character.toNat = byte.toNat) :
      StringPiece [0x5C, letter] character
  | unicode {digits : List Byte} {character : Char} (number : HexNumber digits character.toNat) :
      StringPiece (0x5C :: 0x75 :: digits) character
  | surrogates {first second : List Byte} {high low : ℕ} {character : Char}
      (firstNumber : HexNumber first high) (secondNumber : HexNumber second low)
      (isHigh : 0xD800 ≤ high ∧ high ≤ 0xDBFF) (isLow : 0xDC00 ≤ low ∧ low ≤ 0xDFFF)
      (number : character.toNat = (high - 0xD800) * 0x400 + (low - 0xDC00) + 0x10000) :
      StringPiece (0x5C :: 0x75 :: (first ++ 0x5C :: 0x75 :: second)) character

/-- The text between the quotes of a string. -/
inductive StringText : List Byte -> List Char -> Prop where
  | nil : StringText [] []
  | cons {piece text : List Byte} {character : Char} {characters : List Char}
      (first : StringPiece piece character) (others : StringText text characters) :
      StringText (piece ++ text) (character :: characters)

/-- The bytes of characters. -/
def encode (characters : List Char) : List Byte :=
  characters.flatMap String.utf8EncodeChar

/-- A hexadecimal digit is less than 16. -/
theorem Lexer.hexValue_lt {byte : Byte} {digit : ℕ} (hex : Lexer.hexValue (some byte) = some digit) : digit < 16 := by
  unfold Lexer.hexValue at hex
  simp only [UInt8.le_iff_toNat_le, UInt8.reduceToNat] at hex
  split_ifs at hex <;> cases hex
  all_goals omega

theorem HexDigits.lt {digits : List Byte} {value : ℕ} (number : HexNumber digits value) :
    value < 0x10000 := by
  cases number with
  | cons first others =>
    cases others with
    | cons second others =>
      cases others with
      | cons third others =>
        cases others with
        | cons fourth others =>
          cases others
          have a := Lexer.hexValue_lt first
          have b := Lexer.hexValue_lt second
          have c := Lexer.hexValue_lt third
          have d := Lexer.hexValue_lt fourth
          simp only [Nat.shiftLeft_eq]
          omega

theorem encode_append (first second : List Char) : encode (first ++ second) = encode first ++ encode second :=
  List.flatMap_append

theorem encode_singleton (character : Char) : encode [character] = String.utf8EncodeChar character :=
  List.flatMap_singleton _ _

theorem StringPiece.filled {piece : List Byte} {character : Char} (written : StringPiece piece character) :
    0 < piece.length := by
  cases written with
  | itself =>
      rw [String.length_utf8EncodeChar]
      exact Char.utf8Size_pos _
  | escape => exact Nat.zero_lt_succ _
  | unicode => exact Nat.zero_lt_succ _
  | surrogates => exact Nat.zero_lt_succ _

theorem StringText.append_piece {text piece : List Byte} {characters : List Char} {character : Char}
    (others : StringText text characters) (last : StringPiece piece character) :
    StringText (text ++ piece) (characters ++ [character]) := by
  induction others with
  | nil =>
      have single := StringText.cons last .nil
      rw [List.append_nil] at single
      exact single
  | cons first _ inductionHypothesis =>
      rw [List.append_assoc]
      exact .cons first inductionHypothesis

namespace Lexer

/-- Nothing is put back; this is to be read, and this is in the buffer. -/
structure Stands (lexer : Lexer) (input buffer : List Byte) : Prop where
  taken : lexer.nextUnget = false
  input : lexer.input = input
  buffer : lexer.tokenBuffer = buffer

/-! ## One byte -/

variable {input rest buffer : List Byte} {byte : Byte} {A B : Type}

theorem establishes_get_cons :
    Establishes (fun lexer => lexer.Stands (byte :: rest) buffer) get fun current lexer =>
      current = some byte ∧ lexer.Stands rest buffer := by
  intro lexer stands
  unfold get
  rw [stands.taken, stands.input]
  exact ⟨rfl, rfl, rfl, stands.buffer⟩

theorem establishes_get_nil :
    Establishes (fun lexer => lexer.Stands [] buffer) get fun current lexer =>
      current = none ∧ lexer.Stands [] buffer := by
  intro lexer stands
  unfold get
  rw [stands.taken, stands.input]
  exact ⟨rfl, rfl, rfl, stands.buffer⟩

theorem establishes_add :
    Establishes (fun lexer => lexer.Stands input buffer) (add byte) fun _ lexer =>
      lexer.Stands input (buffer ++ [byte]) := by
  intro lexer stands
  exact ⟨stands.taken, stands.input, congrArg (fun text => text ++ [byte]) stands.buffer⟩

theorem establishes_reset :
    Establishes (fun lexer => lexer.Stands input buffer) reset fun _ lexer => lexer.Stands input [] :=
  fun _ stands => ⟨stands.taken, stands.input, rfl⟩

theorem establishes_addAll {bytes : List Byte} :
    Establishes (fun lexer => lexer.Stands input buffer) (addAll bytes) fun _ lexer =>
      lexer.Stands input (buffer ++ bytes) := by
  intro lexer stands
  exact ⟨stands.taken, stands.input, congrArg (fun text => text ++ bytes) stands.buffer⟩

/-- A program that reads a byte, by what is to be read. -/
theorem establishes_get_bind {next : Option Byte -> Lexing A} {after : A -> Lexer -> Prop}
    (ended : input = [] -> Establishes (fun lexer => lexer.Stands [] buffer) (next none) after)
    (reads : forall byte rest, input = byte :: rest ->
      Establishes (fun lexer => lexer.Stands rest buffer) (next (some byte)) after) :
    Establishes (fun lexer => lexer.Stands input buffer) (get >>= next) after := by
  cases input with
  | nil =>
      refine establishes_get_nil.bind ?_
      rintro current lexer ⟨rfl, stands⟩
      exact ended rfl lexer stands
  | cons byte rest =>
      refine establishes_get_cons.bind ?_
      rintro current lexer ⟨rfl, stands⟩
      exact reads byte rest rfl lexer stands

/-- A program that reads a byte that is there. -/
theorem establishes_get_bind_cons {next : Option Byte -> Lexing A} {after : A -> Lexer -> Prop}
    (reads : Establishes (fun lexer => lexer.Stands rest buffer) (next (some byte)) after) :
    Establishes (fun lexer => lexer.Stands (byte :: rest) buffer) (get >>= next) after := by
  refine establishes_get_cons.bind ?_
  rintro current lexer ⟨rfl, stands⟩
  exact reads lexer stands

/-! ## Several bytes -/

theorem establishes_nextAre {bytes : List Byte} :
    Establishes (fun lexer => lexer.Stands (bytes ++ rest) buffer) (nextAre bytes) fun same lexer =>
      same = true ∧ lexer.Stands rest buffer := by
  induction bytes with
  | nil => exact fun lexer stands => ⟨rfl, stands⟩
  | cons byte bytes inductionHypothesis =>
      refine establishes_get_bind_cons ?_
      rw [if_pos rfl]
      exact inductionHypothesis

/-- Bytes that are not the expected ones make the difference. -/
theorem establishes_nextAre_only {bytes : List Byte} :
    Establishes (fun lexer => lexer.Stands input buffer) (nextAre bytes) fun same lexer =>
      same = true -> Exists fun rest => input = bytes ++ rest ∧ lexer.Stands rest buffer := by
  induction bytes generalizing input with
  | nil => exact fun lexer stands _ => ⟨input, rfl, stands⟩
  | cons byte bytes inductionHypothesis =>
      refine establishes_get_bind ?_ ?_
      · intro _
        rw [if_neg (by simp)]
        exact establishes_pure fun _ _ impossible => absurd impossible (by decide)
      · rintro current rest rfl
        refine Establishes.ite ?_ ?_
        · intro same
          cases same
          refine inductionHypothesis.weaken (fun _ stands => stands) ?_
          intro same lexer found agrees
          rcases found agrees with ⟨later, rfl, stands⟩
          exact ⟨later, rfl, stands⟩
        · exact fun _ => establishes_pure fun _ _ impossible => absurd impossible (by decide)

/-! ## Escaped characters -/

theorem establishes_addDigits {factors : List ℕ} {digits : List Byte} {codepoint value : ℕ}
    (hex : HexDigits factors digits value) :
    Establishes (fun lexer => lexer.Stands (digits ++ rest) buffer) (addDigits codepoint factors)
      fun found lexer => found = some (codepoint + value) ∧ lexer.Stands rest buffer := by
  induction hex generalizing codepoint with
  | nil => exact fun lexer stands => ⟨rfl, stands⟩
  | cons hex _ inductionHypothesis =>
      refine establishes_get_bind_cons ?_
      rw [hex, ← Nat.add_assoc]
      exact inductionHypothesis

theorem establishes_addDigits_only {factors : List ℕ} {codepoint : ℕ} :
    Establishes (fun lexer => lexer.Stands input buffer) (addDigits codepoint factors)
      fun found lexer => forall result, found = some result ->
        Exists fun digits => Exists fun value => Exists fun rest => HexDigits factors digits value ∧
          result = codepoint + value ∧ input = digits ++ rest ∧ lexer.Stands rest buffer := by
  induction factors generalizing input codepoint with
  | nil =>
      intro lexer stands result same
      cases same
      exact ⟨[], 0, input, .nil, rfl, rfl, stands⟩
  | cons factor factors inductionHypothesis =>
      refine establishes_get_bind ?_ ?_
      · rintro _ lexer _ result impossible
        cases impossible
      · rintro byte rest rfl
        cases hex : hexValue (some byte) with
        | none =>
            rintro lexer _ result impossible
            cases impossible
        | some digit =>
            refine inductionHypothesis.weaken (fun _ stands => stands) ?_
            intro found lexer others result same
            rcases others result same with ⟨digits, value, later, number, sum, rfl, stands⟩
            refine ⟨byte :: digits, digit <<< factor + value, later, .cons hex number, ?_, rfl, stands⟩
            rw [sum, Nat.add_assoc]

theorem establishes_getCodepoint {digits : List Byte} {value : ℕ} (number : HexNumber digits value) :
    Establishes (fun lexer => lexer.Stands (digits ++ rest) buffer) getCodepoint fun found lexer =>
      found = some value ∧ lexer.Stands rest buffer := by
  have sum : Establishes (fun lexer => lexer.Stands (digits ++ rest) buffer)
      (addDigits 0 [12, 8, 4, 0]) fun found lexer =>
        found = some (0 + value) ∧ lexer.Stands rest buffer :=
    establishes_addDigits number
  rw [Nat.zero_add] at sum
  exact sum

theorem establishes_getCodepoint_only :
    Establishes (fun lexer => lexer.Stands input buffer) getCodepoint fun found lexer =>
      forall value, found = some value -> Exists fun digits => Exists fun rest =>
        HexNumber digits value ∧ input = digits ++ rest ∧ lexer.Stands rest buffer := by
  refine establishes_addDigits_only.weaken (fun _ stands => stands) ?_
  intro found lexer others value same
  rcases others value same with ⟨digits, sum, rest, number, total, rfl, stands⟩
  rw [Nat.zero_add] at total
  subst total
  exact ⟨digits, rest, number, rfl, stands⟩

/-! ## Bytes of a character -/

theorem establishes_bytesInRange {ranges : List (Byte × Byte)} {bytes : List Byte}
    (inside : List.Forall₂ InRange ranges bytes) :
    Establishes (fun lexer => lexer.Stands (bytes ++ rest) buffer) (bytesInRange ranges)
      fun valid lexer => valid = true ∧ lexer.Stands rest (buffer ++ bytes) := by
  induction inside generalizing buffer with
  | nil =>
      rw [List.append_nil]
      exact fun lexer stands => ⟨rfl, stands⟩
  | @cons range byte ranges bytes first _ inductionHypothesis =>
      rcases range with ⟨low, high⟩
      have inRange : low ≤ byte ∧ byte ≤ high := first
      rw [List.append_cons buffer byte bytes]
      refine establishes_get_bind_cons ?_
      change Establishes _ (if low ≤ byte ∧ byte ≤ high then _ else _) _
      rw [if_pos inRange]
      exact establishes_add.bind fun _ => inductionHypothesis

theorem establishes_bytesInRange_only {ranges : List (Byte × Byte)} :
    Establishes (fun lexer => lexer.Stands input buffer) (bytesInRange ranges) fun valid lexer =>
      valid = true -> Exists fun bytes => Exists fun rest => List.Forall₂ InRange ranges bytes ∧
        input = bytes ++ rest ∧ lexer.Stands rest (buffer ++ bytes) := by
  induction ranges generalizing input buffer with
  | nil =>
      intro lexer stands _
      refine ⟨[], input, .nil, rfl, ?_⟩
      rw [List.append_nil]
      exact stands
  | cons range ranges inductionHypothesis =>
      rcases range with ⟨low, high⟩
      refine establishes_get_bind ?_ ?_
      · rintro _ lexer _ impossible
        cases impossible
      · rintro byte rest rfl
        refine Establishes.ite ?_ ?_
        · intro first
          refine establishes_add.bind fun _ => ?_
          refine inductionHypothesis.weaken (fun _ stands => stands) ?_
          intro valid lexer others same
          rcases others same with ⟨bytes, later, inside, rfl, stands⟩
          rw [← List.append_cons] at stands
          exact ⟨byte :: bytes, later, .cons first inside, rfl, stands⟩
        · rintro _ lexer _ impossible
          cases impossible

theorem or_eq_add {lower : ℕ} (shift upper : ℕ) (small : lower < 2 ^ shift) :
    2 ^ shift * upper ||| lower = 2 ^ shift * upper + lower :=
  (Nat.two_pow_add_eq_or_of_lt small upper).symm

/-- The last bits of a codepoint behind the mark of a following byte. -/
theorem following_eq (bits : ℕ) : 0x80 ||| bits &&& 0x3F = 0x80 + bits % 64 := by
  have low : bits &&& 0x3F = bits % 64 := Nat.and_two_pow_sub_one_eq_mod bits 6
  rw [low]
  exact or_eq_add 6 2 (Nat.mod_lt _ (by decide))

/-- The translation of a codepoint is the encoding of its character. -/
theorem codepointBytes_eq (character : Char) :
    codepointBytes character.toNat = String.utf8EncodeChar character := by
  have valid : character.toNat < 0xD800 ∨ 0xDFFF < character.toNat ∧ character.toNat < 0x110000 :=
    character.valid
  unfold codepointBytes
  simp only [Nat.shiftRight_eq_div_pow]
  have last : (UInt8.ofNat (0x80 ||| character.toNat &&& 0x3F)).toNat = 0x80 + character.toNat % 64 := by
    rw [following_eq, toNat_ofNat_of_lt (by omega)]
  have lower : (UInt8.ofNat (0x80 ||| character.toNat / 2 ^ 6 &&& 0x3F)).toNat =
      0x80 + character.toNat / 2 ^ 6 % 64 := by
    rw [following_eq, toNat_ofNat_of_lt (by omega)]
  have upper : (UInt8.ofNat (0x80 ||| character.toNat / 2 ^ 12 &&& 0x3F)).toNat =
      0x80 + character.toNat / 2 ^ 12 % 64 := by
    rw [following_eq, toNat_ofNat_of_lt (by omega)]
  split_ifs with one two three
  · exact (utf8EncodeChar_of_ascii one).symm
  · have lead : (UInt8.ofNat (0xC0 ||| character.toNat / 2 ^ 6)).toNat =
        0xC0 + character.toNat / 2 ^ 6 := by
      have marked : 0xC0 ||| character.toNat / 2 ^ 6 = 0xC0 + character.toNat / 2 ^ 6 :=
        or_eq_add 6 3 (by omega)
      rw [marked, toNat_ofNat_of_lt (by omega)]
    exact (utf8EncodeChar_of_two (by omega) (by omega) lead last).symm
  · have lead : (UInt8.ofNat (0xE0 ||| character.toNat / 2 ^ 12)).toNat =
        0xE0 + character.toNat / 2 ^ 12 := by
      have marked : 0xE0 ||| character.toNat / 2 ^ 12 = 0xE0 + character.toNat / 2 ^ 12 :=
        or_eq_add 5 7 (by omega)
      rw [marked, toNat_ofNat_of_lt (by omega)]
    exact (utf8EncodeChar_of_three (by omega) (by omega) (by omega) lead lower last).symm
  · have lead : (UInt8.ofNat (0xF0 ||| character.toNat / 2 ^ 18)).toNat =
        0xF0 + character.toNat / 2 ^ 18 := by
      have marked : 0xF0 ||| character.toNat / 2 ^ 18 = 0xF0 + character.toNat / 2 ^ 18 :=
        or_eq_add 4 15 (by omega)
      rw [marked, toNat_ofNat_of_lt (by omega)]
    exact (utf8EncodeChar_of_four (by omega) (by omega) (by omega) lead upper lower last).symm

/-! ## Pieces of a string -/

/-- How a round of `scan_string` comes out: a piece has been read, or the closing
quote, or the round has failed. -/
inductive RoundOutcome (input buffer : List Byte) : Unit ⊕ TokenType -> Lexer -> Prop where
  | piece {piece rest : List Byte} {character : Char} {lexer : Lexer}
      (written : StringPiece piece character) (split : input = piece ++ rest)
      (stands : lexer.Stands rest (buffer ++ String.utf8EncodeChar character)) :
      RoundOutcome input buffer (.inl ()) lexer
  | quote {rest : List Byte} {lexer : Lexer} (split : input = 0x22 :: rest)
      (stands : lexer.Stands rest buffer) : RoundOutcome input buffer (.inr .valueString) lexer
  | failed (lexer : Lexer) : RoundOutcome input buffer (.inr .parseError) lexer

theorem roundOutcome_failed {before : Lexer -> Prop} {message : String} :
    Establishes before (failed message) (RoundOutcome input buffer) :=
  fun _ _ => .failed _

/-- The characters of the two halves of a surrogate pair. -/
theorem surrogates_value {high low : ℕ} (isHigh : 0xD800 ≤ high ∧ high ≤ 0xDBFF)
    (isLow : 0xDC00 ≤ low ∧ low ≤ 0xDFFF) :
    (high <<< 10) + low - 0x35FDC00 = (high - 0xD800) * 0x400 + (low - 0xDC00) + 0x10000 := by
  rw [Nat.shiftLeft_eq]
  omega

/-- Adding the bytes of a character and going on. -/
theorem establishes_character {codepoint : ℕ} {character : Char} (same : character.toNat = codepoint) :
    Establishes (fun lexer => lexer.Stands rest buffer)
      (do
        addAll (codepointBytes codepoint)
        goOn) fun outcome lexer =>
      outcome = .inl () ∧ lexer.Stands rest (buffer ++ String.utf8EncodeChar character) := by
  subst same
  rw [codepointBytes_eq]
  exact establishes_addAll.bind fun _ _ stands => ⟨rfl, stands⟩

theorem establishes_scanUnicode {digits : List Byte} {character : Char}
    (number : HexNumber digits character.toNat) :
    Establishes (fun lexer => lexer.Stands (digits ++ rest) buffer) scanUnicode fun outcome lexer =>
      outcome = .inl () ∧ lexer.Stands rest (buffer ++ String.utf8EncodeChar character) := by
  have valid : character.toNat < 0xD800 ∨ 0xDFFF < character.toNat ∧ character.toNat < 0x110000 :=
    character.valid
  refine (establishes_getCodepoint number).bind_value ?_
  refine Establishes.ite ?_ fun _ => Establishes.ite ?_ fun _ => establishes_character rfl
  · omega
  · omega

theorem establishes_scanLowSurrogate {second : List Byte} {high low : ℕ} {character : Char}
    (secondNumber : HexNumber second low) (isHigh : 0xD800 ≤ high ∧ high ≤ 0xDBFF)
    (isLow : 0xDC00 ≤ low ∧ low ≤ 0xDFFF)
    (number : character.toNat = (high - 0xD800) * 0x400 + (low - 0xDC00) + 0x10000) :
    Establishes (fun lexer => lexer.Stands ([0x5C, 0x75] ++ (second ++ rest)) buffer)
      (scanLowSurrogate high) fun outcome lexer =>
        outcome = .inl () ∧ lexer.Stands rest (buffer ++ String.utf8EncodeChar character) := by
  refine establishes_nextAre.bind_value ?_
  rw [if_pos rfl]
  refine (establishes_getCodepoint secondNumber).bind_value ?_
  refine Establishes.ite ?_ fun notLow => absurd isLow notLow
  exact fun _ => establishes_character (number.trans (surrogates_value isHigh isLow).symm)

theorem establishes_scanUnicode_surrogates {first second : List Byte} {high low : ℕ} {character : Char}
    (firstNumber : HexNumber first high) (secondNumber : HexNumber second low)
    (isHigh : 0xD800 ≤ high ∧ high ≤ 0xDBFF) (isLow : 0xDC00 ≤ low ∧ low ≤ 0xDFFF)
    (number : character.toNat = (high - 0xD800) * 0x400 + (low - 0xDC00) + 0x10000) :
    Establishes (fun lexer => lexer.Stands (first ++ ([0x5C, 0x75] ++ (second ++ rest))) buffer)
      scanUnicode fun outcome lexer =>
        outcome = .inl () ∧ lexer.Stands rest (buffer ++ String.utf8EncodeChar character) := by
  refine (establishes_getCodepoint firstNumber).bind_value ?_
  refine Establishes.ite ?_ fun notHigh => absurd isHigh notHigh
  exact fun _ => establishes_scanLowSurrogate secondNumber isHigh isLow number

theorem utf8EncodeChar_of_escape {letter byte : Byte} {character : Char}
    (escaped : escapes.lookup letter = some byte) (meant : character.toNat = byte.toNat) :
    String.utf8EncodeChar character = [byte] := by
  have small : byte.toNat < 0x80 := by
    have all : escapes.all (fun entry => decide (entry.2.toNat < 0x80)) = true := by decide
    rcases List.lookup_eq_some_iff.mp escaped with ⟨before, after, split, _⟩
    have listed : (letter, byte) ∈ escapes := split ▸ List.mem_append_right before List.mem_cons_self
    exact of_decide_eq_true (List.all_eq_true.mp all (letter, byte) listed)
  rw [utf8EncodeChar_of_ascii (by omega), meant, UInt8.ofNat_toNat]

/-- A character that stands for itself is read in one round. -/
theorem establishes_scanStringRound_itself {character : Char} (printable : 0x20 ≤ character.toNat)
    (noQuote : character.toNat ≠ 0x22) (noBackslash : character.toNat ≠ 0x5C) :
    Establishes (fun lexer => lexer.Stands (String.utf8EncodeChar character ++ rest) buffer)
      (scanStringRound ()) fun outcome lexer =>
        outcome = .inl () ∧ lexer.Stands rest (buffer ++ String.utf8EncodeChar character) := by
  by_cases small : character.toNat < 0x80
  · have value : (UInt8.ofNat character.toNat).toNat = character.toNat := toNat_ofNat_of_lt (by omega)
    rw [utf8EncodeChar_of_ascii small]
    refine establishes_get_bind_cons ?_
    simp only [UInt8.le_iff_toNat_le, ← UInt8.toNat_inj, UInt8.reduceToNat, value]
    rw [if_neg noQuote, if_neg noBackslash, if_neg (by omega), if_pos (by omega)]
    exact establishes_add.bind fun _ _ stands => ⟨rfl, stands⟩
  · have ranged := wellRanged_of_char (Nat.le_of_not_lt small)
    cases bytes : String.utf8EncodeChar character with
    | nil => exact absurd bytes String.utf8EncodeChar_ne_nil
    | cons lead tail =>
        rw [bytes] at ranged
        rcases ranged with ⟨ranges, found, inside⟩
        have large := le_of_followingRanges found
        refine establishes_get_bind_cons ?_
        simp only [UInt8.le_iff_toNat_le, ← UInt8.toNat_inj, UInt8.reduceToNat, found]
        rw [if_neg (by omega), if_neg (by omega), if_neg (by omega), if_neg (by omega),
          List.append_cons]
        refine (establishes_add.bind fun _ => establishes_bytesInRange inside).bind_value ?_
        rw [if_pos rfl]
        exact fun lexer stands => ⟨rfl, stands⟩

/-- A piece of a string is read in one round. -/
theorem establishes_scanStringRound {piece : List Byte} {character : Char}
    (written : StringPiece piece character) :
    Establishes (fun lexer => lexer.Stands (piece ++ rest) buffer) (scanStringRound ())
      fun outcome lexer =>
        outcome = .inl () ∧ lexer.Stands rest (buffer ++ String.utf8EncodeChar character) := by
  cases written with
  | itself printable noQuote noBackslash =>
      exact establishes_scanStringRound_itself printable noQuote noBackslash
  | @escape letter byte _ escaped meant =>
      rw [utf8EncodeChar_of_escape escaped meant]
      refine establishes_get_bind_cons ?_
      change Establishes _ scanEscape _
      refine establishes_get_bind_cons ?_
      simp only [Option.bind_some, escaped]
      exact establishes_add.bind fun _ _ stands => ⟨rfl, stands⟩
  | unicode number =>
      refine establishes_get_bind_cons ?_
      change Establishes _ scanEscape _
      refine establishes_get_bind_cons ?_
      exact establishes_scanUnicode number
  | @surrogates first second _ _ _ firstNumber secondNumber isHigh isLow number =>
      rw [List.cons_append, List.cons_append, List.append_assoc]
      refine establishes_get_bind_cons ?_
      change Establishes _ scanEscape _
      refine establishes_get_bind_cons ?_
      change Establishes _ scanUnicode _
      exact establishes_scanUnicode_surrogates firstNumber secondNumber isHigh isLow number

/-! ## Nothing else is a piece -/

/-- A codepoint that is a character has been added. -/
theorem roundOutcome_character (piece : List Byte) {codepoint : ℕ} (valid : codepoint.isValidChar)
    (written : forall character : Char, character.toNat = codepoint -> StringPiece piece character) :
    Establishes (fun lexer => lexer.Stands rest buffer)
      (do
        addAll (codepointBytes codepoint)
        goOn) (RoundOutcome (piece ++ rest) buffer) := by
  rcases exists_char_of_isValidChar valid with ⟨character, same⟩
  refine (establishes_character same).weaken (fun _ stands => stands) ?_
  rintro outcome lexer ⟨rfl, stands⟩
  exact .piece (written character same) rfl stands

theorem roundOutcome_scanLowSurrogate {first : List Byte} {high : ℕ} (firstNumber : HexNumber first high)
    (isHigh : 0xD800 ≤ high ∧ high ≤ 0xDBFF) :
    Establishes (fun lexer => lexer.Stands input buffer) (scanLowSurrogate high)
      (RoundOutcome (0x5C :: 0x75 :: (first ++ input)) buffer) := by
  refine establishes_nextAre_only.bind fun same => ?_
  refine Establishes.ite ?_ fun _ => roundOutcome_failed
  intro follows lexer others
  rcases others follows with ⟨rest, rfl, between⟩
  refine (establishes_getCodepoint_only.bind fun found => ?_) lexer between
  cases found with
  | none => exact roundOutcome_failed
  | some low =>
      refine Establishes.ite ?_ fun _ => roundOutcome_failed
      intro isLow lexer others
      rcases others low rfl with ⟨second, rest, secondNumber, rfl, stands⟩
      have valid : ((high <<< 10) + low - 0x35FDC00).isValidChar := by
        rw [surrogates_value isHigh isLow]
        exact .inr (by omega)
      have outcome := roundOutcome_character (0x5C :: 0x75 :: (first ++ 0x5C :: 0x75 :: second))
        valid (fun character same => .surrogates firstNumber secondNumber isHigh isLow
          (same.trans (surrogates_value isHigh isLow))) lexer stands
      simpa only [List.append_assoc, List.cons_append, List.nil_append] using outcome

theorem roundOutcome_scanUnicode :
    Establishes (fun lexer => lexer.Stands input buffer) scanUnicode
      (RoundOutcome (0x5C :: 0x75 :: input) buffer) := by
  refine establishes_getCodepoint_only.bind fun found => ?_
  cases found with
  | none => exact roundOutcome_failed
  | some codepoint =>
      intro lexer others
      rcases others codepoint rfl with ⟨digits, rest, number, rfl, stands⟩
      refine (Establishes.ite ?_ fun notHigh => Establishes.ite ?_ fun notLow => ?_ : Establishes
        (fun lexer => lexer.Stands rest buffer) (if 0xD800 ≤ codepoint ∧ codepoint ≤ 0xDBFF then _ else _)
          _) lexer stands
      · exact roundOutcome_scanLowSurrogate number
      · exact fun _ => roundOutcome_failed
      · have bound := number.lt
        have valid : codepoint.isValidChar := by
          by_cases low : codepoint < 0xD800
          · exact .inl low
          · exact .inr (by omega)
        exact roundOutcome_character (0x5C :: 0x75 :: digits) valid
          fun character same => .unicode (same ▸ number)

theorem roundOutcome_scanEscape :
    Establishes (fun lexer => lexer.Stands input buffer) scanEscape
      (RoundOutcome (0x5C :: input) buffer) := by
  refine establishes_get_bind ?_ ?_
  · exact fun _ => roundOutcome_failed
  · rintro letter rest rfl
    cases escaped : escapes.lookup letter with
    | none =>
        simp only [Option.bind_some, escaped]
        refine Establishes.ite ?_ fun _ => roundOutcome_failed
        intro isUnicode
        cases isUnicode
        exact roundOutcome_scanUnicode
    | some byte =>
        have small : byte.toNat < 0xD800 := Nat.lt_trans (UInt8.toNat_lt byte) (by decide)
        rcases exists_char_of_isValidChar (.inl small) with ⟨character, meant⟩
        simp only [Option.bind_some, escaped]
        refine establishes_add.bind fun _ lexer stands => ?_
        rw [← utf8EncodeChar_of_escape escaped meant] at stands
        exact .piece (.escape escaped meant) rfl stands

/-- A round reads a piece or the closing quote, or fails. -/
theorem roundOutcome_scanStringRound :
    Establishes (fun lexer => lexer.Stands input buffer) (scanStringRound ())
      (RoundOutcome input buffer) := by
  refine establishes_get_bind ?_ ?_
  · exact fun _ => roundOutcome_failed
  · rintro byte rest rfl
    refine Establishes.ite ?_ fun noQuote => Establishes.ite ?_ fun noBackslash =>
      Establishes.ite ?_ fun printable => Establishes.ite ?_ fun wide => ?_
    · rintro rfl lexer stands
      exact .quote rfl stands
    · rintro rfl
      exact roundOutcome_scanEscape
    · exact fun _ => roundOutcome_failed
    · have printableValue : ¬ byte.toNat ≤ 0x1F := printable
      intro small
      have smallValue : byte.toNat < 0x80 := Nat.lt_succ_of_le small
      rcases exists_char_of_isValidChar (n := byte.toNat) (.inl (by omega)) with ⟨character, same⟩
      have bytes : String.utf8EncodeChar character = [byte] := by
        rw [utf8EncodeChar_of_ascii (by omega), same, UInt8.ofNat_toNat]
      have written : StringPiece [byte] character := by
        rw [← bytes]
        refine .itself (by omega) ?_ ?_
        · rw [same]
          exact fun quote => noQuote (UInt8.toNat_inj.mp quote)
        · rw [same]
          exact fun backslash => noBackslash (UInt8.toNat_inj.mp backslash)
      refine establishes_add.bind fun _ lexer stands => ?_
      rw [← bytes] at stands
      exact .piece written rfl stands
    · cases found : followingRanges byte with
      | none => exact roundOutcome_failed
      | some ranges =>
          refine (establishes_add.bind fun _ => establishes_bytesInRange_only).bind fun valid => ?_
          refine Establishes.ite ?_ fun _ => roundOutcome_failed
          intro isValid lexer others
          rcases others isValid with ⟨tail, later, inside, rfl, stands⟩
          rcases exists_char_of_wellRanged ⟨ranges, found, inside⟩ with ⟨character, large, bytes⟩
          rw [List.append_assoc, List.singleton_append, ← bytes] at stands
          have written : StringPiece (byte :: tail) character := by
            rw [← bytes]
            exact .itself (by omega) (by omega) (by omega)
          exact .piece written rfl stands

/-! ## Strings -/

theorem Stands.unread {lexer : Lexer} (stands : lexer.Stands input buffer) : lexer.unread = input := by
  unfold Lexer.unread
  rw [stands.taken, stands.input]
  rfl

theorem loop_of_stringText {text : List Byte} {characters : List Char}
    (written : StringText text characters) {rounds : ℕ} (enough : text.length < rounds) :
    Establishes (fun lexer => lexer.Stands (text ++ 0x22 :: rest) buffer)
      (loop (fail "") scanStringRound rounds ()) fun type lexer =>
        type = .valueString ∧ lexer.Stands rest (buffer ++ encode characters) := by
  induction written generalizing buffer rounds with
  | nil =>
      intro lexer stands
      rcases Nat.exists_eq_succ_of_ne_zero (Nat.ne_zero_of_lt enough) with ⟨fewer, rfl⟩
      have quote : Establishes (fun lexer => lexer.Stands (0x22 :: rest) buffer) (scanStringRound ())
          fun outcome lexer => outcome = .inr .valueString ∧ lexer.Stands rest buffer :=
        establishes_get_bind_cons fun lexer stands => ⟨rfl, stands⟩
      rcases quote lexer stands with ⟨ends, after⟩
      rw [loop_of_ends (Prod.ext ends rfl), encode, List.flatMap_nil, List.append_nil]
      exact ⟨rfl, after⟩
  | @cons piece text character characters first _ inductionHypothesis =>
      intro lexer stands
      rcases Nat.exists_eq_succ_of_ne_zero (Nat.ne_zero_of_lt enough) with ⟨fewer, rfl⟩
      have filled := first.filled
      rw [List.length_append] at enough
      rw [List.append_assoc] at stands
      rcases establishes_scanStringRound first lexer stands with ⟨goesOn, after⟩
      rw [loop_of_goesOn (Prod.ext goesOn rfl)]
      have fewerEnough : text.length < fewer := by
        omega
      have others := inductionHypothesis fewerEnough _ after
      rw [List.append_assoc] at others
      exact others

/-- A string in quotes is read, and the buffer holds its characters. -/
theorem establishes_scanString {text : List Byte} {characters : List Char}
    (written : StringText text characters) :
    Establishes (fun lexer => lexer.Stands (text ++ 0x22 :: rest) buffer) scanString fun type lexer =>
      type = .valueString ∧ lexer.Stands rest (encode characters) := by
  refine establishes_reset.bind fun _ lexer stands => ?_
  have enough : text.length < lexer.unread.length + 1 := by
    rw [stands.unread, List.length_append]
    omega
  exact loop_of_stringText written enough lexer stands

/-- Nothing else is. -/
theorem establishes_scanString_only :
    Establishes (fun lexer => lexer.Stands input buffer) scanString fun type lexer =>
      type = .parseError ∨ type = .valueString ∧ Exists fun text => Exists fun characters =>
        Exists fun rest => StringText text characters ∧ input = text ++ 0x22 :: rest ∧
          lexer.Stands rest (encode characters) := by
  refine establishes_reset.bind fun _ lexer stands => ?_
  have rounds := establishes_loop (fail "") scanStringRound
    (fun lexer => lexer.input.length)
    (fun _ lexer => Exists fun text => Exists fun characters =>
      StringText text characters ∧ input = text ++ lexer.input ∧
        lexer.Stands lexer.input (encode characters))
    (fun type lexer => type = .parseError ∨ type = .valueString ∧ Exists fun text =>
      Exists fun characters => Exists fun rest => StringText text characters ∧
        input = text ++ 0x22 :: rest ∧ lexer.Stands rest (encode characters))
    ?_ () (lexer.unread.length + 1) lexer ⟨⟨[], [], .nil, ?_, ?_⟩, ?_⟩
  · exact rounds
  · rintro _ lexer ⟨text, characters, written, split, stands⟩
    have outcome := roundOutcome_scanStringRound lexer stands
    constructor
    · intro _ goesOn
      rcases round : scanStringRound () lexer with ⟨further, next⟩
      rw [round] at outcome goesOn
      cases goesOn
      cases outcome with
      | piece first splitInput stands =>
          have filled := first.filled
          refine ⟨⟨_, _, written.append_piece first, ?_, ?_⟩, ?_⟩
          · rw [split, splitInput, stands.input, List.append_assoc]
          · rw [encode_append, encode_singleton, stands.input]
            exact stands
          · change next.input.length < lexer.input.length
            rw [splitInput, stands.input, List.length_append]
            omega
    · intro type ends
      rcases round : scanStringRound () lexer with ⟨further, next⟩
      rw [round] at outcome ends
      cases ends
      cases outcome with
      | quote splitInput stands =>
          exact .inr ⟨rfl, text, characters, _, written, by rw [split, splitInput], stands⟩
      | failed => exact .inl rfl
  · rw [stands.input]
    rfl
  · rw [stands.input]
    exact stands
  · rw [stands.unread, stands.input]
    exact Nat.lt_succ_self _

end Lexer

end CoreBank
