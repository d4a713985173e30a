import CoreBank.Server.JsonStrings
import CoreBank.Server.WellFormedCommands

namespace CoreBank

open Foundation

/-!
# The numbers of a JSON text

The scan of a number goes through states, and the text of a number is a way
through them.  The type of the number follows from the bytes on the way.  What
is converted at the end is an integer, if the text is one that 64 bits hold, and
else the nearest double.
-/

/-- The way of the scan of a number through its states. -/
inductive NumberPath : Lexer.NumberState -> List Byte -> Lexer.NumberState -> Prop where
  | nil (state : Lexer.NumberState) : NumberPath state [] state
  | cons {state further last : Lexer.NumberState} {byte : Byte} {text : List Byte}
      (reads : state.next (some byte) = .ok (some further)) (others : NumberPath further text last) :
      NumberPath state (byte :: text) last

theorem NumberPath.append_byte {start state further : Lexer.NumberState} {text : List Byte} {byte : Byte}
    (path : NumberPath start text state) (reads : state.next (some byte) = .ok (some further)) :
    NumberPath start (text ++ [byte]) further := by
  induction path with
  | nil => exact .cons reads (.nil _)
  | cons first _ inductionHypothesis => exact .cons first (inductionHypothesis reads)

/-- A number as the lexer keeps it. -/
inductive ScannedNumber where
  | integer (value : ℤ)
  | float (value : Option FiniteDouble)

/-- An integer that fits 64 bits, or a double. -/
def numberOf (text : List Byte) : ScannedNumber :=
  match integerValue text with
  | some value =>
      if -2 ^ 63 ≤ value ∧ value < 2 ^ 64 then .integer value else .float (Lexer.strtof text)
  | none => .float (Lexer.strtof text)

namespace Lexer

/-- The number that the lexer has read. -/
inductive KeepsNumber (lexer : Lexer) : TokenType -> ScannedNumber -> Prop where
  | unsigned {value : ℕ} (kept : lexer.valueUnsigned = value) :
      KeepsNumber lexer .valueUnsigned (.integer value)
  | integer {value : ℤ} (kept : lexer.valueInteger = value) :
      KeepsNumber lexer .valueInteger (.integer value)
  | float {value : Option FiniteDouble} (kept : lexer.valueFloat = value) :
      KeepsNumber lexer .valueFloat (.float value)

/-- This is to be read, the byte that is put back included. -/
structure Offers (lexer : Lexer) (input : List Byte) : Prop where
  unread : lexer.unread = input
  ended : lexer.nextUnget = true -> lexer.current = none -> lexer.input = []

/-! ## The shape of what has been read -/

/-- What is in the buffer in a state of the scan: digits, a minus and digits, or
a text with a byte that no integer has. -/
inductive Shaped : NumberState -> TokenType -> List Byte -> Prop where
  | unsigned {state : NumberState} {text : List Byte} (early : state = .zero ∨ state = .any1)
      (filled : text ≠ []) (digits : text.all isDigit = true) : Shaped state .valueUnsigned text
  | integer {state : NumberState} {digits : List Byte}
      (early : state = .minus ∧ digits = [] ∨ (state = .zero ∨ state = .any1) ∧ digits ≠ [])
      (all : digits.all isDigit = true) : Shaped state .valueInteger (0x2D :: digits)
  | float {state : NumberState} {text : List Byte} {mark : Byte} (member : mark ∈ text)
      (noDigit : isDigit mark = false) (noSign : isSign mark = false) : Shaped state .valueFloat text

/-- The state that the first byte of a number leads to. -/
def numberStart (first : Byte) : NumberState :=
  if first = 0x2D then .minus else if first = 0x30 then .zero else .any1

theorem shaped_start {first : Byte} (begins : first = 0x2D ∨ isDigit first = true) :
    Shaped (numberStart first) ((numberStart first).numberType .valueUnsigned) [first] := by
  by_cases minus : first = 0x2D
  · subst minus
    exact .integer (.inl ⟨rfl, rfl⟩) rfl
  · have digit := begins.resolve_left minus
    have digits : [first].all isDigit = true := by
      rw [List.all_cons, digit]
      rfl
    by_cases zero : first = 0x30
    · subst zero
      exact .unsigned (.inl rfl) (List.cons_ne_nil _ _) digits
    · have any1 : numberStart first = .any1 := (if_neg minus).trans (if_neg zero)
      rw [any1]
      exact .unsigned (.inr rfl) (List.cons_ne_nil _ _) digits

theorem all_isDigit_append {text : List Byte} {byte : Byte} (digits : text.all isDigit = true)
    (digit : isDigit byte = true) : (text ++ [byte]).all isDigit = true := by
  rw [List.all_append, digits, List.all_cons, digit]
  rfl

theorem all_isDigit_cons {text : List Byte} {byte : Byte} (digit : isDigit byte = true)
    (digits : text.all isDigit = true) : (byte :: text).all isDigit = true := by
  rw [List.all_cons, digit, digits]
  rfl

/-- A decimal point or an exponent makes the number a floating-point one. -/
theorem shaped_mark {state : NumberState} {text : List Byte} {byte : Byte}
    (mark : byte = 0x2E ∨ byte = 0x65 ∨ byte = 0x45) : Shaped state .valueFloat (text ++ [byte]) := by
  have member : byte ∈ text ++ [byte] := List.mem_append_right text (List.mem_singleton_self byte)
  rcases mark with rfl | rfl | rfl
  · exact .float member rfl rfl
  · exact .float member rfl rfl
  · exact .float member rfl rfl

/-- In the first states a byte is a digit or makes the number a floating-point
one. -/
theorem next_of_early {state further : NumberState} {byte : Byte}
    (early : state = .minus ∨ state = .zero ∨ state = .any1)
    (reads : state.next (some byte) = .ok (some further)) :
    (further = .zero ∨ further = .any1) ∧ isDigit byte = true ∨
      (further = .decimal1 ∨ further = .exponent) ∧ (byte = 0x2E ∨ byte = 0x65 ∨ byte = 0x45) := by
  rcases early with rfl | rfl | rfl
  · rw [NumberState.next] at reads
    split_ifs at reads with zero digit
    · cases zero
      cases reads
      exact .inl ⟨.inl rfl, rfl⟩
    · cases reads
      exact .inl ⟨.inr rfl, digit⟩
  · rw [NumberState.next] at reads
    split_ifs at reads with point exponent
    · cases point
      cases reads
      exact .inr ⟨.inl rfl, .inl rfl⟩
    · cases reads
      exact .inr ⟨.inr rfl, .inr (exponent.imp Option.some.inj Option.some.inj)⟩
    · cases reads
  · rw [NumberState.next] at reads
    split_ifs at reads with digit point exponent
    · cases reads
      exact .inl ⟨.inr rfl, digit⟩
    · cases point
      cases reads
      exact .inr ⟨.inl rfl, .inl rfl⟩
    · cases reads
      exact .inr ⟨.inr rfl, .inr (exponent.imp Option.some.inj Option.some.inj)⟩
    · cases reads

/-- No byte leads back to the minus. -/
theorem next_ne_minus {state : NumberState} {current : Option Byte} :
    state.next current ≠ .ok (some .minus) := by
  intro reads
  cases state with
  | _ =>
      rw [NumberState.next] at reads
      split_ifs at reads <;> cases reads

/-- Every byte keeps the shape. -/
theorem Shaped.next {state further : NumberState} {type : TokenType} {text : List Byte} {byte : Byte}
    (shaped : Shaped state type text) (reads : state.next (some byte) = .ok (some further)) :
    Shaped further (further.numberType type) (text ++ [byte]) := by
  cases shaped with
  | unsigned early filled digits =>
      rcases next_of_early (.inr early) reads with ⟨rfl | rfl, digit⟩ | ⟨rfl | rfl, mark⟩
      · exact .unsigned (.inl rfl) (List.append_ne_nil_of_left_ne_nil filled _)
          (all_isDigit_append digits digit)
      · exact .unsigned (.inr rfl) (List.append_ne_nil_of_left_ne_nil filled _)
          (all_isDigit_append digits digit)
      · exact shaped_mark mark
      · exact shaped_mark mark
  | @integer digits early all =>
      have first : state = .minus ∨ state = .zero ∨ state = .any1 :=
        early.imp And.left And.left
      have filled : digits ++ [byte] ≠ [] := List.append_ne_nil_of_right_ne_nil _ (List.cons_ne_nil _ _)
      rcases next_of_early first reads with ⟨rfl | rfl, digit⟩ | ⟨rfl | rfl, mark⟩
      · exact .integer (.inr ⟨.inl rfl, filled⟩) (all_isDigit_append all digit)
      · exact .integer (.inr ⟨.inr rfl, filled⟩) (all_isDigit_append all digit)
      · exact shaped_mark mark
      · exact shaped_mark mark
  | float member noDigit noSign =>
      have still : Shaped further .valueFloat (text ++ [byte]) :=
        .float (List.mem_append_left _ member) noDigit noSign
      cases further with
      | minus => exact absurd reads next_ne_minus
      | _ => exact still

/-- Digits without a sign. -/
theorem integerValue_of_digits {text : List Byte} (filled : text ≠ []) (digits : text.all isDigit = true) :
    integerValue text = some (digitsValue text : ℤ) :=
  integerValue_parts .none filled (List.all_eq_true.mp digits)

theorem integerValue_of_minus {text : List Byte} (filled : text ≠ []) (digits : text.all isDigit = true) :
    integerValue (0x2D :: text) = some (-(digitsValue text : ℤ)) :=
  integerValue_parts .minus filled (List.all_eq_true.mp digits)

/-- A text with another byte than digits and a sign is no integer. -/
theorem integerValue_of_mark {text : List Byte} {mark : Byte} (member : mark ∈ text)
    (noDigit : isDigit mark = false) (noSign : isSign mark = false) : integerValue text = none := by
  cases value : integerValue text with
  | none => rfl
  | some n =>
      rcases integerValue_eq_some value with ⟨sign, digits, rfl, part, _, digit, _⟩
      rcases List.mem_append.mp member with inSign | inDigits
      · cases part with
        | none => cases inSign
        | plus =>
            cases List.mem_singleton.mp inSign
            cases noSign
        | minus =>
            cases List.mem_singleton.mp inSign
            cases noSign
      · rw [digit mark inDigits] at noDigit
        cases noDigit

theorem keepsNumber_convertFloat {lexer : Lexer} :
    (convertFloat lexer).2.KeepsNumber (convertFloat lexer).1 (.float (strtof lexer.tokenBuffer)) :=
  .float rfl

/-- The conversion of what has been read. -/
theorem Shaped.keepsNumber_convert {state : NumberState} {type : TokenType} {lexer : Lexer}
    (shaped : Shaped state type lexer.tokenBuffer) (accepting : state ≠ .minus) :
    (convert type lexer).2.KeepsNumber (convert type lexer).1 (numberOf lexer.tokenBuffer) := by
  generalize text : lexer.tokenBuffer = buffer at shaped
  cases shaped with
  | unsigned _ filled digits =>
      have natural : naturalValue buffer = some (digitsValue buffer) :=
        if_pos ⟨filled, digits⟩
      have whole := integerValue_of_digits filled digits
      by_cases fits : digitsValue buffer < 2 ^ 64
      · have read : strtoull lexer.tokenBuffer = some (digitsValue buffer) := by
          rw [strtoull, text, natural]
          exact Option.filter_eq_some_iff.mpr ⟨rfl, decide_eq_true fits⟩
        have number : numberOf buffer = .integer (digitsValue buffer) := by
          unfold numberOf
          rw [whole]
          exact if_pos ⟨by omega, by exact_mod_cast fits⟩
        simp only [convert, read, number]
        exact .unsigned rfl
      · have read : strtoull lexer.tokenBuffer = none := by
          rw [strtoull, text, natural]
          exact Option.filter_eq_none_iff.mpr fun value same => by
            cases same
            rw [decide_eq_true_eq]
            exact fits
        have number : numberOf buffer = .float (strtof buffer) := by
          unfold numberOf
          rw [whole]
          exact if_neg fun both => fits (by exact_mod_cast both.2)
        simp only [convert, read, number]
        exact text ▸ keepsNumber_convertFloat
  | @integer digits early all =>
      have filled : digits ≠ [] := early.elim (fun both => absurd both.1 accepting) And.right
      have whole := integerValue_of_minus filled all
      by_cases fits : -2 ^ 63 ≤ -(digitsValue digits : ℤ)
      · have read : strtoll lexer.tokenBuffer = some (-(digitsValue digits : ℤ)) := by
          rw [strtoll, text, whole]
          exact Option.filter_eq_some_iff.mpr ⟨rfl, decide_eq_true ⟨fits, by omega⟩⟩
        have number : numberOf (0x2D :: digits) = .integer (-(digitsValue digits : ℤ)) := by
          unfold numberOf
          rw [whole]
          exact if_pos ⟨fits, by omega⟩
        simp only [convert, read, number]
        exact .integer rfl
      · have read : strtoll lexer.tokenBuffer = none := by
          rw [strtoll, text, whole]
          exact Option.filter_eq_none_iff.mpr fun value same => by
            cases same
            rw [decide_eq_true_eq]
            exact fun both => fits both.1
        have number : numberOf (0x2D :: digits) = .float (strtof (0x2D :: digits)) := by
          unfold numberOf
          rw [whole]
          exact if_neg fun both => fits both.1
        simp only [convert, read, number]
        exact text ▸ keepsNumber_convertFloat
  | float member noDigit noSign =>
      have number : numberOf buffer = .float (strtof buffer) := by
        unfold numberOf
        rw [integerValue_of_mark member noDigit noSign]
      simp only [convert, number]
      exact text ▸ keepsNumber_convertFloat

/-! ## The scan -/

variable {input rest buffer text : List Byte} {state last : NumberState} {type : TokenType}

/-- The scan gives the number back behind its text. -/
def EndsNumber (value : ScannedNumber) (rest : List Byte) (type : TokenType) (lexer : Lexer) : Prop :=
  lexer.KeepsNumber type value ∧ lexer.Offers rest

theorem establishes_get :
    Establishes (fun lexer => lexer.Stands rest buffer) get fun current lexer => current = rest.head? ∧
      lexer.Stands rest.tail buffer ∧ lexer.current = rest.head? := by
  intro lexer stands
  unfold get
  rw [stands.taken, stands.input]
  exact ⟨rfl, ⟨rfl, rfl, stands.buffer⟩, rfl⟩

/-- What `unget` puts back is to be read again. -/
theorem establishes_unget :
    Establishes (fun lexer => lexer.Stands rest.tail buffer ∧ lexer.current = rest.head?) unget
      fun _ lexer => lexer.Offers rest ∧ lexer.tokenBuffer = buffer := by
  rintro lexer ⟨stands, current⟩
  refine ⟨⟨?_, fun _ ended => ?_⟩, stands.buffer⟩
  · change lexer.current.toList ++ lexer.input = rest
    rw [current, stands.input]
    cases rest with
    | nil => rfl
    | cons => rfl
  · change lexer.current = none at ended
    change lexer.input = []
    rw [current, List.head?_eq_none_iff] at ended
    rw [stands.input, ended]
    rfl

/-- The conversion only changes the value that it keeps. -/
theorem convert_kept (type : TokenType) (lexer : Lexer) :
    (convert type lexer).2.input = lexer.input ∧ (convert type lexer).2.current = lexer.current ∧
      (convert type lexer).2.nextUnget = lexer.nextUnget ∧
      (convert type lexer).2.tokenString = lexer.tokenString := by
  cases type with
  | valueUnsigned =>
      simp only [convert]
      cases strtoull lexer.tokenBuffer with
      | none => exact ⟨rfl, rfl, rfl, rfl⟩
      | some value => exact ⟨rfl, rfl, rfl, rfl⟩
  | valueInteger =>
      simp only [convert]
      cases strtoll lexer.tokenBuffer with
      | none => exact ⟨rfl, rfl, rfl, rfl⟩
      | some value => exact ⟨rfl, rfl, rfl, rfl⟩
  | _ => exact ⟨rfl, rfl, rfl, rfl⟩

theorem establishes_convert (shaped : Shaped state type buffer) (accepting : state ≠ .minus) :
    Establishes (fun lexer => lexer.Offers rest ∧ lexer.tokenBuffer = buffer) (convert type)
      fun result lexer => EndsNumber (numberOf buffer) rest result lexer := by
  rintro lexer ⟨offers, rfl⟩
  rcases convert_kept type lexer with ⟨input, current, nextUnget, _⟩
  refine ⟨shaped.keepsNumber_convert accepting, ?_, ?_⟩
  · rw [← offers.unread, Lexer.unread, Lexer.unread, input, current, nextUnget]
  · rw [input, current, nextUnget]
    exact offers.ended

/-- A byte that leads on. -/
theorem establishes_scanNumberRound (type : TokenType) {current : Byte} {further : NumberState}
    (reads : state.next (some current) = .ok (some further)) :
    Establishes (fun lexer => lexer.Stands (current :: rest) buffer) (scanNumberRound (state, type))
      fun outcome lexer => outcome = .inl (further, further.numberType type) ∧
        lexer.Stands rest (buffer ++ [current]) := by
  refine establishes_get_bind_cons ?_
  simp only [reads]
  exact establishes_addAll.bind fun _ lexer stands => ⟨rfl, stands⟩

theorem ne_minus_of_done {current : Option Byte} (done : state.next current = .ok none) :
    state ≠ .minus := by
  rintro rfl
  rw [NumberState.next] at done
  split_ifs at done <;> cases done

/-- A byte, or the end, that no number goes on with. -/
theorem establishes_scanNumberRound_ends (done : state.next rest.head? = .ok none)
    (shaped : Shaped state type buffer) :
    Establishes (fun lexer => lexer.Stands rest buffer) (scanNumberRound (state, type))
      fun outcome lexer => Exists fun result => outcome = .inr result ∧
        EndsNumber (numberOf buffer) rest result lexer := by
  refine establishes_get.bind_value ?_
  simp only [done]
  refine establishes_unget.bind fun _ => ?_
  refine (establishes_convert shaped (ne_minus_of_done done)).bind fun result => ?_
  exact fun lexer ends => ⟨result, rfl, ends⟩

theorem establishes_scanNumberRound_fails (type : TokenType) {message : String}
    (fails : state.next rest.head? = .error message) :
    Establishes (fun lexer => lexer.Stands rest buffer) (scanNumberRound (state, type))
      fun outcome _ => outcome = .inr .parseError := by
  refine establishes_get.bind_value ?_
  simp only [fails]
  exact fun _ _ => rfl

/-- At the end of the input no number goes on. -/
theorem next_none_ne {further : NumberState} : state.next none ≠ .ok (some further) := by
  intro reads
  cases state with
  | _ => simp [NumberState.next] at reads

theorem loop_of_numberPath (path : NumberPath state text last) (done : last.next rest.head? = .ok none)
    (shaped : Shaped state type buffer) {rounds : ℕ} (enough : text.length < rounds) :
    Establishes (fun lexer => lexer.Stands (text ++ rest) buffer)
      (loop (fail "") scanNumberRound rounds (state, type))
      (EndsNumber (numberOf (buffer ++ text)) rest) := by
  induction path generalizing buffer type rounds with
  | nil state =>
      intro lexer stands
      rcases Nat.exists_eq_succ_of_ne_zero (Nat.ne_zero_of_lt enough) with ⟨fewer, rfl⟩
      rcases establishes_scanNumberRound_ends done shaped lexer stands with ⟨result, ends, number⟩
      rw [loop_of_ends (Prod.ext ends rfl), List.append_nil]
      exact number
  | @cons state further last byte text reads _ inductionHypothesis =>
      intro lexer stands
      rcases Nat.exists_eq_succ_of_ne_zero (Nat.ne_zero_of_lt enough) with ⟨fewer, rfl⟩
      rcases establishes_scanNumberRound _ reads lexer stands with ⟨goesOn, after⟩
      rw [loop_of_goesOn (Prod.ext goesOn rfl), List.append_cons]
      exact inductionHypothesis done (shaped.next reads) (Nat.lt_of_succ_lt_succ enough) _ after

/-- The buffer begins with the byte that is given. -/
theorem scanNumber_eq (first : Byte) : scanNumber first = (do
    reset
    add first
    scanNumberFrom (numberStart first)) := by
  unfold scanNumber numberStart
  split_ifs with minus zero
  · rfl
  · rfl
  · rfl

theorem establishes_start {first : Byte} {after : TokenType -> Lexer -> Prop}
    (scans : Establishes (fun lexer => lexer.Stands input [first]) (scanNumberFrom (numberStart first))
      after) :
    Establishes (fun lexer => lexer.Stands input buffer) (scanNumber first) after := by
  rw [scanNumber_eq]
  exact fun lexer stands => scans _ ⟨stands.taken, stands.input, rfl⟩

/-- A number is read, if it does not go on behind its text. -/
theorem establishes_scanNumber {first : Byte} (begins : first = 0x2D ∨ isDigit first = true)
    (path : NumberPath (numberStart first) text last) (done : last.next rest.head? = .ok none) :
    Establishes (fun lexer => lexer.Stands (text ++ rest) buffer) (scanNumber first)
      (EndsNumber (numberOf (first :: text)) rest) := by
  refine establishes_start fun lexer stands => ?_
  have enough : text.length < lexer.unread.length + 1 := by
    rw [stands.unread, List.length_append]
    omega
  exact loop_of_numberPath path done (shaped_start begins) enough lexer stands

/-- Nothing else is. -/
theorem establishes_scanNumber_only {first : Byte} (begins : first = 0x2D ∨ isDigit first = true) :
    Establishes (fun lexer => lexer.Stands input buffer) (scanNumber first) fun type lexer =>
      type = .parseError ∨ Exists fun text => Exists fun last => Exists fun rest =>
        NumberPath (numberStart first) text last ∧ last.next rest.head? = .ok none ∧
          input = text ++ rest ∧ EndsNumber (numberOf (first :: text)) rest type lexer := by
  refine establishes_start fun lexer stands => ?_
  have rounds := establishes_loop (fail "") scanNumberRound
    (fun lexer => lexer.input.length)
    (fun carried lexer => Exists fun text => NumberPath (numberStart first) text carried.1 ∧
      input = text ++ lexer.input ∧ lexer.Stands lexer.input (first :: text) ∧
        Shaped carried.1 carried.2 (first :: text))
    (fun type lexer => type = .parseError ∨ Exists fun text => Exists fun last =>
      Exists fun rest => NumberPath (numberStart first) text last ∧ last.next rest.head? = .ok none ∧
        input = text ++ rest ∧ EndsNumber (numberOf (first :: text)) rest type lexer)
    ?_ (numberStart first, (numberStart first).numberType .valueUnsigned)
    (lexer.unread.length + 1) lexer ⟨⟨[], .nil _, ?_, ?_, ?_⟩, ?_⟩
  · exact rounds
  · rintro ⟨state, type⟩ lexer ⟨text, path, split, stands, shaped⟩
    cases next : state.next lexer.input.head? with
    | error message =>
        have fails := establishes_scanNumberRound_fails type next lexer stands
        rw [fails]
        refine ⟨fun _ impossible => ?_, fun result same => ?_⟩
        · cases impossible
        · cases same
          exact .inl rfl
    | ok outcome =>
        cases outcome with
        | none =>
            rcases establishes_scanNumberRound_ends next shaped lexer stands with ⟨result, ends, number⟩
            rw [ends]
            refine ⟨fun _ impossible => ?_, fun other same => ?_⟩
            · cases impossible
            · cases same
              exact .inr ⟨text, state, lexer.input, path, next, split, number⟩
        | some further =>
            cases input : lexer.input with
            | nil =>
                rw [input] at next
                exact absurd next next_none_ne
            | cons byte rest =>
                rw [input] at next stands split
                rcases establishes_scanNumberRound type next lexer stands with ⟨goesOn, after⟩
                rw [goesOn]
                refine ⟨fun _ same => ?_, fun _ impossible => ?_⟩
                · cases same
                  rw [after.input]
                  refine ⟨⟨text ++ [byte], path.append_byte next, ?_, after, shaped.next next⟩, ?_⟩
                  · rw [split, List.append_assoc]
                    rfl
                  · exact Nat.lt_succ_self _
                · cases impossible
  · rw [stands.input]
    rfl
  · rw [stands.input]
    exact stands
  · exact shaped_start begins
  · rw [stands.unread, stands.input]
    exact Nat.lt_succ_self _

/-! ## The values of numbers -/

section Values

variable {current : Option Byte} {first byte : Byte}

/-- What may stand behind the whole part of a number. -/
inductive Behind : List Byte -> Prop where
  | exponent {text : List Byte} {e : ℤ} (read : exponentValue text = some e) : Behind text
  | fraction {fraction text : List Byte} {n : ℕ} {e : ℤ} (writes : Writes fraction n)
      (read : exponentValue text = some e) : Behind (0x2E :: (fraction ++ text))

theorem writes_of_all (digits : text.all isDigit = true) : Writes text (digitsValue text) :=
  ⟨List.all_eq_true.mp digits, rfl⟩

theorem digits_of_path_any2 (path : NumberPath .any2 text last) : text.all isDigit = true := by
  generalize start : NumberState.any2 = state at path
  induction path with
  | nil => rfl
  | cons reads _ inductionHypothesis =>
      subst start
      rw [NumberState.next] at reads
      split_ifs at reads with digit
      · cases reads
        exact all_isDigit_cons digit (inductionHypothesis rfl)
      · cases reads

theorem digits_of_path_sign (path : NumberPath .sign text last) (done : last.next current = .ok none) :
    text ≠ [] ∧ text.all isDigit = true := by
  cases path with
  | nil =>
      rw [NumberState.next] at done
      split_ifs at done
      cases done
  | cons reads others =>
      rw [NumberState.next] at reads
      split_ifs at reads with digit
      cases reads
      exact ⟨List.cons_ne_nil _ _, all_isDigit_cons digit (digits_of_path_any2 others)⟩

theorem integer_of_path_exponent (path : NumberPath .exponent text last)
    (done : last.next current = .ok none) : Exists fun e => integerValue text = some e := by
  cases path with
  | nil =>
      rw [NumberState.next] at done
      split_ifs at done <;> cases done
  | cons reads others =>
      rw [NumberState.next] at reads
      split_ifs at reads with sign digit
      · cases reads
        rcases digits_of_path_sign others done with ⟨filled, digits⟩
        have part {byte : Byte} (isSign : some byte = some 0x2B ∨ some byte = some 0x2D) :
            SignPart [byte] := by
          rcases isSign with plus | minus
          · cases plus
            exact .plus
          · cases minus
            exact .minus
        exact ⟨_, integerValue_parts (part sign) filled (List.all_eq_true.mp digits)⟩
      · cases reads
        have digits := all_isDigit_cons digit (digits_of_path_any2 others)
        exact ⟨_, integerValue_of_digits (List.cons_ne_nil _ _) digits⟩

theorem exponent_of_path (letter : some byte = some 0x65 ∨ some byte = some 0x45)
    (path : NumberPath .exponent text last) (done : last.next current = .ok none) :
    Exists fun e => exponentValue (byte :: text) = some e := by
  rcases integer_of_path_exponent path done with ⟨e, read⟩
  exact ⟨e, (if_pos (letter.imp Option.some.inj Option.some.inj)).trans read⟩

/-- The digits of a fraction, and an exponent. -/
theorem fraction_of_path_decimal2 (path : NumberPath .decimal2 text last)
    (done : last.next current = .ok none) : Exists fun fraction => Exists fun rest => Exists fun e =>
      text = fraction ++ rest ∧ fraction.all isDigit = true ∧ exponentValue rest = some e := by
  generalize start : NumberState.decimal2 = state at path
  induction path with
  | nil => exact ⟨[], [], 0, rfl, rfl, rfl⟩
  | @cons _ _ _ byte text reads others inductionHypothesis =>
      subst start
      rw [NumberState.next] at reads
      split_ifs at reads with digit letter
      · cases reads
        rcases inductionHypothesis done rfl with ⟨fraction, rest, e, rfl, digits, read⟩
        exact ⟨byte :: fraction, rest, e, rfl, all_isDigit_cons digit digits, read⟩
      · cases reads
        rcases exponent_of_path letter others done with ⟨e, read⟩
        exact ⟨[], byte :: text, e, rfl, rfl, read⟩
      · cases reads

theorem behind_of_path_decimal1 (path : NumberPath .decimal1 text last)
    (done : last.next current = .ok none) : Behind (0x2E :: text) := by
  cases path with
  | nil =>
      rw [NumberState.next] at done
      split_ifs at done
      cases done
  | @cons _ _ _ byte text reads others =>
      rw [NumberState.next] at reads
      split_ifs at reads with digit
      cases reads
      rcases fraction_of_path_decimal2 others done with ⟨fraction, rest, e, rfl, digits, read⟩
      exact .fraction (writes_of_all (all_isDigit_cons digit digits)) read

theorem behind_of_path_zero (path : NumberPath .zero text last) (done : last.next current = .ok none) :
    Behind text := by
  cases path with
  | nil => exact .exponent rfl
  | cons reads others =>
      rw [NumberState.next] at reads
      split_ifs at reads with point letter
      · cases point
        cases reads
        exact behind_of_path_decimal1 others done
      · cases reads
        rcases exponent_of_path letter others done with ⟨e, read⟩
        exact .exponent read
      · cases reads

theorem whole_of_path_any1 (path : NumberPath .any1 text last) (done : last.next current = .ok none) :
    Exists fun whole => Exists fun rest => text = whole ++ rest ∧ whole.all isDigit = true ∧
      Behind rest := by
  generalize start : NumberState.any1 = state at path
  induction path with
  | nil => exact ⟨[], [], rfl, rfl, .exponent rfl⟩
  | @cons _ _ _ byte text reads others inductionHypothesis =>
      subst start
      rw [NumberState.next] at reads
      split_ifs at reads with digit point letter
      · cases reads
        rcases inductionHypothesis done rfl with ⟨whole, rest, rfl, digits, behind⟩
        exact ⟨byte :: whole, rest, rfl, all_isDigit_cons digit digits, behind⟩
      · cases point
        cases reads
        exact ⟨[], _, rfl, rfl, behind_of_path_decimal1 others done⟩
      · cases reads
        rcases exponent_of_path letter others done with ⟨e, read⟩
        exact ⟨[], _, rfl, rfl, .exponent read⟩
      · cases reads

/-- Behind a first digit. -/
theorem whole_of_path (early : state = .zero ∨ state = .any1) (digit : isDigit first = true)
    (path : NumberPath state text last) (done : last.next current = .ok none) :
    Exists fun whole => Exists fun rest => Exists fun n => first :: text = whole ++ rest ∧ whole ≠ [] ∧
      Writes whole n ∧ Behind rest := by
  rcases early with rfl | rfl
  · exact ⟨[first], text, _, rfl, List.cons_ne_nil _ _, writes_of_all (all_isDigit_cons digit rfl),
      behind_of_path_zero path done⟩
  · rcases whole_of_path_any1 path done with ⟨whole, rest, rfl, digits, behind⟩
    exact ⟨first :: whole, rest, _, rfl, List.cons_ne_nil _ _, writes_of_all (all_isDigit_cons digit digits),
      behind⟩

theorem unsignedValue_behind {whole rest : List Byte} {n : ℕ} (writes : Writes whole n)
    (filled : whole ≠ []) (behind : Behind rest) :
    Exists fun value => unsignedValue (whole ++ rest) = some value := by
  cases behind with
  | exponent read => exact ⟨_, unsignedValue_whole writes filled read⟩
  | fraction also read => exact ⟨_, unsignedValue_fraction writes filled also read⟩

/-- Every number has a value. -/
theorem decimalValue_of_path (begins : first = 0x2D ∨ isDigit first = true)
    (path : NumberPath (numberStart first) text last) (done : last.next current = .ok none) :
    Exists fun value => decimalValue (first :: text) = some value := by
  by_cases minus : first = 0x2D
  · subst minus
    change NumberPath .minus text last at path
    cases path with
    | nil => exact absurd rfl (ne_minus_of_done done)
    | @cons _ further _ byte text reads others =>
        rcases next_of_early (.inl rfl) reads with ⟨early, digit⟩ | ⟨_, mark⟩
        · rcases whole_of_path early digit others done with ⟨whole, rest, n, split, filled, writes, behind⟩
          rcases unsignedValue_behind writes filled behind with ⟨value, read⟩
          have negative : decimalValue (0x2D :: byte :: text) =
              (unsignedValue (byte :: text)).map fun value => -value := rfl
          rw [negative, split, read]
          exact ⟨-value, rfl⟩
        · rw [NumberState.next] at reads
          rcases mark with rfl | rfl | rfl <;> cases reads
  · have digit := begins.resolve_left minus
    have early : numberStart first = .zero ∨ numberStart first = .any1 := by
      unfold numberStart
      rw [if_neg minus]
      split_ifs
      · exact .inl rfl
      · exact .inr rfl
    rcases whole_of_path early digit path done with ⟨whole, rest, n, split, filled, writes, behind⟩
    rcases unsignedValue_behind writes filled behind with ⟨value, read⟩
    refine ⟨value, ?_⟩
    rw [split, decimalValue, splitSign_of_writes writes filled, read]
    rfl

end Values

end Lexer

end CoreBank
