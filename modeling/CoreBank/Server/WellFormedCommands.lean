import CoreBank.Server.Doubles

namespace CoreBank

/-!
# Well-formed commands

A command is meant as a word with arguments that are words themselves, each a
number in full.  The extraction operators do not look for words: each of them
reads as far as it can make sense of the text, and the next one goes on where
it has stopped.

A reader and the meaning of words belong together when the reader reads the
words that have a meaning to their end, and finds nothing else where it stops
at the end of a word.  This holds of both readers, so that only their stopping
inside a word tells the handler from the protocol.
-/

/-! ## Words -/

/-- The words of a text, separated by white space; `current` is the word so
far. -/
def wordsFrom (current : List Byte) : List Byte -> List (List Byte)
  | [] => if current = [] then [] else [current]
  | byte :: rest =>
      if isSpace byte then
        if current = [] then wordsFrom [] rest else current :: wordsFrom [] rest
      else wordsFrom (current ++ [byte]) rest

def words (text : List Byte) : List (List Byte) :=
  wordsFrom [] text

/-- A text without white space, and not empty. -/
structure IsWord (word : List Byte) : Prop where
  filled : word ≠ []
  solid : forall byte, byte ∈ word -> isSpace byte = false

/-- A text that does not go on with a word. -/
def AtWordEnd (rest : List Byte) : Prop :=
  forall byte, rest.head? = some byte -> isSpace byte = true

theorem words_space {byte : Byte} (blank : isSpace byte = true) (rest : List Byte) :
    words (byte :: rest) = words rest := by
  rw [words, wordsFrom, if_pos blank, if_pos rfl, words]

theorem words_dropWhile (text : List Byte) : words (text.dropWhile isSpace) = words text := by
  induction text with
  | nil => rfl
  | cons byte text inductionHypothesis =>
      cases blank : isSpace byte with
      | true => rw [List.dropWhile_cons_of_pos blank, words_space blank, inductionHypothesis]
      | false => rw [List.dropWhile_cons_of_neg (by simp [blank])]

theorem wordsFrom_append {word rest : List Byte} (solid : forall byte, byte ∈ word -> isSpace byte = false)
    (ends : AtWordEnd rest) {current : List Byte} (filled : current ++ word ≠ []) :
    wordsFrom current (word ++ rest) = (current ++ word) :: words rest := by
  induction word generalizing current with
  | nil =>
      rw [List.append_nil] at filled ⊢
      cases rest with
      | nil => rw [List.nil_append, wordsFrom, if_neg filled]; rfl
      | cons byte rest =>
          have blank := ends byte rfl
          rw [List.nil_append, wordsFrom, if_pos blank, if_neg filled, words_space blank]
          rfl
  | cons byte word inductionHypothesis =>
      have text := solid byte List.mem_cons_self
      have more : current ++ [byte] ++ word ≠ [] := by simp
      rw [List.cons_append, wordsFrom, if_neg (by simp [text]),
        inductionHypothesis (fun later member => solid later (List.mem_cons_of_mem _ member)) more,
        List.append_assoc, List.singleton_append]

theorem words_append {word rest : List Byte} (isWord : IsWord word) (ends : AtWordEnd rest) :
    words (word ++ rest) = word :: words rest :=
  wordsFrom_append isWord.solid ends isWord.filled

/-- The first word of a text that does not start with white space. -/
theorem firstWord {byte : Byte} (text : isSpace byte = false) (rest : List Byte) :
    IsWord ((byte :: rest).takeWhile fun byte => !isSpace byte) ∧
      AtWordEnd ((byte :: rest).dropWhile fun byte => !isSpace byte) := by
  constructor
  · constructor
    · rw [List.takeWhile_cons_of_pos (by simp [text])]
      exact List.cons_ne_nil _ _
    · intro other member
      simpa using List.mem_takeWhile_imp member
  · intro other first
    have notNil : (byte :: rest).dropWhile (fun byte => !isSpace byte) ≠ [] := by
      intro none
      rw [none] at first
      cases first
    have head := List.head_dropWhile_not (fun byte => !isSpace byte) notNil
    rw [List.head?_eq_some_head notNil, Option.some.injEq] at first
    simpa [first] using head

/-- Behind its white space a text is empty or starts with a word. -/
theorem dropWhile_space_cases (text : List Byte) :
    text.dropWhile isSpace = [] ∨ Exists fun byte => Exists fun rest =>
      text.dropWhile isSpace = byte :: rest ∧ isSpace byte = false := by
  cases skipped : text.dropWhile isSpace with
  | nil => exact Or.inl rfl
  | cons byte rest =>
      have notNil : text.dropWhile isSpace ≠ [] := by
        rw [skipped]
        exact List.cons_ne_nil _ _
      have head := List.head_dropWhile_not isSpace notNil
      exact Or.inr ⟨byte, rest, rfl, by simpa only [skipped, List.head_cons] using head⟩

/-- A text with words starts, behind white space, with the first of them. -/
theorem words_eq_cons {text word : List Byte} {more : List (List Byte)}
    (split : words text = word :: more) :
    Exists fun rest => text.dropWhile isSpace = word ++ rest ∧ IsWord word ∧ AtWordEnd rest ∧
      words rest = more := by
  rw [← words_dropWhile] at split
  rcases dropWhile_space_cases text with blank | ⟨byte, rest, starts, first⟩
  · rw [blank] at split
    cases split
  · rcases firstWord first rest with ⟨isWord, ends⟩
    have parts := List.takeWhile_append_dropWhile (p := fun byte => !isSpace byte) (l := byte :: rest)
    rw [starts, ← parts, words_append isWord ends] at split
    rcases List.cons.inj split with ⟨rfl, rfl⟩
    exact ⟨_, starts.trans parts.symm, isWord, ends, rfl⟩

/-! ## Readers and meanings -/

/-- The reader reads the words that mean something to their end, and what it
reads is such a word where it stops at the end of one. -/
structure ReadsWords {A : Type} (read : Extraction A) (meaning : List Byte -> Option A) : Prop where
  sound : forall {text : List Byte} {value : A} {rest : List Byte}, read text = some (value, rest) ->
    AtWordEnd rest -> Exists fun word => words text = word :: words rest ∧ meaning word = some value
  complete : forall {text word : List Byte} {more : List (List Byte)} {value : A},
    words text = word :: more -> meaning word = some value ->
      Exists fun rest => read text = some (value, rest) ∧ AtWordEnd rest ∧ words rest = more

/-- Nothing, or one sign. -/
inductive SignPart : List Byte -> Prop where
  | none : SignPart []
  | plus : SignPart [43]
  | minus : SignPart [45]

/-- A text that does not go on with a sign. -/
def Unsigned (rest : List Byte) : Prop :=
  forall byte, rest.head? = some byte -> isSign byte = false

theorem readSign_cases (text : List Byte) : Exists fun sign => Exists fun rest =>
    readSign text = some (sign, rest) ∧ text = sign ++ rest ∧ SignPart sign ∧
      (sign = [] -> Unsigned rest) := by
  cases text with
  | nil =>
      refine ⟨[], [], rfl, rfl, SignPart.none, fun _ byte impossible => ?_⟩
      cases impossible
  | cons byte rest =>
      cases signed : isSign byte with
      | true =>
          refine ⟨[byte], rest, if_pos signed, rfl, ?_, fun impossible => by cases impossible⟩
          rw [isSign, Bool.or_eq_true, decide_eq_true_eq, decide_eq_true_eq] at signed
          rcases signed with rfl | rfl
          · exact SignPart.plus
          · exact SignPart.minus
      | false =>
          refine ⟨[], byte :: rest, if_neg (by simp [signed]), rfl, SignPart.none, fun _ first same => ?_⟩
          cases same
          exact signed

theorem readSign_append {sign rest : List Byte} (part : SignPart sign) (unsigned : Unsigned rest) :
    readSign (sign ++ rest) = some (sign, rest) := by
  cases part with
  | none =>
      cases rest with
      | nil => rfl
      | cons byte rest =>
          have other := unsigned byte rfl
          exact if_neg (by simp [other])
  | plus => rfl
  | minus => rfl

theorem SignPart.solid {sign : List Byte} (part : SignPart sign) :
    forall byte, byte ∈ sign -> isSpace byte = false := by
  cases part with
  | none =>
      intro byte impossible
      cases impossible
  | plus =>
      intro byte member
      rw [List.mem_singleton.mp member]
      decide
  | minus =>
      intro byte member
      rw [List.mem_singleton.mp member]
      decide

/-! ## Integers -/

/-- The value of a word that is in full an integer in the range of `int`. -/
def intValue (word : List Byte) : Option ℤ :=
  (integerValue word).filter fun value => decide (-2 ^ 31 ≤ value ∧ value < 2 ^ 31)

/-- The number behind a sign. -/
def signedValue (sign digits : List Byte) : ℤ :=
  if sign = [45] then -digitsValue digits else digitsValue digits

theorem skipSpace_eq {text : List Byte} (filled : text.dropWhile isSpace ≠ []) :
    skipSpace text = some ((), text.dropWhile isSpace) := by
  unfold skipSpace
  cases skipped : text.dropWhile isSpace with
  | nil => exact absurd skipped filled
  | cons byte rest => rfl

theorem skipSpace_blank {text : List Byte} (blank : text.dropWhile isSpace = []) :
    skipSpace text = none := by
  unfold skipSpace
  rw [blank]

/-- An extraction of an `int` by its parts. -/
theorem readInt_parts {text sign digits rest : List Byte} (filled : text.dropWhile isSpace ≠ [])
    (starts : text.dropWhile isSpace = sign ++ (digits ++ rest))
    (signRead : readSign (sign ++ (digits ++ rest)) = some (sign, digits ++ rest))
    (digit : forall byte, byte ∈ digits -> isDigit byte = true) (stops : Stops rest) :
    readInt text =
      if digits = [] ∨ signedValue sign digits < -2 ^ 31 ∨ 2 ^ 31 ≤ signedValue sign digits then none
      else some (signedValue sign digits, rest) := by
  rcases takeWhile_digits digit stops with ⟨taken, left⟩
  have blanks := skipSpace_eq filled
  rw [starts] at blanks
  unfold readInt signedValue
  simp only [bind, StateT.bind, blanks, signRead, taken, left, Option.bind_some]
  split_ifs <;> rfl

theorem digit_ne {byte : Byte} (digit : isDigit byte = true) :
    isSpace byte = false ∧ isSign byte = false := by
  have all : forall value : Fin 256, isDigit (UInt8.ofFin value) = true ->
      isSpace (UInt8.ofFin value) = false ∧ isSign (UInt8.ofFin value) = false := by decide +kernel
  exact all byte.toFin digit

theorem space_ne {byte : Byte} (blank : isSpace byte = true) :
    isDigit byte = false ∧ isSign byte = false ∧ byte ≠ 46 ∧ byte ≠ 101 ∧ byte ≠ 69 := by
  have all : forall value : Fin 256, isSpace (UInt8.ofFin value) = true ->
      isDigit (UInt8.ofFin value) = false ∧ isSign (UInt8.ofFin value) = false ∧
        UInt8.ofFin value ≠ 46 ∧ UInt8.ofFin value ≠ 101 ∧ UInt8.ofFin value ≠ 69 := by decide +kernel
  exact all byte.toFin blank

theorem AtWordEnd.stops {rest : List Byte} (ends : AtWordEnd rest) : Stops rest := fun byte first =>
  (space_ne (ends byte first)).1

theorem unsigned_of_digits {digits : List Byte} (filled : digits ≠ [])
    (digit : forall byte, byte ∈ digits -> isDigit byte = true) (rest : List Byte) :
    Unsigned (digits ++ rest) := by
  intro byte first
  cases digits with
  | nil => exact absurd rfl filled
  | cons head digits =>
      cases first
      exact (digit_ne (digit _ List.mem_cons_self)).2

/-- The parts of a word that is in full an integer. -/
theorem integerValue_eq_some {word : List Byte} {value : ℤ} (whole : integerValue word = some value) :
    Exists fun sign => Exists fun digits => word = sign ++ digits ∧ SignPart sign ∧ digits ≠ [] ∧
      (forall byte, byte ∈ digits -> isDigit byte = true) ∧ value = signedValue sign digits := by
  have natural : forall {digits : List Byte} {n : ℕ}, naturalValue digits = some n ->
      digits ≠ [] ∧ (forall byte, byte ∈ digits -> isDigit byte = true) ∧ n = digitsValue digits := by
    intro digits n is
    rw [naturalValue] at is
    split_ifs at is with filled
    exact ⟨filled.1, List.all_eq_true.mp filled.2, (Option.some.inj is).symm⟩
  rcases Option.map_eq_some_iff.mp whole with ⟨n, is, rfl⟩
  rcases natural is with ⟨filled, digit, rfl⟩
  cases word with
  | nil => exact absurd rfl filled
  | cons byte rest =>
      by_cases minus : byte = 45
      · subst minus
        exact ⟨[45], rest, rfl, SignPart.minus, filled, digit, rfl⟩
      · by_cases plus : byte = 43
        · subst plus
          exact ⟨[43], rest, rfl, SignPart.plus, filled, digit, rfl⟩
        · have unsigned : splitSign (byte :: rest) = (false, byte :: rest) := by
            rw [splitSign, if_neg minus, if_neg plus]
          rw [unsigned] at filled digit ⊢
          exact ⟨[], byte :: rest, rfl, SignPart.none, filled, digit, rfl⟩

theorem splitSign_append {sign rest : List Byte} (part : SignPart sign) (unsigned : Unsigned rest) :
    splitSign (sign ++ rest) = (decide (sign = [45]), rest) := by
  cases part with
  | none =>
      cases rest with
      | nil => rfl
      | cons byte rest =>
          have other := unsigned byte rfl
          rw [isSign, Bool.or_eq_false_iff, decide_eq_false_iff_not, decide_eq_false_iff_not] at other
          rw [List.nil_append, splitSign, if_neg other.2, if_neg other.1]
          rfl
  | plus => rfl
  | minus => rfl

theorem integerValue_parts {sign digits : List Byte} (part : SignPart sign) (filled : digits ≠ [])
    (digit : forall byte, byte ∈ digits -> isDigit byte = true) :
    integerValue (sign ++ digits) = some (signedValue sign digits) := by
  have unsigned := unsigned_of_digits filled digit []
  rw [List.append_nil] at unsigned
  have natural : naturalValue digits = some (digitsValue digits) :=
    if_pos ⟨filled, List.all_eq_true.mpr digit⟩
  rw [integerValue, splitSign_append part unsigned, natural, Option.map_some, signedValue]
  simp only [decide_eq_true_eq]

theorem isWord_append {sign digits : List Byte} (part : SignPart sign) (filled : digits ≠ [])
    (solid : forall byte, byte ∈ digits -> isSpace byte = false) : IsWord (sign ++ digits) where
  filled := List.append_ne_nil_of_right_ne_nil sign filled
  solid := by
    intro byte member
    exact (List.mem_append.mp member).elim (part.solid byte) (solid byte)

theorem intValue_eq_some_iff {word : List Byte} {value : ℤ} :
    intValue word = some value ↔ integerValue word = some value ∧ -2 ^ 31 ≤ value ∧ value < 2 ^ 31 := by
  rw [intValue, Option.filter_eq_some_iff, decide_eq_true_eq]

theorem stops_dropWhile (text : List Byte) : Stops (text.dropWhile isDigit) := by
  intro byte first
  have notNil : text.dropWhile isDigit ≠ [] := by
    intro none
    rw [none] at first
    cases first
  have head := List.head_dropWhile_not isDigit notNil
  rw [List.head?_eq_some_head notNil, Option.some.injEq] at first
  rwa [first] at head

/-- The extraction of an `int` reads words that are integers in full. -/
theorem readsWords_readInt : ReadsWords readInt intValue where
  sound := by
    intro text value rest read ends
    have filled : text.dropWhile isSpace ≠ [] := by
      intro blank
      unfold readInt at read
      simp only [bind, StateT.bind, skipSpace_blank blank, Option.bind_none, reduceCtorEq] at read
    rcases readSign_cases (text.dropWhile isSpace) with ⟨sign, body, signRead, starts, part, _⟩
    have split := List.takeWhile_append_dropWhile (p := isDigit) (l := body)
    have digit : forall byte, byte ∈ body.takeWhile isDigit -> isDigit byte = true := fun byte member =>
      List.mem_takeWhile_imp member
    rw [← split] at starts signRead
    rw [starts] at signRead
    rw [readInt_parts filled starts signRead digit (stops_dropWhile body)] at read
    split_ifs at read with bad
    rw [not_or, not_or, not_lt, not_le] at bad
    rcases bad with ⟨some, lower, upper⟩
    cases read
    refine ⟨sign ++ body.takeWhile isDigit, ?_, ?_⟩
    · rw [← words_dropWhile, starts, ← List.append_assoc]
      exact words_append (isWord_append part some fun byte member => (digit_ne (digit byte member)).1) ends
    · exact intValue_eq_some_iff.mpr ⟨integerValue_parts part some digit, lower, upper⟩
  complete := by
    intro text word more value split meaning
    rcases words_eq_cons split with ⟨rest, starts, isWord, ends, rfl⟩
    rcases intValue_eq_some_iff.mp meaning with ⟨whole, lower, upper⟩
    rcases integerValue_eq_some whole with ⟨sign, digits, rfl, part, filled, digit, rfl⟩
    rw [List.append_assoc] at starts
    have notBlank : text.dropWhile isSpace ≠ [] := by
      rw [starts]
      exact List.append_ne_nil_of_right_ne_nil _ (List.append_ne_nil_of_left_ne_nil filled _)
    refine ⟨rest, ?_, ends, rfl⟩
    rw [readInt_parts notBlank starts (readSign_append part (unsigned_of_digits filled digit rest)) digit
      ends.stops]
    apply if_neg
    rw [not_or, not_or, not_lt, not_le]
    exact ⟨filled, lower, upper⟩

/-! ## Decimal numbers -/

/-- A byte as it is kept while a `double` is read: the exponent gets a small
letter. -/
def kept (byte : Byte) : Byte :=
  if byte = 69 then 101 else byte

theorem kept_of_ne {byte : Byte} (other : byte ≠ 69) : kept byte = byte :=
  if_neg other

/-- What `floatText` finds is a part of the stream without white space, kept
byte by byte. -/
theorem floatText_kept (mantissa point exponent afterExponent : Bool) (stream : List Byte) :
    Exists fun found => stream = found ++ (floatText mantissa point exponent afterExponent stream).2 ∧
      (floatText mantissa point exponent afterExponent stream).1 = found.map kept ∧
      forall byte, byte ∈ found -> isSpace byte = false := by
  induction stream generalizing mantissa point exponent afterExponent with
  | nil => exact ⟨[], rfl, rfl, fun byte impossible => by cases impossible⟩
  | cons byte stream inductionHypothesis =>
      have extend : forall mantissa point exponent afterExponent, isSpace byte = false ->
          Exists fun found => byte :: stream =
              found ++ (floatText mantissa point exponent afterExponent stream).2 ∧
            kept byte :: (floatText mantissa point exponent afterExponent stream).1 = found.map kept ∧
            forall byte, byte ∈ found -> isSpace byte = false := by
        intro mantissa point exponent afterExponent solid
        rcases inductionHypothesis mantissa point exponent afterExponent with ⟨found, split, text, rest⟩
        refine ⟨byte :: found, congrArg (List.cons byte) split, ?_, ?_⟩
        · rw [text, List.map_cons]
        · exact List.forall_mem_cons.mpr ⟨solid, rest⟩
      rw [floatText]
      split_ifs with sign digit dot letter
      · have signed : isSign byte = true := (Bool.and_eq_true_iff.mp sign).2
        have plain : isSpace byte = false ∧ byte ≠ 69 := by
          rw [isSign, Bool.or_eq_true, decide_eq_true_eq, decide_eq_true_eq] at signed
          rcases signed with rfl | rfl <;> decide
        have found := extend mantissa point exponent false plain.1
        rwa [kept_of_ne plain.2] at found
      · have plain : byte ≠ 69 := by
          rintro rfl
          exact absurd digit (by decide)
        have found := extend true point exponent false (digit_ne digit).1
        rwa [kept_of_ne plain] at found
      · simp only [Bool.and_eq_true, decide_eq_true_eq] at dot
        rcases dot with ⟨⟨rfl, _⟩, _⟩
        exact extend mantissa true exponent false (by decide)
      · simp only [Bool.and_eq_true, Bool.or_eq_true, decide_eq_true_eq] at letter
        rcases letter with ⟨⟨rfl | rfl, _⟩, _⟩
        · exact extend mantissa point true true (by decide)
        · exact extend mantissa point true true (by decide)
      · exact ⟨[], rfl, rfl, fun byte impossible => by cases impossible⟩

/-- White space ends a number. -/
theorem floatText_rest (mantissa point exponent afterExponent : Bool) {rest : List Byte}
    (ends : AtWordEnd rest) : (floatText mantissa point exponent afterExponent rest).2 = rest := by
  cases rest with
  | nil => rfl
  | cons byte rest =>
      rcases space_ne (ends byte rfl) with ⟨digit, sign, dot, small, large⟩
      rw [floatText]
      simp [digit, sign, dot, small, large]

theorem floatText_digits (mantissa point exponent afterExponent : Bool) {digits : List Byte}
    (filled : digits ≠ []) (digit : forall byte, byte ∈ digits -> isDigit byte = true)
    (rest : List Byte) : (floatText mantissa point exponent afterExponent (digits ++ rest)).2 =
      (floatText true point exponent false rest).2 := by
  induction digits generalizing mantissa afterExponent with
  | nil => exact absurd rfl filled
  | cons byte digits inductionHypothesis =>
      have first := digit byte List.mem_cons_self
      have later : forall byte, byte ∈ digits -> isDigit byte = true := fun byte member =>
        digit byte (List.mem_cons_of_mem _ member)
      have step : (floatText mantissa point exponent afterExponent (byte :: (digits ++ rest))).2 =
          (floatText true point exponent false (digits ++ rest)).2 := by
        rw [floatText]
        simp [first, (digit_ne first).2]
      rw [List.cons_append, step]
      cases digits with
      | nil => rfl
      | cons next digits => exact inductionHypothesis true false (List.cons_ne_nil _ _) later

theorem floatText_exponent {text rest : List Byte} {e : ℤ} (point : Bool)
    (exponent : exponentValue text = some e) (ends : AtWordEnd rest) :
    (floatText true point false false (text ++ rest)).2 = rest := by
  cases text with
  | nil => exact floatText_rest true point false false ends
  | cons byte text =>
      rw [exponentValue] at exponent
      split_ifs at exponent with letter
      rcases integerValue_eq_some exponent with ⟨sign, digits, rfl, part, filled, digit, rfl⟩
      have afterDigits : forall afterExponent,
          (floatText true point true afterExponent (digits ++ rest)).2 = rest := by
        intro afterExponent
        rw [floatText_digits true point true afterExponent filled digit]
        exact floatText_rest true point true false ends
      have afterLetter : (floatText true point false false (byte :: (sign ++ digits) ++ rest)).2 =
          (floatText true point true true (sign ++ digits ++ rest)).2 := by
        rw [List.cons_append, floatText]
        rcases letter with rfl | rfl <;> rfl
      rw [afterLetter, List.append_assoc]
      cases part with
      | none => exact afterDigits true
      | plus => exact afterDigits false
      | minus => exact afterDigits false

/-- Behind the digits in front, a fraction and an exponent are read to their
end, provided that there is some digit. -/
theorem floatText_fraction {mantissa : Bool} {text rest : List Byte} {e : ℤ}
    (exponent : exponentValue (splitFraction text).2 = some e)
    (digits : mantissa = true ∨ (splitFraction text).1 ≠ []) (ends : AtWordEnd rest) :
    (floatText mantissa false false false (text ++ rest)).2 = rest := by
  cases text with
  | nil => exact floatText_rest mantissa false false false ends
  | cons byte text =>
      by_cases dot : byte = 46
      · subst dot
        have step : (floatText mantissa false false false (46 :: text ++ rest)).2 =
          (floatText mantissa true false false (text ++ rest)).2 := rfl
        have digit : forall byte, byte ∈ text.takeWhile isDigit -> isDigit byte = true :=
          fun byte member => List.mem_takeWhile_imp member
        have split := List.takeWhile_append_dropWhile (p := isDigit) (l := text)
        have behind : exponentValue (text.dropWhile isDigit) = some e := exponent
        have some : mantissa = true ∨ text.takeWhile isDigit ≠ [] := digits
        rw [step, ← split, List.append_assoc]
        by_cases none : text.takeWhile isDigit = []
        · rw [none, List.nil_append, some.resolve_right (not_not.mpr none)]
          exact floatText_exponent true behind ends
        · rw [floatText_digits mantissa true false false none digit]
          exact floatText_exponent true behind ends
      · have plain : splitFraction (byte :: text) = ([], byte :: text) := if_neg dot
        rw [plain] at exponent digits
        rw [digits.resolve_right (not_not.mpr rfl)]
        exact floatText_exponent false exponent ends

/-- A decimal number without its sign is read to its end. -/
theorem floatText_unsigned {text rest : List Byte} {value : ℚ} (whole : unsignedValue text = some value)
    (ends : AtWordEnd rest) : (floatText false false false false (text ++ rest)).2 = rest := by
  have split := List.takeWhile_append_dropWhile (p := isDigit) (l := text)
  have digit : forall byte, byte ∈ text.takeWhile isDigit -> isDigit byte = true := fun byte member =>
    List.mem_takeWhile_imp member
  unfold unsignedValue at whole
  dsimp only at whole
  split_ifs at whole with filled
  rcases Option.map_eq_some_iff.mp whole with ⟨e, exponent, _⟩
  rw [← split, List.append_assoc]
  by_cases none : text.takeWhile isDigit = []
  · rw [none, List.nil_append] at filled ⊢
    exact floatText_fraction exponent (Or.inr filled) ends
  · rw [floatText_digits false false false false none digit]
    exact floatText_fraction exponent (Or.inl rfl) ends

/-! ## The kept text has the same value -/

theorem isDigit_kept (byte : Byte) : isDigit (kept byte) = isDigit byte := by
  unfold kept
  split_ifs with large
  · subst large
    decide
  · rfl

theorem map_kept_digits {digits : List Byte} (digit : forall byte, byte ∈ digits -> isDigit byte = true) :
    digits.map kept = digits := by
  have same : digits.map kept = digits.map id := by
    apply List.map_congr_left
    intro byte member
    apply kept_of_ne
    rintro rfl
    exact absurd (digit _ member) (by decide)
  rw [same, List.map_id]

theorem takeWhile_kept (text : List Byte) :
    (text.map kept).takeWhile isDigit = text.takeWhile isDigit := by
  have same : isDigit ∘ kept = isDigit := funext isDigit_kept
  rw [List.takeWhile_map, same]
  exact map_kept_digits fun byte member => List.mem_takeWhile_imp member

theorem dropWhile_kept (text : List Byte) :
    (text.map kept).dropWhile isDigit = (text.dropWhile isDigit).map kept := by
  have same : isDigit ∘ kept = isDigit := funext isDigit_kept
  rw [List.dropWhile_map, same]

theorem splitSign_kept (text : List Byte) :
    splitSign (text.map kept) = ((splitSign text).1, (splitSign text).2.map kept) := by
  cases text with
  | nil => rfl
  | cons byte text =>
      by_cases large : byte = 69
      · subst large
        rfl
      · rw [List.map_cons, kept_of_ne large, splitSign, splitSign]
        split_ifs with minus plus
        · rfl
        · rfl
        · rw [List.map_cons, kept_of_ne large]

theorem naturalValue_kept (text : List Byte) : naturalValue (text.map kept) = naturalValue text := by
  have same : isDigit ∘ kept = isDigit := funext isDigit_kept
  simp only [naturalValue, List.all_map, same, ne_eq, List.map_eq_nil_iff]
  split_ifs with digits
  · rw [map_kept_digits (List.all_eq_true.mp digits.2)]
  · rfl

theorem exponentValue_kept (text : List Byte) : exponentValue (text.map kept) = exponentValue text := by
  cases text with
  | nil => rfl
  | cons byte text =>
      have letter : (kept byte = 101 ∨ kept byte = 69) ↔ (byte = 101 ∨ byte = 69) := by
        unfold kept
        split_ifs with large
        · subst large
          decide
        · rfl
      rw [List.map_cons, exponentValue, exponentValue, integerValue, integerValue, splitSign_kept,
        naturalValue_kept]
      simp only [letter]

theorem splitFraction_kept (text : List Byte) :
    splitFraction (text.map kept) = ((splitFraction text).1, (splitFraction text).2.map kept) := by
  cases text with
  | nil => rfl
  | cons byte text =>
      by_cases dot : byte = 46
      · subst dot
        exact Prod.ext (takeWhile_kept text) (dropWhile_kept text)
      · have keptDot : kept byte ≠ 46 := by
          unfold kept
          split_ifs
          · decide
          · exact dot
        rw [List.map_cons, splitFraction, splitFraction, if_neg dot, if_neg keptDot, List.map_cons]

/-- Keeping a text does not change its value. -/
theorem decimalValue_kept (text : List Byte) : decimalValue (text.map kept) = decimalValue text := by
  unfold decimalValue unsignedValue
  simp only [splitSign_kept, takeWhile_kept, dropWhile_kept, splitFraction_kept, exponentValue_kept]

/-- One zero in front is as good as many. -/
theorem unsignedValue_zeros (count : ℕ) (text : List Byte) :
    unsignedValue (List.replicate (count + 1) 48 ++ text) = unsignedValue ([48] ++ text) := by
  have digits : forall count, forall byte, byte ∈ List.replicate count (48 : Byte) -> isDigit byte = true :=
    fun count => (writes_zeros count).digits
  have one : [(48 : Byte)] = List.replicate 1 48 := rfl
  rw [one]
  unfold unsignedValue
  simp only [List.takeWhile_append_of_pos (digits _), List.dropWhile_append_of_pos (digits _),
    List.append_assoc, digitsValue_append (List.replicate _ 48), (writes_zeros _).value, zero_mul,
    zero_add]
  simp

theorem decimalValue_zeros {sign : List Byte} (part : SignPart sign) (count : ℕ) (text : List Byte) :
    decimalValue (sign ++ (List.replicate (count + 1) 48 ++ text)) =
      decimalValue (sign ++ ([48] ++ text)) := by
  have unsigned : forall zeros text, Unsigned (48 :: zeros ++ text) := by
    intro zeros text byte first
    cases first
    decide
  have split := splitSign_append part (unsigned (List.replicate count 48) text)
  have splitOne := splitSign_append part (unsigned [] text)
  rw [← List.replicate_succ] at split
  rw [decimalValue, decimalValue, split, splitOne, unsignedValue_zeros]

/-! ## Reading decimal numbers -/

/-- The zeros in front of a number, as a stream keeps them. -/
def keptZeros (body : List Byte) : List Byte :=
  if body.head? = some 48 then [48] else []

/-- Behind its sign, a number is its zeros and what `floatText` finds. -/
def numberText (body : List Byte) : List Byte × List Byte :=
  floatText (keptZeros body ≠ []) false false false (body.dropWhile fun byte => byte = 48)

/-- An extraction of a `double` by its parts. -/
theorem readDouble_parts {text sign body : List Byte} (filled : text.dropWhile isSpace ≠ [])
    (signRead : readSign (text.dropWhile isSpace) = some (sign, body)) :
    readDouble strtod text =
      (strtod (sign ++ keptZeros body ++ (numberText body).1)).map fun value =>
        (value, (numberText body).2) := by
  have blanks := skipSpace_eq filled
  unfold readDouble
  simp only [bind, StateT.bind, blanks, signRead, Option.bind_some, readZeros]
  have zeros : (if body.head? = some 48 then [48] else []) = keptZeros body := rfl
  rw [zeros]
  unfold numberText
  cases strtod (sign ++ keptZeros body ++ (floatText (keptZeros body ≠ []) false false false
    (body.dropWhile fun byte => byte = 48)).1) <;> rfl

/-- The zeros in front, and how they are kept. -/
theorem keptZeros_cases (body : List Byte) : Exists fun count =>
    body = List.replicate count 48 ++ body.dropWhile (fun byte => byte = 48) ∧
      keptZeros body = if count = 0 then [] else [48] := by
  have split := List.takeWhile_append_dropWhile (p := fun byte : Byte => decide (byte = 48)) (l := body)
  have zeros : body.takeWhile (fun byte => byte = 48) =
      List.replicate (body.takeWhile fun byte => byte = 48).length 48 := by
    rw [List.eq_replicate_iff]
    refine ⟨rfl, fun byte member => ?_⟩
    have zero := List.mem_takeWhile_imp member
    exact of_decide_eq_true zero
  refine ⟨(body.takeWhile fun byte => byte = 48).length, ?_, ?_⟩
  · rw [← zeros]
    exact split.symm
  · unfold keptZeros
    cases body with
    | nil => rfl
    | cons byte body =>
        by_cases zero : byte = 48
        · subst zero
          simp
        · simp [zero]

/-- What is read as a number: some zeros and what `floatText` finds behind
them. -/
theorem numberText_cases (body : List Byte) : Exists fun count => Exists fun found =>
    body = List.replicate count 48 ++ found ++ (numberText body).2 ∧
      (numberText body).1 = found.map kept ∧
      (forall byte, byte ∈ found -> isSpace byte = false) ∧
      keptZeros body = if count = 0 then [] else [48] := by
  rcases keptZeros_cases body with ⟨count, split, zeros⟩
  rcases floatText_kept (keptZeros body ≠ []) false false false
    (body.dropWhile fun byte => byte = 48) with ⟨found, rest, text, solid⟩
  refine ⟨count, found, ?_, text, solid, zeros⟩
  rw [List.append_assoc]
  exact split.trans (congrArg (List.append _) rest)

/-- The kept text has the value of the text as it was sent. -/
theorem decimalValue_number {sign : List Byte} (part : SignPart sign) (count : ℕ) (found : List Byte) :
    decimalValue (sign ++ (if count = 0 then [] else [48]) ++ found.map kept) =
      decimalValue (sign ++ (List.replicate count 48 ++ found)) := by
  have keptSign : sign.map kept = sign := by
    cases part <;> rfl
  cases count with
  | zero =>
      rw [if_pos rfl, List.append_nil, List.replicate_zero, List.nil_append,
        ← decimalValue_kept (sign ++ found), List.map_append, keptSign]
  | succ count =>
      rw [if_neg (Nat.succ_ne_zero count), decimalValue_zeros part,
        ← decimalValue_kept (sign ++ ([48] ++ found)), List.map_append, List.map_append, keptSign,
        List.append_assoc]
      rfl

theorem numberText_rest (body : List Byte) :
    (numberText body).2 = (floatText false false false false body).2 := by
  rcases keptZeros_cases body with ⟨count, split, zeros⟩
  unfold numberText
  rw [zeros]
  cases count with
  | zero =>
      rw [List.replicate_zero, List.nil_append] at split
      rw [← split]
      rfl
  | succ count =>
      have filled : List.replicate (count + 1) (48 : Byte) ≠ [] := List.cons_ne_nil _ _
      have digits := floatText_digits false false false false filled (writes_zeros (count + 1)).digits
        (body.dropWhile fun byte => byte = 48)
      rw [← split] at digits
      rw [digits, if_neg (Nat.succ_ne_zero count)]
      rfl

/-- The parts of a word that is in full a decimal number. -/
theorem decimalValue_eq_some {word : List Byte} {value : ℚ} (whole : decimalValue word = some value) :
    Exists fun sign => Exists fun body => word = sign ++ body ∧ SignPart sign ∧
      (Exists fun magnitude => unsignedValue body = some magnitude) ∧
      forall rest, readSign (sign ++ (body ++ rest)) = some (sign, body ++ rest) := by
  rcases Option.map_eq_some_iff.mp whole with ⟨magnitude, is, _⟩
  cases word with
  | nil => cases is
  | cons byte rest =>
      by_cases minus : byte = 45
      · subst minus
        exact ⟨[45], rest, rfl, SignPart.minus, ⟨magnitude, is⟩, fun _ => rfl⟩
      · by_cases plus : byte = 43
        · subst plus
          exact ⟨[43], rest, rfl, SignPart.plus, ⟨magnitude, is⟩, fun _ => rfl⟩
        · have unsigned : splitSign (byte :: rest) = (false, byte :: rest) := by
            rw [splitSign, if_neg minus, if_neg plus]
          rw [unsigned] at is
          refine ⟨[], byte :: rest, rfl, SignPart.none, ⟨magnitude, is⟩, fun more => ?_⟩
          apply readSign_append SignPart.none
          intro first same
          cases same
          rw [isSign, Bool.or_eq_false_iff, decide_eq_false_iff_not, decide_eq_false_iff_not]
          exact ⟨plus, minus⟩

theorem strtod_congr {first second : List Byte} (same : decimalValue first = decimalValue second) :
    strtod first = strtod second := by
  unfold strtod
  rw [same]

/-- The extraction of a `double` reads words that are decimal numbers in
full. -/
theorem readsWords_readDouble : ReadsWords (readDouble strtod) strtod where
  sound := by
    intro text value rest read ends
    have filled : text.dropWhile isSpace ≠ [] := by
      intro blank
      unfold readDouble at read
      simp only [bind, StateT.bind, skipSpace_blank blank, Option.bind_none, reduceCtorEq] at read
    rcases readSign_cases (text.dropWhile isSpace) with ⟨sign, body, signRead, starts, part, _⟩
    rw [readDouble_parts filled signRead] at read
    rcases Option.map_eq_some_iff.mp read with ⟨_, converted, same⟩
    cases same
    rcases numberText_cases body with ⟨count, found, split, keptText, solid, zeros⟩
    rw [zeros, keptText, strtod_congr (decimalValue_number part count found)] at converted
    have isWord : IsWord (sign ++ (List.replicate count 48 ++ found)) := by
      constructor
      · intro empty
        rw [empty] at converted
        cases converted
      · intro byte member
        rcases List.mem_append.mp member with inSign | inNumber
        · exact part.solid byte inSign
        · rcases List.mem_append.mp inNumber with inZeros | inFound
          · exact (digit_ne ((writes_zeros count).digits byte inZeros)).1
          · exact solid byte inFound
    refine ⟨_, ?_, converted⟩
    rw [← words_append isWord ends, ← words_dropWhile, starts, List.append_assoc, ← split]
  complete := by
    intro text word more value split meaning
    rcases words_eq_cons split with ⟨rest, starts, isWord, ends, rfl⟩
    rcases Option.bind_eq_some_iff.mp meaning with ⟨number, whole, _⟩
    rcases decimalValue_eq_some whole with ⟨sign, body, rfl, part, ⟨magnitude, unsigned⟩, signRead⟩
    have filled : text.dropWhile isSpace ≠ [] := by
      rw [starts]
      exact List.append_ne_nil_of_left_ne_nil isWord.filled rest
    rw [List.append_assoc] at starts
    have left : (numberText (body ++ rest)).2 = rest := by
      rw [numberText_rest]
      exact floatText_unsigned unsigned ends
    rcases numberText_cases (body ++ rest) with ⟨count, found, parts, keptText, _, zeros⟩
    rw [left] at parts
    have same : body = List.replicate count 48 ++ found := List.append_cancel_right parts
    refine ⟨rest, ?_, ends, rfl⟩
    rw [readDouble_parts filled (starts ▸ signRead rest), left, keptText, zeros,
      strtod_congr (decimalValue_number part count found), ← same, meaning]
    rfl

/-! ## The commands of a line -/

/-- The words are those of a transfer. -/
def IsTransfer (line : List Byte) (fromId toId : ℤ) (amount : Double) : Prop :=
  Exists fun source => Exists fun destination => Exists fun sum => Exists fun description =>
    words line = ascii "TRANSFER" :: source :: destination :: sum :: description ∧
      intValue source = some fromId ∧ intValue destination = some toId ∧ strtod sum = some amount

/-- The words ask for a balance. -/
def IsBalance (line : List Byte) (accId : ℤ) : Prop :=
  Exists fun account => Exists fun more =>
    words line = ascii "BALANCE" :: account :: more ∧ intValue account = some accId

def IsPing (line : List Byte) : Prop :=
  (words line).head? = some (ascii "PING")

/-- Accounts are touched by well-formed commands only, and all other lines are
answered with an error. -/
structure WellFormedOnly (line : List Byte) : Prop where
  transfers : forall fromId toId amount,
    parseCommand strtod line = .transfer fromId toId amount ↔ IsTransfer line fromId toId amount
  balances : forall accId, parseCommand strtod line = .balance accId ↔ IsBalance line accId
  others : (forall fromId toId amount, ¬ IsTransfer line fromId toId amount) ->
    (forall accId, ¬ IsBalance line accId) -> ¬ IsPing line ->
      forall (Bank : Type) (services : Services Bank Double) (bank : Bank),
        IsError (respond services (parseCommand strtod line) bank).1 ∧
          (respond services (parseCommand strtod line) bank).2 = bank

/-- Where all numbers of a command can be extracted, each extraction stops at
the end of a word. -/
structure StopsAtWords (line : List Byte) : Prop where
  balance : (commandWord line).1 = ascii "BALANCE" -> forall accId rest,
    readInt (commandWord line).2 = some (accId, rest) -> AtWordEnd rest
  transfer : (commandWord line).1 = ascii "TRANSFER" ->
    forall fromId toId amount afterSource afterDestination afterSum,
      readInt (commandWord line).2 = some (fromId, afterSource) ->
      readInt afterSource = some (toId, afterDestination) ->
      readDouble strtod afterDestination = some (amount, afterSum) ->
        AtWordEnd afterSource ∧ AtWordEnd afterDestination ∧ AtWordEnd afterSum

/-- The first word of a line and its arguments. -/
theorem words_commandWord (line : List Byte) :
    (words line = [] ∧ commandWord line = ([], [])) ∨
      words line = (commandWord line).1 :: words (commandWord line).2 := by
  rw [← words_dropWhile]
  rcases dropWhile_space_cases line with blank | ⟨byte, rest, starts, first⟩
  · refine Or.inl ⟨by rw [blank]; rfl, ?_⟩
    unfold commandWord readWord
    simp only [bind, StateT.bind, skipSpace_blank blank, Option.bind_none, Option.getD_none]
  · have filled : line.dropWhile isSpace ≠ [] := by
      rw [starts]
      exact List.cons_ne_nil _ _
    have command : commandWord line = ((line.dropWhile isSpace).takeWhile fun byte => !isSpace byte,
        (line.dropWhile isSpace).dropWhile fun byte => !isSpace byte) := by
      unfold commandWord readWord
      simp only [bind, StateT.bind, skipSpace_eq filled, Option.bind_some, Option.getD_some]
    rcases firstWord first rest with ⟨isWord, ends⟩
    have split := words_append isWord ends
    rw [List.takeWhile_append_dropWhile] at split
    rw [command, starts]
    exact Or.inr split

theorem words_arguments {line word : List Byte} {more : List (List Byte)} (filled : word ≠ []) :
    words line = word :: more ↔ (commandWord line).1 = word ∧ words (commandWord line).2 = more := by
  rcases words_commandWord line with ⟨none, empty⟩ | split
  · rw [none, empty]
    constructor
    · intro impossible
      cases impossible
    · rintro ⟨same, _⟩
      exact absurd same.symm filled
  · rw [split, List.cons.injEq]

theorem transferArguments_eq_some_iff {arguments rest : List Byte} {fromId toId : ℤ} {amount : Double} :
    transferArguments strtod arguments = some ((fromId, toId, amount), rest) ↔
      Exists fun afterSource => Exists fun afterDestination =>
        readInt arguments = some (fromId, afterSource) ∧
        readInt afterSource = some (toId, afterDestination) ∧
        readDouble strtod afterDestination = some (amount, rest) := by
  unfold transferArguments
  simp only [bind, StateT.bind, Option.bind_eq_some_iff, Prod.exists]
  constructor
  · rintro ⟨source, afterSource, first, destination, afterDestination, second, sum, afterSum, third, same⟩
    cases same
    exact ⟨afterSource, afterDestination, first, second, third⟩
  · rintro ⟨afterSource, afterDestination, first, second, third⟩
    exact ⟨_, afterSource, first, _, afterDestination, second, _, rest, third, rfl⟩

/-- The ways through the dispatch. -/
inductive Dispatches (line : List Byte) : Command Double -> Prop where
  | ping (word : (commandWord line).1 = ascii "PING") : Dispatches line .ping
  | balance (word : (commandWord line).1 = ascii "BALANCE") {accId : ℤ} {rest : List Byte}
      (read : readInt (commandWord line).2 = some (accId, rest)) : Dispatches line (.balance accId)
  | invalidBalance (word : (commandWord line).1 = ascii "BALANCE")
      (fails : readInt (commandWord line).2 = none) : Dispatches line .invalidBalance
  | transfer (word : (commandWord line).1 = ascii "TRANSFER") {fromId toId : ℤ} {amount : Double}
      {rest : List Byte}
      (read : transferArguments strtod (commandWord line).2 = some ((fromId, toId, amount), rest)) :
      Dispatches line (.transfer fromId toId amount)
  | invalidTransfer (word : (commandWord line).1 = ascii "TRANSFER")
      (fails : transferArguments strtod (commandWord line).2 = none) : Dispatches line .invalidTransfer
  | unknown (notPing : (commandWord line).1 ≠ ascii "PING")
      (notBalance : (commandWord line).1 ≠ ascii "BALANCE")
      (notTransfer : (commandWord line).1 ≠ ascii "TRANSFER") : Dispatches line .unknown

theorem dispatches (line : List Byte) : Dispatches line (parseCommand strtod line) := by
  unfold parseCommand
  dsimp only
  split_ifs with ping balance transfer
  · exact Dispatches.ping ping
  · cases read : readInt (commandWord line).2 with
    | none => exact Dispatches.invalidBalance balance read
    | some result => exact Dispatches.balance balance read
  · cases read : transferArguments strtod (commandWord line).2 with
    | none => exact Dispatches.invalidTransfer transfer read
    | some result => exact Dispatches.transfer transfer read
  · exact Dispatches.unknown ping balance transfer

theorem commandWords_distinct : ascii "PING" ≠ ascii "BALANCE" ∧ ascii "PING" ≠ ascii "TRANSFER" ∧
    ascii "BALANCE" ≠ ascii "TRANSFER" := by
  decide

theorem parseCommand_eq_balance_iff {line : List Byte} {accId : ℤ} :
    parseCommand strtod line = .balance accId ↔ (commandWord line).1 = ascii "BALANCE" ∧
      Exists fun rest => readInt (commandWord line).2 = some (accId, rest) := by
  have dispatched := dispatches line
  constructor
  · intro same
    rw [same] at dispatched
    cases dispatched with
    | balance word read => exact ⟨word, _, read⟩
  · rintro ⟨word, rest, read⟩
    rcases commandWords_distinct with ⟨pingBalance, _, balanceTransfer⟩
    generalize parseCommand strtod line = command at dispatched
    cases dispatched with
    | ping other => exact absurd (other.symm.trans word) pingBalance
    | balance _ other =>
        cases other.symm.trans read
        rfl
    | invalidBalance _ fails => cases fails.symm.trans read
    | transfer other _ => exact absurd (word.symm.trans other) balanceTransfer
    | invalidTransfer other _ => exact absurd (word.symm.trans other) balanceTransfer
    | unknown _ notBalance _ => exact absurd word notBalance

theorem parseCommand_eq_transfer_iff {line : List Byte} {fromId toId : ℤ} {amount : Double} :
    parseCommand strtod line = .transfer fromId toId amount ↔
      (commandWord line).1 = ascii "TRANSFER" ∧ Exists fun rest =>
        transferArguments strtod (commandWord line).2 = some ((fromId, toId, amount), rest) := by
  have dispatched := dispatches line
  constructor
  · intro same
    rw [same] at dispatched
    cases dispatched with
    | transfer word read => exact ⟨word, _, read⟩
  · rintro ⟨word, rest, read⟩
    rcases commandWords_distinct with ⟨_, pingTransfer, balanceTransfer⟩
    generalize parseCommand strtod line = command at dispatched
    cases dispatched with
    | ping other => exact absurd (other.symm.trans word) pingTransfer
    | balance other _ => exact absurd (other.symm.trans word) balanceTransfer
    | invalidBalance other _ => exact absurd (other.symm.trans word) balanceTransfer
    | transfer _ other =>
        cases other.symm.trans read
        rfl
    | invalidTransfer _ fails => cases fails.symm.trans read
    | unknown _ _ notTransfer => exact absurd word notTransfer

/-! ## Well-formed commands are carried out -/

theorem IsBalance.reads {line : List Byte} {accId : ℤ} (is : IsBalance line accId) :
    (commandWord line).1 = ascii "BALANCE" ∧ Exists fun rest =>
      readInt (commandWord line).2 = some (accId, rest) ∧ AtWordEnd rest := by
  rcases is with ⟨account, more, split, value⟩
  rcases (words_arguments (by decide)).mp split with ⟨word, arguments⟩
  rcases readsWords_readInt.complete arguments value with ⟨rest, read, ends, _⟩
  exact ⟨word, rest, read, ends⟩

theorem IsTransfer.reads {line : List Byte} {fromId toId : ℤ} {amount : Double}
    (is : IsTransfer line fromId toId amount) :
    (commandWord line).1 = ascii "TRANSFER" ∧ Exists fun afterSource => Exists fun afterDestination =>
      Exists fun rest => readInt (commandWord line).2 = some (fromId, afterSource) ∧
        readInt afterSource = some (toId, afterDestination) ∧
        readDouble strtod afterDestination = some (amount, rest) ∧
        AtWordEnd afterSource ∧ AtWordEnd afterDestination ∧ AtWordEnd rest := by
  rcases is with ⟨source, destination, sum, description, split, fromValue, toValue, amountValue⟩
  rcases (words_arguments (by decide)).mp split with ⟨word, arguments⟩
  rcases readsWords_readInt.complete arguments fromValue with ⟨afterSource, first, firstEnds, arguments⟩
  rcases readsWords_readInt.complete arguments toValue with
    ⟨afterDestination, second, secondEnds, arguments⟩
  rcases readsWords_readDouble.complete arguments amountValue with ⟨rest, third, thirdEnds, _⟩
  exact ⟨word, afterSource, afterDestination, rest, first, second, third, firstEnds, secondEnds, thirdEnds⟩

theorem stopsAtWords_of_wellFormedOnly {line : List Byte} (only : WellFormedOnly line) :
    StopsAtWords line where
  balance := by
    intro word accId rest read
    have is := (only.balances accId).mp (parseCommand_eq_balance_iff.mpr ⟨word, rest, read⟩)
    rcases is.reads with ⟨_, other, same, ends⟩
    cases read.symm.trans same
    exact ends
  transfer := by
    intro word fromId toId amount afterSource afterDestination afterSum first second third
    have read := transferArguments_eq_some_iff.mpr ⟨afterSource, afterDestination, first, second, third⟩
    have is := (only.transfers fromId toId amount).mp
      (parseCommand_eq_transfer_iff.mpr ⟨word, afterSum, read⟩)
    rcases is.reads with ⟨_, _, _, _, sameFirst, sameSecond, sameThird, ends⟩
    cases first.symm.trans sameFirst
    cases second.symm.trans sameSecond
    cases third.symm.trans sameThird
    exact ends

theorem wellFormedOnly_of_stopsAtWords {line : List Byte} (stops : StopsAtWords line) :
    WellFormedOnly line := by
  have balances : forall accId, parseCommand strtod line = .balance accId ↔ IsBalance line accId := by
    intro accId
    rw [parseCommand_eq_balance_iff]
    constructor
    · rintro ⟨word, rest, read⟩
      rcases readsWords_readInt.sound read (stops.balance word accId rest read) with
        ⟨account, split, value⟩
      exact ⟨account, _, (words_arguments (by decide)).mpr ⟨word, split⟩, value⟩
    · intro is
      rcases is.reads with ⟨word, rest, read, _⟩
      exact ⟨word, rest, read⟩
  have transfers : forall fromId toId amount,
      parseCommand strtod line = .transfer fromId toId amount ↔ IsTransfer line fromId toId amount := by
    intro fromId toId amount
    rw [parseCommand_eq_transfer_iff]
    constructor
    · rintro ⟨word, rest, read⟩
      rcases transferArguments_eq_some_iff.mp read with
        ⟨afterSource, afterDestination, first, second, third⟩
      rcases stops.transfer word _ _ _ _ _ _ first second third with
        ⟨firstEnds, secondEnds, thirdEnds⟩
      rcases readsWords_readInt.sound first firstEnds with ⟨source, firstSplit, fromValue⟩
      rcases readsWords_readInt.sound second secondEnds with ⟨destination, secondSplit, toValue⟩
      rcases readsWords_readDouble.sound third thirdEnds with ⟨sum, thirdSplit, amountValue⟩
      refine ⟨source, destination, sum, words rest, ?_, fromValue, toValue, amountValue⟩
      rw [words_arguments (by decide), firstSplit, secondSplit, thirdSplit]
      exact ⟨word, rfl⟩
    · intro is
      rcases is.reads with ⟨word, afterSource, afterDestination, rest, first, second, third, _⟩
      exact ⟨word, rest,
        transferArguments_eq_some_iff.mpr ⟨afterSource, afterDestination, first, second, third⟩⟩
  refine ⟨transfers, balances, ?_⟩
  intro notTransfer notBalance notPing Bank services bank
  have dispatched := dispatches line
  cases command : parseCommand strtod line with
  | ping =>
      rw [command] at dispatched
      cases dispatched with
      | ping word =>
          apply False.elim
          apply notPing
          rw [IsPing, (words_arguments (by decide)).mpr ⟨word, rfl⟩, List.head?_cons]
  | balance accId => exact absurd ((balances accId).mp command) (notBalance accId)
  | transfer fromId toId amount =>
      exact absurd ((transfers fromId toId amount).mp command) (notTransfer fromId toId amount)
  | invalidBalance => exact ⟨by simp only [respond]; decide, rfl⟩
  | invalidTransfer => exact ⟨by simp only [respond]; decide, rfl⟩
  | unknown => exact ⟨by simp only [respond]; decide, rfl⟩

/-- A line is treated as its words say exactly if no extraction that is used
stops inside a word. -/
theorem wellFormedOnly_iff (line : List Byte) : WellFormedOnly line ↔ StopsAtWords line :=
  ⟨stopsAtWords_of_wellFormedOnly, wellFormedOnly_of_stopsAtWords⟩

/-- The destination takes the two of `2.50`, and the amount the rest. -/
theorem not_wellFormedOnly_of_every_line :
    (Exists fun amount => parseCommand strtod (ascii "TRANSFER 1 2.50 x") = .transfer 1 2 amount) ∧
      ¬ forall line, WellFormedOnly line := by
  have read : (readDouble strtod (ascii ".50 x")).isSome = true := by decide +kernel
  rcases Option.isSome_iff_exists.mp read with ⟨⟨amount, rest⟩, third⟩
  have word : (commandWord (ascii "TRANSFER 1 2.50 x")).1 = ascii "TRANSFER" := by decide
  have first : readInt (commandWord (ascii "TRANSFER 1 2.50 x")).2 = some (1, ascii " 2.50 x") := by
    decide
  have second : readInt (ascii " 2.50 x") = some (2, ascii ".50 x") := by decide
  constructor
  · refine ⟨amount, parseCommand_eq_transfer_iff.mpr ⟨word, rest, ?_⟩⟩
    exact transferArguments_eq_some_iff.mpr ⟨_, _, first, second, third⟩
  · intro always
    have stops := stopsAtWords_of_wellFormedOnly (always (ascii "TRANSFER 1 2.50 x"))
    have ends := (stops.transfer word _ _ _ _ _ _ first second third).2.1
    exact absurd (ends 46 rfl) (by decide)

end CoreBank
