import CoreBank.Server.Protocol

namespace CoreBank

/-!
# Lines and pieces

The protocol is a protocol of lines, but the handler takes every piece that
`recv` delivers for a line.  A stream is therefore read as its lines say in
every delivery only if no piece can hold less or more than one command: every
byte of text must stand alone, with a newline behind it and no other text
within reach of the same piece.
-/

section Streams

variable {Bank Double : Type}

/-- The newline-terminated lines of a stream, without their newlines; `current`
is what has come since the last one. -/
def terminatedLines (current : List Byte) : List Byte -> List (List Byte)
  | [] => []
  | byte :: rest =>
      if byte = lineFeed then current :: terminatedLines [] rest
      else terminatedLines (current ++ [byte]) rest

/-- One command for each newline-terminated line that is not empty. -/
def lineCommands (strtod : List Byte -> Option Double) (stream : List Byte) :
    List (Command Double) :=
  (terminatedLines [] stream).filterMap (receive strtod)

/-- Pieces in which `recv` may deliver a stream. -/
structure Delivers (pieces : List (List Byte)) (stream : List Byte) : Prop where
  flatten : pieces.flatten = stream
  nonempty : forall piece, piece ∈ pieces -> piece ≠ []
  fits : forall piece, piece ∈ pieces -> piece.length ≤ 1023

/-- Every delivery of the stream executes the commands of its lines, and gets
their replies. -/
structure ReadByLines (services : Services Bank Double) (strtod : List Byte -> Option Double)
    (bank : Bank) (stream : List Byte) : Prop where
  commands : forall pieces, Delivers pieces stream ->
    executed strtod pieces = lineCommands strtod stream
  replies : forall pieces, Delivers pieces stream ->
    (handleClient services strtod pieces bank).1 =
      (respondAll services (lineCommands strtod stream) bank).1

/-- A byte that is not a line end. -/
def isText (byte : Byte) : Bool :=
  !isLineEnd byte

/-- The line ends up to the next text. -/
def quiet (stream : List Byte) : List Byte :=
  stream.takeWhile isLineEnd

/-- Behind every byte of text there is a newline before the next text. -/
def Terminated (stream : List Byte) : Prop :=
  forall before byte rest, stream = before ++ byte :: rest -> isText byte = true ->
    lineFeed ∈ quiet rest

/-- Any two bytes of text are too far apart for one piece. -/
def Spaced (stream : List Byte) : Prop :=
  forall before byte rest, stream = before ++ byte :: rest -> isText byte = true ->
    quiet rest = rest ∨ 1022 ≤ (quiet rest).length

end Streams

/-! ## Text in pieces -/

section Pieces

variable {Double : Type} (strtod : List Byte -> Option Double)

theorem isSpace_of_isLineEnd {byte : Byte} (ends : isLineEnd byte = true) : isSpace byte = true := by
  rw [isLineEnd, Bool.or_eq_true, decide_eq_true_eq, decide_eq_true_eq] at ends
  rcases ends with rfl | rfl
  · decide
  · decide

theorem lineOf_eq_nil_iff (piece : List Byte) : lineOf piece = [] ↔ piece.countP isText = 0 := by
  rw [lineOf, List.rdropWhile_eq_nil_iff, List.countP_eq_zero]
  simp only [isText, Bool.not_eq_true', Bool.not_eq_false]

/-- A piece is a command exactly if it has text. -/
theorem receive_isSome_iff (piece : List Byte) :
    (receive strtod piece).isSome = true ↔ piece.countP isText ≠ 0 := by
  rw [ne_eq, ← lineOf_eq_nil_iff, receive]
  by_cases empty : lineOf piece = []
  · simp [empty]
  · simp [empty]

theorem receive_of_quiet {piece : List Byte} (silent : piece.countP isText = 0) :
    receive strtod piece = none := by
  rw [receive, if_pos ((lineOf_eq_nil_iff piece).mpr silent)]

/-- The first word of a line with one byte behind white space. -/
theorem commandWord_of_single {before : List Byte} (space : forall byte, byte ∈ before -> isSpace byte = true)
    (last : Byte) : (commandWord (before ++ [last])).1.length ≤ 1 := by
  have skipped : (before ++ [last]).dropWhile isSpace = [last].dropWhile isSpace :=
    List.dropWhile_append_of_pos space
  cases blank : isSpace last with
  | true =>
      have word : commandWord (before ++ [last]) = ([], []) := by
        simp only [commandWord, readWord, skipSpace, skipped, List.dropWhile_cons, blank, if_true,
          List.dropWhile_nil, bind, StateT.bind, Option.bind, Option.getD]
      rw [word]
      exact Nat.zero_le 1
  | false =>
      have word : commandWord (before ++ [last]) = ([last], []) := by
        simp [commandWord, readWord, skipSpace, skipped, blank, bind, StateT.bind]
      rw [word]
      exact Nat.le_refl 1

theorem parseCommand_of_short {line : List Byte} (short : (commandWord line).1.length ≤ 1) :
    parseCommand strtod line = .unknown := by
  have differs : forall text : String, 1 < (ascii text).length -> (commandWord line).1 ≠ ascii text := by
    intro text long same
    rw [same] at short
    omega
  rw [parseCommand]
  simp only [if_neg (differs "PING" (by decide)), if_neg (differs "BALANCE" (by decide)),
    if_neg (differs "TRANSFER" (by decide))]

/-- One byte of text is no command that the server knows. -/
theorem receive_of_single {piece : List Byte} (single : piece.countP isText = 1) :
    receive strtod piece = some .unknown := by
  have filled : lineOf piece ≠ [] := by
    rw [ne_eq, lineOf_eq_nil_iff]
    omega
  have lastText : isText ((lineOf piece).getLast filled) = true := by
    rw [isText, Bool.not_eq_true', Bool.eq_false_iff]
    exact List.rdropWhile_last_not isLineEnd piece filled
  have split := List.dropLast_append_getLast filled
  have fewer : (lineOf piece).countP isText ≤ 1 :=
    single ▸ (List.rdropWhile_prefix isLineEnd piece).sublist.countP_le
  have silent : (lineOf piece).dropLast.countP isText = 0 := by
    rw [← split, List.countP_append, List.countP_singleton, if_pos lastText] at fewer
    omega
  have space : forall byte, byte ∈ (lineOf piece).dropLast -> isSpace byte = true := by
    intro byte member
    have ends := List.countP_eq_zero.mp silent byte member
    exact isSpace_of_isLineEnd (by simpa [isText] using ends)
  rw [receive, if_neg filled, ← split]
  exact congrArg some (parseCommand_of_short strtod (commandWord_of_single space _))

end Pieces

/-! ## Text that stands alone -/

theorem countP_quiet (stream : List Byte) : (quiet stream).countP isText = 0 := by
  rw [List.countP_eq_zero]
  intro byte member
  simp [isText, List.mem_takeWhile_imp member]

/-- A stream goes quiet until its next byte of text. -/
theorem quiet_cases (stream : List Byte) :
    quiet stream = stream ∨ Exists fun text => Exists fun rest =>
      isText text = true ∧ stream = quiet stream ++ text :: rest := by
  have split := List.takeWhile_append_dropWhile (p := isLineEnd) (l := stream)
  cases left : stream.dropWhile isLineEnd with
  | nil =>
      rw [left, List.append_nil] at split
      exact Or.inl split
  | cons text rest =>
      have stops : isLineEnd text = false := by
        have notNil : stream.dropWhile isLineEnd ≠ [] := by
          rw [left]
          exact List.cons_ne_nil _ _
        have head := List.head_dropWhile_not isLineEnd notNil
        simpa only [left, List.head_cons] using head
      rw [left] at split
      exact Or.inr ⟨text, rest, by rw [isText, stops]; rfl, split.symm⟩

theorem quiet_append_of_quiet {first rest : List Byte} (silent : first.countP isText = 0) :
    quiet (first ++ rest) = first ++ quiet rest := by
  apply List.takeWhile_append_of_pos
  intro byte member
  have ends := List.countP_eq_zero.mp silent byte member
  simpa [isText] using ends

/-- Text in the first part ends the quiet there. -/
theorem quiet_append_of_text {first : List Byte} (rest : List Byte) (text : first.countP isText ≠ 0) :
    quiet (first ++ rest) = quiet first ∧ (quiet first).length < first.length := by
  rcases quiet_cases first with same | ⟨byte, later, isByte, split⟩
  · rw [← same] at text
    exact False.elim (text (countP_quiet first))
  · have stops : isLineEnd byte = false := by
      simpa [isText] using isByte
    constructor
    · rw [split, List.append_assoc]
      have silent := countP_quiet first
      rw [quiet_append_of_quiet silent, quiet_append_of_quiet silent]
      simp [quiet, stops]
    · have lengths := congrArg List.length split
      rw [List.length_append, List.length_cons] at lengths
      omega

theorem Terminated.suffix (before : List Byte) {rest : List Byte} (terminated : Terminated (before ++ rest)) :
    Terminated rest := by
  intro more byte later split text
  apply terminated (before ++ more) byte later _ text
  rw [split, List.append_assoc]

theorem Spaced.suffix (before : List Byte) {rest : List Byte} (spaced : Spaced (before ++ rest)) :
    Spaced rest := by
  intro more byte later split text
  apply spaced (before ++ more) byte later _ text
  rw [split, List.append_assoc]

/-- A piece of a spaced stream has at most one byte of text. -/
theorem Spaced.countP_le_one {piece rest : List Byte} (spaced : Spaced (piece ++ rest))
    (fits : piece.length ≤ 1023) : piece.countP isText ≤ 1 := by
  induction piece with
  | nil => exact Nat.zero_le 1
  | cons byte piece inductionHypothesis =>
      rw [List.length_cons] at fits
      have later : Spaced (piece ++ rest) := Spaced.suffix [byte] spaced
      cases text : isText byte with
      | false =>
          rw [List.countP_cons_of_neg (by simp [text])]
          exact inductionHypothesis later (by omega)
      | true =>
          rw [List.countP_cons_of_pos text]
          by_contra many
          have more : piece.countP isText ≠ 0 := by omega
          rcases quiet_append_of_text rest more with ⟨same, shorter⟩
          rcases spaced [] byte (piece ++ rest) rfl text with whole | long
          · have silent := countP_quiet (piece ++ rest)
            rw [whole, List.countP_append] at silent
            omega
          · rw [same] at long
            omega

/-- A line of a terminated stream has at most one byte of text. -/
theorem Terminated.countP_le_one {line rest : List Byte} (unbroken : lineFeed ∉ line)
    (terminated : Terminated (line ++ rest)) : line.countP isText ≤ 1 := by
  induction line with
  | nil => exact Nat.zero_le 1
  | cons byte line inductionHypothesis =>
      have later : Terminated (line ++ rest) := Terminated.suffix [byte] terminated
      have laterUnbroken : lineFeed ∉ line := fun member => unbroken (List.mem_cons_of_mem _ member)
      cases text : isText byte with
      | false =>
          rw [List.countP_cons_of_neg (by simp [text])]
          exact inductionHypothesis laterUnbroken later
      | true =>
          rw [List.countP_cons_of_pos text]
          by_contra many
          have more : line.countP isText ≠ 0 := by omega
          have newline := terminated [] byte (line ++ rest) rfl text
          rw [(quiet_append_of_text rest more).1] at newline
          exact laterUnbroken ((List.takeWhile_sublist _).subset newline)

theorem Terminated.cons {byte : Byte} {rest : List Byte}
    (newline : isText byte = true -> lineFeed ∈ quiet rest) (terminated : Terminated rest) :
    Terminated (byte :: rest) := by
  intro before other later split text
  cases before with
  | nil =>
      rw [List.nil_append] at split
      cases split
      exact newline text
  | cons first before =>
      rw [List.cons_append] at split
      cases split
      exact terminated before other later rfl text

/-- A line with at most one byte of text in front of a terminated stream. -/
theorem Terminated.line {line rest : List Byte} (terminated : Terminated rest)
    (single : line.countP isText ≤ 1) : Terminated (line ++ lineFeed :: rest) := by
  induction line with
  | nil =>
      apply Terminated.cons _ terminated
      intro text
      exact absurd text (by decide)
  | cons byte line inductionHypothesis =>
      cases text : isText byte with
      | false =>
          rw [List.countP_cons_of_neg (by simp [text])] at single
          apply Terminated.cons _ (inductionHypothesis single)
          intro impossible
          rw [text] at impossible
          cases impossible
      | true =>
          rw [List.countP_cons_of_pos text] at single
          have silent : line.countP isText = 0 := by omega
          apply Terminated.cons _ (inductionHypothesis (by omega))
          intro _
          rw [quiet_append_of_quiet silent]
          apply List.mem_append_right
          exact List.mem_cons_self

/-! ## Counting commands -/

/-- Induction over the newline-terminated lines of a stream. -/
theorem line_induction {motive : List Byte -> Prop}
    (unterminated : forall stream, lineFeed ∉ stream -> motive stream)
    (line : forall line rest, lineFeed ∉ line -> motive rest -> motive (line ++ lineFeed :: rest))
    (stream : List Byte) : motive stream := by
  induction length : stream.length using Nat.strong_induction_on generalizing stream with
  | _ size inductionHypothesis =>
      by_cases member : lineFeed ∈ stream
      · rcases List.eq_append_cons_of_mem member with ⟨first, rest, split, unbroken⟩
        subst split
        apply line first rest unbroken
        apply inductionHypothesis rest.length _ rest rfl
        rw [← length, List.length_append, List.length_cons]
        omega
      · exact unterminated stream member

theorem terminatedLines_of_unterminated {stream : List Byte} (unbroken : lineFeed ∉ stream)
    (current : List Byte) : terminatedLines current stream = [] := by
  induction stream generalizing current with
  | nil => rfl
  | cons byte stream inductionHypothesis =>
      have differs : byte ≠ lineFeed := by
        rintro rfl
        exact unbroken List.mem_cons_self
      rw [terminatedLines, if_neg differs]
      exact inductionHypothesis (fun member => unbroken (List.mem_cons_of_mem _ member)) _

theorem terminatedLines_line {line : List Byte} (unbroken : lineFeed ∉ line)
    (current rest : List Byte) :
    terminatedLines current (line ++ lineFeed :: rest) = (current ++ line) :: terminatedLines [] rest := by
  induction line generalizing current with
  | nil =>
      rw [List.nil_append, terminatedLines, if_pos rfl, List.append_nil]
  | cons byte line inductionHypothesis =>
      have differs : byte ≠ lineFeed := by
        rintro rfl
        exact unbroken List.mem_cons_self
      rw [List.cons_append, terminatedLines, if_neg differs,
        inductionHypothesis (fun member => unbroken (List.mem_cons_of_mem _ member)),
        List.append_assoc, List.singleton_append]

section Counting

variable {Double : Type} (strtod : List Byte -> Option Double)

/-- Where no piece has two bytes of text, every byte of text is a command that
the server does not know. -/
theorem executed_of_single {pieces : List (List Byte)}
    (single : forall piece, piece ∈ pieces -> piece.countP isText ≤ 1) :
    executed strtod pieces = List.replicate (pieces.flatten.countP isText) .unknown := by
  induction pieces with
  | nil => rfl
  | cons piece pieces inductionHypothesis =>
      have rest := inductionHypothesis fun later member => single later (List.mem_cons_of_mem _ member)
      have first := single piece List.mem_cons_self
      rw [executed] at rest
      rw [executed, List.flatten_cons, List.countP_append]
      rcases Nat.le_one_iff_eq_zero_or_eq_one.mp first with silent | text
      · rw [List.filterMap_cons_none (receive_of_quiet strtod silent), rest, silent, Nat.zero_add]
      · rw [List.filterMap_cons_some (receive_of_single strtod text), rest, text, Nat.add_comm,
          List.replicate_succ]

/-- There are no more commands than bytes of text. -/
theorem length_executed_le (pieces : List (List Byte)) :
    (executed strtod pieces).length ≤ pieces.flatten.countP isText := by
  induction pieces with
  | nil => exact Nat.le_refl 0
  | cons piece pieces inductionHypothesis =>
      rw [executed] at inductionHypothesis ⊢
      rw [List.flatten_cons, List.countP_append]
      cases received : receive strtod piece with
      | none =>
          rw [List.filterMap_cons_none received]
          omega
      | some command =>
          have text := (receive_isSome_iff strtod piece).mp (by rw [received]; rfl)
          rw [List.filterMap_cons_some received, List.length_cons]
          omega

/-- There are as many only if no piece has two bytes of text. -/
theorem single_of_length_executed {pieces : List (List Byte)}
    (same : (executed strtod pieces).length = pieces.flatten.countP isText) :
    forall piece, piece ∈ pieces -> piece.countP isText ≤ 1 := by
  induction pieces with
  | nil =>
      intro piece impossible
      cases impossible
  | cons first pieces inductionHypothesis =>
      have bound := length_executed_le strtod pieces
      rw [executed] at same bound inductionHypothesis
      rw [List.flatten_cons, List.countP_append] at same
      have parts : first.countP isText ≤ 1 ∧
          (pieces.filterMap (receive strtod)).length = pieces.flatten.countP isText := by
        cases received : receive strtod first with
        | none =>
            rw [List.filterMap_cons_none received] at same
            omega
        | some command =>
            have text := (receive_isSome_iff strtod first).mp (by rw [received]; rfl)
            rw [List.filterMap_cons_some received, List.length_cons] at same
            omega
      intro piece member
      rcases List.mem_cons.mp member with rfl | later
      · exact parts.1
      · exact inductionHypothesis parts.2 piece later

theorem lineCommands_eq (stream : List Byte) :
    lineCommands strtod stream = executed strtod (terminatedLines [] stream) := rfl

end Counting

theorem countP_terminatedLines_le (stream : List Byte) :
    (terminatedLines [] stream).flatten.countP isText ≤ stream.countP isText := by
  induction stream using line_induction with
  | unterminated stream unbroken =>
      rw [terminatedLines_of_unterminated unbroken]
      exact Nat.zero_le _
  | line line rest unbroken inductionHypothesis =>
      rw [terminatedLines_line unbroken, List.nil_append, List.flatten_cons, List.countP_append,
        List.countP_append, List.countP_cons_of_neg (by decide)]
      omega

/-- All text of a terminated stream is in its lines. -/
theorem Terminated.lines {stream : List Byte} (terminated : Terminated stream) :
    (terminatedLines [] stream).flatten.countP isText = stream.countP isText ∧
      forall line, line ∈ terminatedLines [] stream -> line.countP isText ≤ 1 := by
  induction stream using line_induction with
  | unterminated stream unbroken =>
      rw [terminatedLines_of_unterminated unbroken]
      constructor
      · by_contra text
        rcases List.countP_pos_iff.mp (Nat.pos_of_ne_zero (Ne.symm text)) with ⟨byte, member, isByte⟩
        rcases List.append_of_mem member with ⟨before, rest, rfl⟩
        have newline := terminated before byte rest rfl isByte
        apply unbroken
        apply List.mem_append_right
        apply List.mem_cons_of_mem
        exact (List.takeWhile_sublist _).subset newline
      · intro line impossible
        cases impossible
  | line line rest unbroken inductionHypothesis =>
      have later : Terminated rest := by
        apply Terminated.suffix (line ++ [lineFeed])
        rw [List.append_assoc]
        exact terminated
      rcases inductionHypothesis later with ⟨same, single⟩
      rw [terminatedLines_line unbroken, List.nil_append]
      constructor
      · rw [List.flatten_cons, List.countP_append, List.countP_append,
          List.countP_cons_of_neg (by decide), same]
      · intro other member
        rcases List.mem_cons.mp member with rfl | member
        · exact Terminated.countP_le_one unbroken terminated
        · exact single other member

theorem terminated_of_lines {stream : List Byte}
    (same : (terminatedLines [] stream).flatten.countP isText = stream.countP isText)
    (single : forall line, line ∈ terminatedLines [] stream -> line.countP isText ≤ 1) :
    Terminated stream := by
  induction stream using line_induction with
  | unterminated stream unbroken =>
      rw [terminatedLines_of_unterminated unbroken] at same
      intro before byte rest split text
      have silent := List.countP_eq_zero.mp same.symm byte
      apply False.elim
      apply silent _ text
      rw [split]
      exact List.mem_append_right _ List.mem_cons_self
  | line line rest unbroken inductionHypothesis =>
      rw [terminatedLines_line unbroken, List.nil_append] at same single
      rw [List.flatten_cons, List.countP_append, List.countP_append,
        List.countP_cons_of_neg (by decide)] at same
      apply Terminated.line
      · apply inductionHypothesis (by omega)
        intro other member
        exact single other (List.mem_cons_of_mem _ member)
      · exact single line List.mem_cons_self

/-! ## The streams that are read by lines -/

section Deliveries

variable {Bank Double : Type}

/-- Every byte in a piece of its own. -/
def bytewise (stream : List Byte) : List (List Byte) :=
  stream.map fun byte => [byte]

theorem delivers_bytewise (stream : List Byte) : Delivers (bytewise stream) stream where
  flatten := by
    induction stream with
    | nil => rfl
    | cons byte stream inductionHypothesis =>
        rw [bytewise, List.map_cons, List.flatten_cons]
        exact congrArg (List.cons byte) inductionHypothesis
  nonempty := by
    intro piece member
    rcases List.mem_map.mp member with ⟨byte, _, rfl⟩
    exact List.cons_ne_nil _ _
  fits := by
    intro piece member
    rcases List.mem_map.mp member with ⟨byte, _, rfl⟩
    rw [List.length_singleton]
    omega

theorem Delivers.append {first second : List (List Byte)} {before after : List Byte}
    (earlier : Delivers first before) (later : Delivers second after) :
    Delivers (first ++ second) (before ++ after) where
  flatten := by
    rw [List.flatten_append, earlier.flatten, later.flatten]
  nonempty := by
    intro piece member
    rcases List.mem_append.mp member with member | member
    · exact earlier.nonempty piece member
    · exact later.nonempty piece member
  fits := by
    intro piece member
    rcases List.mem_append.mp member with member | member
    · exact earlier.fits piece member
    · exact later.fits piece member

/-- One piece. -/
theorem delivers_piece {piece : List Byte} (nonempty : piece ≠ []) (fits : piece.length ≤ 1023) :
    Delivers [piece] piece where
  flatten := by
    rw [List.flatten_singleton]
  nonempty := by
    intro other member
    rw [List.mem_singleton.mp member]
    exact nonempty
  fits := by
    intro other member
    rw [List.mem_singleton.mp member]
    exact fits

/-- Commands read by lines are as many as the bytes of text. -/
theorem countP_of_commands {strtod : List Byte -> Option Double} {stream : List Byte}
    (commands : forall pieces, Delivers pieces stream ->
      executed strtod pieces = lineCommands strtod stream) :
    (lineCommands strtod stream).length = stream.countP isText := by
  have single : forall piece, piece ∈ bytewise stream -> piece.countP isText ≤ 1 := by
    intro piece member
    rcases List.mem_map.mp member with ⟨byte, _, rfl⟩
    exact List.countP_le_length
  have delivers := delivers_bytewise stream
  rw [← commands _ delivers, executed_of_single strtod single, List.length_replicate,
    delivers.flatten]

theorem spaced_of_commands {strtod : List Byte -> Option Double} {stream : List Byte}
    (commands : forall pieces, Delivers pieces stream ->
      executed strtod pieces = lineCommands strtod stream) : Spaced stream := by
  rintro before byte rest rfl text
  rcases quiet_cases rest with whole | ⟨next, later, isNext, split⟩
  · exact Or.inl whole
  · apply Or.inr
    by_contra short
    -- Both bytes of text fit in one piece, which is one command only.
    have fits : (byte :: (quiet rest ++ [next])).length ≤ 1023 := by
      rw [List.length_cons, List.length_append, List.length_singleton]
      omega
    have delivers : Delivers
        (bytewise before ++ ([byte :: (quiet rest ++ [next])] ++ bytewise later))
        (before ++ byte :: rest) := by
      have together : before ++ byte :: rest =
          before ++ ((byte :: (quiet rest ++ [next])) ++ later) := by
        rw [List.cons_append, List.append_assoc, List.singleton_append, ← split]
      rw [together]
      exact (delivers_bytewise before).append
        ((delivers_piece (List.cons_ne_nil _ _) fits).append (delivers_bytewise later))
    have same : (executed strtod
        (bytewise before ++ ([byte :: (quiet rest ++ [next])] ++ bytewise later))).length =
        (bytewise before ++ ([byte :: (quiet rest ++ [next])] ++ bytewise later)).flatten.countP
          isText := by
      rw [commands _ delivers, countP_of_commands commands, delivers.flatten]
    have single := single_of_length_executed strtod same (byte :: (quiet rest ++ [next]))
      (List.mem_append_right _ List.mem_cons_self)
    rw [List.countP_cons_of_pos text, List.countP_append, List.countP_singleton,
      if_pos isNext] at single
    omega

theorem terminated_of_commands {strtod : List Byte -> Option Double} {stream : List Byte}
    (commands : forall pieces, Delivers pieces stream ->
      executed strtod pieces = lineCommands strtod stream) : Terminated stream := by
  have all := countP_of_commands commands
  have inLines := countP_terminatedLines_le stream
  have atMost := length_executed_le strtod (terminatedLines [] stream)
  rw [lineCommands_eq] at all
  have same : (executed strtod (terminatedLines [] stream)).length =
      (terminatedLines [] stream).flatten.countP isText := by omega
  exact terminated_of_lines (by omega) (single_of_length_executed strtod same)

theorem commands_of_alone {strtod : List Byte -> Option Double} {stream : List Byte}
    (terminated : Terminated stream) (spaced : Spaced stream) {pieces : List (List Byte)}
    (delivers : Delivers pieces stream) :
    executed strtod pieces = lineCommands strtod stream := by
  have single : forall piece, piece ∈ pieces -> piece.countP isText ≤ 1 := by
    intro piece member
    rcases List.append_of_mem member with ⟨earlier, later, rfl⟩
    have split := delivers.flatten
    rw [List.flatten_append, List.flatten_cons] at split
    rw [← split] at spaced
    exact (spaced.suffix earlier.flatten).countP_le_one (delivers.fits piece member)
  rcases terminated.lines with ⟨same, singleLines⟩
  rw [lineCommands_eq, executed_of_single strtod single, executed_of_single strtod singleLines,
    delivers.flatten, same]

/-- A stream is read by its lines in every delivery exactly if each byte of
text stands alone: a newline follows before the next text, which is too far
away for the same piece. -/
theorem readByLines_iff (services : Services Bank Double) (strtod : List Byte -> Option Double)
    (bank : Bank) (stream : List Byte) :
    ReadByLines services strtod bank stream ↔ Terminated stream ∧ Spaced stream := by
  constructor
  · intro reads
    exact ⟨terminated_of_commands reads.commands, spaced_of_commands reads.commands⟩
  · rintro ⟨terminated, spaced⟩
    constructor
    · intro pieces delivers
      exact commands_of_alone terminated spaced delivers
    · intro pieces delivers
      rw [handleClient_eq, commands_of_alone terminated spaced delivers]

end Deliveries

example : executed some [ascii "TRANSFER 1 2 1", ascii "00\n"] =
    [.transfer 1 2 (ascii "1"), .unknown] := by
  decide

/-- A transfer of one hundred, cut behind its first digit, moves one. -/
theorem not_readByLines_of_every_stream :
    ¬ forall (services : Services Unit (List Byte)) (stream : List Byte),
      ReadByLines services some () stream := by
  intro always
  let services : Services Unit (List Byte) := {
    getBalance := fun _ bank => (.error "Account not found", bank)
    transfer := fun _ _ _ bank => (.ok (), bank)
    showDouble := fun _ => "" }
  have delivers : Delivers [ascii "TRANSFER 1 2 1", ascii "00\n"] (ascii "TRANSFER 1 2 100\n") :=
    ⟨by decide, by decide, by decide⟩
  have same := (always services (ascii "TRANSFER 1 2 100\n")).commands _ delivers
  exact absurd same (by decide)

end CoreBank
