import Mathlib.Data.List.Basic
import Mathlib.Data.List.Lemmas
import Mathlib.Data.List.Nodup
import Mathlib.Data.List.TakeWhile

namespace CoreBank
namespace Foundation

/-!
# Settings written one after the other

A text names settings as `key = value`, with blanks between them.  A value
stands up to the next blank, or between quotes if it starts with one, and an
escape takes the character after it as it is.

A writer that puts its values into such a text as they are is read back
correctly exactly if no value needs quotes or escapes.  Characters that are
neither blank nor quote nor escape come out of the reader as often as it takes
them in; so a value that is read as itself, from a place behind its first
character, would have to be read from beyond its end, where the next key
stands.
-/

/-- The characters with a meaning of their own. -/
structure KeyValueSyntax (A : Type*) where
  isBlank : A -> Bool
  separator : A
  equals : A
  quote : A
  escape : A
  separator_blank : isBlank separator = true
  equals_solid : isBlank equals = false
  quote_solid : isBlank quote = false
  escape_solid : isBlank escape = false
  quote_ne_escape : quote ≠ escape

namespace KeyValueSyntax

variable {A : Type*} [DecidableEq A] (syn : KeyValueSyntax A)

/-! ## Reading -/

/-- A character that a key goes on with. -/
def inKey (c : A) : Bool :=
  !syn.isBlank c && c ≠ syn.equals

/-- A value up to the next blank, which is taken with it; `escaped` says that
an escape has just been read. -/
def readUnquoted (escaped : Bool) : List A -> List A × List A
  | [] => ([], [])
  | c :: rest =>
      if escaped then (readUnquoted false rest).map (c :: ·) id
      else if syn.isBlank c then ([], rest)
      else if c = syn.escape then readUnquoted true rest
      else (readUnquoted false rest).map (c :: ·) id

/-- A value up to the closing quote, without which the text is refused. -/
def readQuoted (escaped : Bool) : List A -> Option (List A × List A)
  | [] => none
  | c :: rest =>
      if escaped then (readQuoted false rest).map (Prod.map (c :: ·) id)
      else if c = syn.escape then readQuoted true rest
      else if c = syn.quote then some ([], rest)
      else (readQuoted false rest).map (Prod.map (c :: ·) id)

def readValue (text : List A) : Option (List A × List A) :=
  match text.dropWhile syn.isBlank with
  | [] => some ([], [])
  | c :: rest =>
      if c = syn.quote then syn.readQuoted false rest
      else some (syn.readUnquoted false (c :: rest))

/-- One setting, at the start of the text. -/
def readSetting (text : List A) : Option ((List A × List A) × List A) :=
  match (text.dropWhile syn.inKey).dropWhile syn.isBlank with
  | [] => none
  | c :: rest =>
      if c = syn.equals then
        (syn.readValue rest).map fun value => ((text.takeWhile syn.inKey, value.1), value.2)
      else none

/-- The settings that `fuel` rounds of the loop read. -/
def settingsWithin : ℕ -> List A -> Option (List (List A × List A))
  | 0, _ => none
  | fuel + 1, text =>
      match text.dropWhile syn.isBlank with
      | [] => some []
      | c :: rest =>
          (syn.readSetting (c :: rest)).bind fun setting =>
            (settingsWithin fuel setting.2).map (setting.1 :: ·)

/-- The settings of a text.  Every round takes a character, so there are enough
of them. -/
def settings (text : List A) : Option (List (List A × List A)) :=
  syn.settingsWithin (text.length + 1) text

variable {syn}

/-! ## What the reader takes in -/

/-- Neither a blank nor a quote nor an escape. -/
def ordinary (syn : KeyValueSyntax A) (c : A) : Bool :=
  !syn.isBlank c && c ≠ syn.quote && c ≠ syn.escape

/-- The characters that a value may have without an escape, where it stands
without quotes. -/
def Solid (syn : KeyValueSyntax A) (c : A) : Prop :=
  syn.isBlank c = false ∧ c ≠ syn.escape

/-- The second text is what the first one says, if only some characters may
stand there without an escape. -/
inductive Encodes (syn : KeyValueSyntax A) (free : A -> Prop) : List A -> List A -> Prop where
  | done : Encodes syn free [] []
  | itself {c : A} {taken value : List A} (allowed : free c) (more : Encodes syn free taken value) :
      Encodes syn free (c :: taken) (c :: value)
  | escaped (c : A) {taken value : List A} (more : Encodes syn free taken value) :
      Encodes syn free (syn.escape :: c :: taken) (c :: value)

/-- A text that a value can be followed by. -/
def Ends (syn : KeyValueSyntax A) (rest : List A) : Prop :=
  forall c, rest.head? = some c -> syn.ordinary c = false

theorem ordinary_of_blank {c : A} (blank : syn.isBlank c = true) : syn.ordinary c = false := by
  simp [ordinary, blank]

theorem ordinary_quote : syn.ordinary syn.quote = false := by
  simp [ordinary]

theorem ordinary_escape : syn.ordinary syn.escape = false := by
  simp [ordinary]

namespace Encodes

variable {free : A -> Prop} {taken value : List A}

omit [DecidableEq A] in
theorem length_le (encodes : syn.Encodes free taken value) : value.length ≤ taken.length := by
  induction encodes with
  | done => exact Nat.le_refl _
  | itself allowed more ih => exact Nat.succ_le_succ ih
  | escaped c more ih =>
      simp only [List.length_cons]
      omega

omit [DecidableEq A] in
theorem mem (encodes : syn.Encodes free taken value) {c : A} (member : c ∈ value) : c ∈ taken := by
  induction encodes with
  | done => exact member
  | itself allowed more ih =>
      rcases List.mem_cons.mp member with same | later
      · exact List.mem_cons.mpr (.inl same)
      · exact List.mem_cons_of_mem _ (ih later)
  | escaped d more ih =>
      rcases List.mem_cons.mp member with same | later
      · exact List.mem_cons_of_mem _ (List.mem_cons.mpr (.inl same))
      · exact List.mem_cons_of_mem _ (List.mem_cons_of_mem _ (ih later))

/-- An escape is the only character that is lost. -/
theorem filter_ordinary (encodes : syn.Encodes free taken value) :
    taken.filter syn.ordinary = value.filter syn.ordinary := by
  induction encodes with
  | done => rfl
  | itself allowed more ih => rw [List.filter_cons, List.filter_cons, ih]
  | escaped c more ih =>
      rw [List.filter_cons_of_neg (by rw [ordinary_escape]; exact Bool.false_ne_true),
        List.filter_cons, List.filter_cons, ih]

omit [DecidableEq A] in
/-- Without a loss of length nothing has been escaped. -/
theorem free_of_length_le (encodes : syn.Encodes free taken value)
    (whole : taken.length ≤ value.length) : forall c, c ∈ value -> free c := by
  induction encodes with
  | done => exact fun c member => absurd member List.not_mem_nil
  | itself allowed more ih =>
      intro c member
      rcases List.mem_cons.mp member with same | later
      · rw [same]
        exact allowed
      · exact ih (Nat.le_of_succ_le_succ whole) c later
  | escaped d more ih =>
      have shorter := more.length_le
      simp only [List.length_cons] at whole
      omega

/-- What encodes the same ordinary characters as some text, and starts like it
in front of a blank and an ordinary character, ends within it. -/
theorem length_le_of_filter_eq (encodes : syn.Encodes free taken value)
    {rest text following : List A} {first : A} (ends : syn.Ends rest)
    (next : syn.ordinary first = true)
    (split : taken ++ rest = text ++ syn.separator :: first :: following)
    (same : value.filter syn.ordinary = text.filter syn.ordinary) :
    taken.length ≤ text.length := by
  rcases List.append_eq_append_iff.mp split with ⟨missing, before, _⟩ | ⟨beyond, after, tail⟩
  · rw [before, List.length_append]
    omega
  · have none : beyond.filter syn.ordinary = [] := by
      have both := encodes.filter_ordinary
      rw [after, List.filter_append, same] at both
      exact List.append_right_eq_self.mp both
    rw [List.filter_eq_nil_iff] at none
    cases beyond with
    | nil =>
        rw [after, List.append_nil]
    | cons blank more =>
        rw [List.cons_append, List.cons.injEq] at tail
        cases more with
        | nil =>
            have stopped := ends first (by rw [← List.nil_append rest, ← tail.2]; rfl)
            rw [next] at stopped
            cases stopped
        | cons head others =>
            rw [List.cons_append, List.cons.injEq] at tail
            have member : first ∈ blank :: head :: others := by
              rw [tail.2.1]
              exact List.mem_cons_of_mem _ List.mem_cons_self
            exact absurd next (none first member)

end Encodes

/-! ## Readers of values -/

/-- The value has been taken from the start of the text, up to something that
a value can be followed by, and the end of the text is left. -/
def Consumes (syn : KeyValueSyntax A) (free : A -> Prop) (text value left : List A) : Prop :=
  Exists fun taken => Exists fun rest =>
    syn.Encodes free taken value ∧ text = taken ++ rest ∧ syn.Ends rest ∧ left <:+ rest

namespace Consumes

variable {free : A -> Prop} {text value left : List A}

theorem empty : syn.Consumes free [] [] [] :=
  ⟨[], [], .done, rfl, fun c impossible => (by cases impossible), List.nil_suffix⟩

theorem stop {c : A} (special : syn.ordinary c = false) : syn.Consumes free (c :: left) [] left := by
  refine ⟨[], c :: left, .done, rfl, ?_, List.suffix_cons c left⟩
  intro d head
  cases head
  exact special

theorem dangling : syn.Consumes free [syn.escape] [] [] := by
  refine ⟨[], [syn.escape], .done, rfl, ?_, List.nil_suffix⟩
  intro d head
  cases head
  exact ordinary_escape

theorem itself {c : A} (allowed : free c) (consumes : syn.Consumes free text value left) :
    syn.Consumes free (c :: text) (c :: value) left := by
  rcases consumes with ⟨taken, rest, encodes, split, ends, suffix⟩
  exact ⟨c :: taken, rest, .itself allowed encodes, congrArg (c :: ·) split, ends, suffix⟩

theorem escaped (c : A) (consumes : syn.Consumes free text value left) :
    syn.Consumes free (syn.escape :: c :: text) (c :: value) left := by
  rcases consumes with ⟨taken, rest, encodes, split, ends, suffix⟩
  exact ⟨syn.escape :: c :: taken, rest, .escaped c encodes,
    congrArg (fun more => syn.escape :: c :: more) split, ends, suffix⟩

theorem suffix (consumes : syn.Consumes free text value left) : left <:+ text := by
  rcases consumes with ⟨taken, rest, _, split, _, suffix⟩
  exact suffix.trans ⟨taken, split.symm⟩

theorem mem (consumes : syn.Consumes free text value left) {c : A} (member : c ∈ value) :
    c ∈ text := by
  rcases consumes with ⟨taken, rest, encodes, split, _, _⟩
  rw [split]
  exact List.mem_append_left rest (encodes.mem member)

/-- A value with the ordinary characters of a text that is followed by a blank
and an ordinary character is no longer than the text, and as long only if
nothing in it has been escaped. -/
theorem within {first : A} {following : List A}
    (consumes : syn.Consumes free (text ++ syn.separator :: first :: following) value left)
    (next : syn.ordinary first = true)
    (same : value.filter syn.ordinary = text.filter syn.ordinary) :
    value.length ≤ text.length ∧ (text.length ≤ value.length -> forall c, c ∈ value -> free c) := by
  rcases consumes with ⟨taken, rest, encodes, split, ends, _⟩
  have short := encodes.length_le_of_filter_eq ends next split.symm same
  exact ⟨encodes.length_le.trans short, fun whole => encodes.free_of_length_le (short.trans whole)⟩

end Consumes

theorem readUnquoted_escape (text : List A) :
    syn.readUnquoted false (syn.escape :: text) = syn.readUnquoted true text := by
  simp only [readUnquoted, if_true, if_false, Bool.false_eq_true, syn.escape_solid]

theorem readUnquoted_cons {c : A} (solid : syn.Solid c) (text : List A) :
    syn.readUnquoted false (c :: text) = (syn.readUnquoted false text).map (c :: ·) id := by
  simp only [readUnquoted, solid.1, solid.2, if_false, Bool.false_eq_true]

variable (syn) in
theorem readUnquoted_spec (escaped : Bool) (text : List A) :
    syn.Consumes syn.Solid ((if escaped then [syn.escape] else []) ++ text)
      (syn.readUnquoted escaped text).1 (syn.readUnquoted escaped text).2 := by
  induction text generalizing escaped with
  | nil =>
      cases escaped with
      | false => exact .empty
      | true => exact .dangling
  | cons c text ih =>
      cases escaped with
      | true => exact (ih false).escaped c
      | false =>
          by_cases blank : syn.isBlank c = true
          · simp only [readUnquoted, blank, if_true]
            exact .stop (ordinary_of_blank blank)
          by_cases escape : c = syn.escape
          · rw [escape, readUnquoted_escape]
            exact ih true
          · have solid : syn.Solid c := ⟨Bool.eq_false_iff.mpr blank, escape⟩
            rw [readUnquoted_cons solid]
            exact (ih false).itself solid

theorem readQuoted_spec {escaped : Bool} {text value left : List A}
    (read : syn.readQuoted escaped text = some (value, left)) :
    syn.Consumes (fun c => c ≠ syn.quote ∧ c ≠ syn.escape)
      ((if escaped then [syn.escape] else []) ++ text) value left := by
  induction text generalizing escaped value with
  | nil => cases read
  | cons c text ih =>
      cases escaped with
      | true =>
          rcases Option.map_eq_some_iff.mp read with ⟨⟨more, after⟩, later, same⟩
          cases same
          exact (ih later).escaped c
      | false =>
          rw [readQuoted, if_neg Bool.false_ne_true] at read
          split_ifs at read with escape quote
          · rw [escape]
            exact ih read
          · cases read
            exact .stop (quote ▸ ordinary_quote)
          · rcases Option.map_eq_some_iff.mp read with ⟨⟨more, after⟩, later, same⟩
            cases same
            exact (ih later).itself ⟨quote, escape⟩

/-! ## One setting -/

/-- Reading a value takes its characters from the text and leaves the end of
the text. -/
theorem readValue_spec {text value left : List A} (read : syn.readValue text = some (value, left)) :
    left <:+ text ∧ forall c, c ∈ value -> c ∈ text := by
  have within := List.dropWhile_suffix (l := text) syn.isBlank
  rw [readValue] at read
  split at read
  next empty =>
    cases read
    exact ⟨List.nil_suffix, fun c inside => absurd inside List.not_mem_nil⟩
  next c rest found =>
    rw [found] at within
    split_ifs at read with quote
    · have consumes := readQuoted_spec read
      have behind := (List.suffix_cons c rest).trans within
      exact ⟨consumes.suffix.trans behind, fun d inside => behind.subset (consumes.mem inside)⟩
    · have consumes := syn.readUnquoted_spec false (c :: rest)
      rw [Option.some.inj read] at consumes
      exact ⟨consumes.suffix.trans within, fun d inside => within.subset (consumes.mem inside)⟩

theorem readSetting_spec {text key value left : List A}
    (read : syn.readSetting text = some ((key, value), left)) :
    left.length < text.length ∧ left <:+ text ∧ forall c, c ∈ value -> c ∈ text := by
  have within := (List.dropWhile_suffix (l := text.dropWhile syn.inKey) syn.isBlank).trans
    (List.dropWhile_suffix (l := text) syn.inKey)
  rw [readSetting] at read
  split at read
  next empty => cases read
  next c rest found =>
    rw [found] at within
    split_ifs at read with equals
    rcases Option.map_eq_some_iff.mp read with ⟨⟨other, after⟩, readRest, same⟩
    cases same
    rcases readValue_spec readRest with ⟨suffix, member⟩
    have short : after.length ≤ rest.length := suffix.length_le
    have long := within.length_le
    rw [List.length_cons] at long
    exact ⟨Nat.lt_of_le_of_lt short long, (suffix.trans (List.suffix_cons c rest)).trans within,
      fun d inside => within.subset (List.mem_cons_of_mem _ (member d inside))⟩

theorem settingsWithin_eq {fuel more : ℕ} {text : List A} (enough : text.length < fuel)
    (also : text.length < more) : syn.settingsWithin fuel text = syn.settingsWithin more text := by
  induction fuel generalizing more text with
  | zero => cases enough
  | succ fuel ih =>
      cases more with
      | zero => cases also
      | succ more =>
          have long := (List.dropWhile_suffix (l := text) syn.isBlank).length_le
          simp only [settingsWithin]
          split
          next => rfl
          next c rest found =>
            rw [found] at long
            refine Option.bind_congr fun setting read => ?_
            have short : setting.2.length < (c :: rest).length := (readSetting_spec read).1
            have same : syn.settingsWithin fuel setting.2 = syn.settingsWithin more setting.2 :=
              ih (by omega) (by omega)
            rw [same]

/-- One round of the loop. -/
theorem settings_eq (text : List A) : syn.settings text =
    match text.dropWhile syn.isBlank with
    | [] => some []
    | c :: rest =>
        (syn.readSetting (c :: rest)).bind fun setting =>
          (syn.settings setting.2).map (setting.1 :: ·) := by
  have long := (List.dropWhile_suffix (l := text) syn.isBlank).length_le
  rw [settings, settingsWithin]
  split
  next => rfl
  next c rest found =>
    rw [found] at long
    refine Option.bind_congr fun setting read => ?_
    have short : setting.2.length < (c :: rest).length := (readSetting_spec read).1
    have enough : setting.2.length < text.length := by omega
    rw [settings, settingsWithin_eq enough (Nat.lt_succ_self _)]

theorem mem_of_settingsWithin {fuel : ℕ} {text : List A} {found : List (List A × List A)}
    (read : syn.settingsWithin fuel text = some found) {setting : List A × List A}
    (member : setting ∈ found) {c : A} (inside : c ∈ setting.2) : c ∈ text := by
  induction fuel generalizing text found with
  | zero => cases read
  | succ fuel ih =>
      have within := List.dropWhile_suffix (l := text) syn.isBlank
      rw [settingsWithin] at read
      split at read
      next empty =>
        cases read
        cases member
      next d rest remaining =>
        rw [remaining] at within
        rcases Option.bind_eq_some_iff.mp read with ⟨⟨⟨key, value⟩, left⟩, one, others⟩
        rcases Option.map_eq_some_iff.mp others with ⟨later, readLater, same⟩
        rcases readSetting_spec one with ⟨_, suffix, fromText⟩
        apply within.subset
        rw [← same] at member
        rcases List.mem_cons.mp member with first | later
        · rw [first] at inside
          exact fromText c inside
        · exact suffix.subset (ih readLater later)

/-- The values consist of characters of the text. -/
theorem mem_of_settings {text : List A} {found : List (List A × List A)}
    (read : syn.settings text = some found) {setting : List A × List A} (member : setting ∈ found)
    {c : A} (inside : c ∈ setting.2) : c ∈ text :=
  mem_of_settingsWithin read member inside

/-! ## Values as they are -/

/-- A value that needs neither quotes nor escapes. -/
structure Plain (syn : KeyValueSyntax A) (value : List A) : Prop where
  filled : value ≠ []
  solid : forall c, c ∈ value -> syn.Solid c
  unquoted : value.head? ≠ some syn.quote

/-- What may follow a value, and what the reader then leaves. -/
def Follows (syn : KeyValueSyntax A) (tail rest : List A) : Prop :=
  tail = [] ∧ rest = [] ∨ tail = syn.separator :: rest

theorem readUnquoted_solid {value tail rest : List A} (solid : forall c, c ∈ value -> syn.Solid c)
    (follows : syn.Follows tail rest) : syn.readUnquoted false (value ++ tail) = (value, rest) := by
  induction value with
  | nil =>
      rcases follows with ⟨noTail, noRest⟩ | more
      · rw [noTail, noRest]
        rfl
      · rw [more, List.nil_append]
        simp only [readUnquoted, syn.separator_blank, if_true, Bool.false_eq_true, if_false]
  | cons c value ih =>
      rw [List.cons_append, readUnquoted_cons (solid c List.mem_cons_self),
        ih fun d member => solid d (List.mem_cons_of_mem _ member)]
      rfl

theorem readValue_plain {value tail rest : List A} (plain : syn.Plain value)
    (follows : syn.Follows tail rest) : syn.readValue (value ++ tail) = some (value, rest) := by
  cases value with
  | nil => exact absurd rfl plain.filled
  | cons c value =>
      have blank := (plain.solid c List.mem_cons_self).1
      have quote : c ≠ syn.quote := fun same => plain.unquoted (congrArg some same)
      have start : (c :: value ++ tail).dropWhile syn.isBlank = c :: (value ++ tail) :=
        List.dropWhile_cons_of_neg (by rw [blank]; exact Bool.false_ne_true)
      rw [readValue, start]
      simp only [quote, if_false]
      rw [← List.cons_append, readUnquoted_solid plain.solid follows]

theorem filter_ordinary_of_blank {blanks : List A}
    (blank : forall c, c ∈ blanks -> syn.isBlank c = true) :
    blanks.filter syn.ordinary = [] := by
  rw [List.filter_eq_nil_iff]
  intro c member
  rw [ordinary_of_blank (blank c member)]
  exact Bool.false_ne_true

/-- A value of nothing but blanks is never read as itself in front of an
ordinary character. -/
theorem readValue_blank_ne {value left following : List A} {first : A}
    (next : syn.ordinary first = true) (blank : value.dropWhile syn.isBlank = []) :
    syn.readValue (value ++ syn.separator :: first :: following) ≠ some (value, left) := by
  intro read
  have parts : (syn.isBlank first = false ∧ first ≠ syn.quote) ∧ first ≠ syn.escape := by
    simpa [ordinary] using next
  have start : (value ++ syn.separator :: first :: following).dropWhile syn.isBlank =
      first :: following := by
    rw [List.dropWhile_append, blank]
    simp [syn.separator_blank, parts.1.1]
  rw [readValue, start] at read
  simp only [parts.1.2, if_false, readUnquoted, parts.1.1, parts.2, Bool.false_eq_true] at read
  have same : first :: (syn.readUnquoted false following).1 = value :=
    congrArg Prod.fst (Option.some.inj read)
  have member : first ∈ value := by
    rw [← same]
    exact List.mem_cons_self
  have blankFirst := List.dropWhile_eq_nil_iff.mp blank first member
  rw [parts.1.1] at blankFirst
  cases blankFirst

/-- Behind a quote a value that ends in a text is never the whole text with the
quote in front of it. -/
theorem not_readQuoted_quote {blanks text left following : List A} {first : A}
    (next : syn.ordinary first = true) (blank : blanks.filter syn.ordinary = []) :
    syn.readQuoted false (text ++ syn.separator :: first :: following) ≠
      some (blanks ++ syn.quote :: text, left) := by
  intro read
  have same : (blanks ++ syn.quote :: text).filter syn.ordinary = text.filter syn.ordinary := by
    rw [List.filter_append, blank, List.nil_append, List.filter_cons_of_neg]
    rw [ordinary_quote]
    exact Bool.false_ne_true
  have short := ((readQuoted_spec read).within next same).1
  rw [List.length_append, List.length_cons] at short
  omega

/-- Without quotes a value that ends in a text is the text, and plain. -/
theorem eq_nil_of_readUnquoted {blanks text left following : List A} {first : A}
    (next : syn.ordinary first = true) (blank : blanks.filter syn.ordinary = [])
    (read : syn.readUnquoted false (text ++ syn.separator :: first :: following) =
      (blanks ++ text, left)) :
    blanks = [] ∧ forall c, c ∈ text -> syn.Solid c := by
  have same : (blanks ++ text).filter syn.ordinary = text.filter syn.ordinary := by
    rw [List.filter_append, blank, List.nil_append]
  have consumes := syn.readUnquoted_spec false (text ++ syn.separator :: first :: following)
  rw [read] at consumes
  rcases consumes.within next same with ⟨short, solid⟩
  rw [List.length_append] at short solid
  have none : blanks = [] := List.eq_nil_of_length_eq_zero (by omega)
  refine ⟨none, fun c member => solid (by omega) c ?_⟩
  rw [none]
  exact member

/-- A value that is read as itself in front of a blank and an ordinary
character needs neither quotes nor escapes. -/
theorem plain_of_readValue {value left following : List A} {first : A}
    (next : syn.ordinary first = true)
    (read : syn.readValue (value ++ syn.separator :: first :: following) = some (value, left)) :
    syn.Plain value := by
  have whole := List.takeWhile_append_dropWhile (p := syn.isBlank) (l := value)
  have blank : (value.takeWhile syn.isBlank).filter syn.ordinary = [] :=
    filter_ordinary_of_blank fun c member => List.mem_takeWhile_imp member
  cases stop : value.dropWhile syn.isBlank with
  | nil => exact absurd read (readValue_blank_ne next stop)
  | cons c more =>
      have start : (value ++ syn.separator :: first :: following).dropWhile syn.isBlank =
          c :: more ++ syn.separator :: first :: following := by
        rw [List.dropWhile_append, stop]
        rfl
      rw [stop] at whole
      rw [readValue, start, List.cons_append] at read
      by_cases quote : c = syn.quote
      · simp only [quote, if_true] at read
        rw [← whole, quote] at read
        exact absurd read (not_readQuoted_quote next blank)
      · simp only [quote, if_false] at read
        rw [← whole] at read
        have parts : value.takeWhile syn.isBlank = [] ∧ forall d, d ∈ c :: more -> syn.Solid d :=
          eq_nil_of_readUnquoted next blank (Option.some.inj read)
        rcases parts with ⟨none, solid⟩
        rw [none, List.nil_append] at whole
        rw [← whole]
        exact ⟨List.cons_ne_nil c more, solid, fun same => quote (Option.some.inj same)⟩

/-! ## A line of settings -/

/-- A setting as it is written, and the value that is meant. -/
structure Entry (A : Type*) where
  key : List A
  written : List A
  meant : List A

/-- A word that the reader takes as a key. -/
structure IsKey (syn : KeyValueSyntax A) (key : List A) : Prop where
  filled : key ≠ []
  plain : forall c, c ∈ key -> syn.ordinary c = true ∧ c ≠ syn.equals

def entryText (syn : KeyValueSyntax A) (entry : Entry A) : List A :=
  entry.key ++ syn.equals :: entry.written

/-- The entries with a blank between each two of them. -/
def line (syn : KeyValueSyntax A) : List (Entry A) -> List A
  | [] => []
  | [entry] => syn.entryText entry
  | entry :: next :: more => syn.entryText entry ++ syn.separator :: line syn (next :: more)

theorem IsKey.inKey {key : List A} (isKey : syn.IsKey key) :
    forall c, c ∈ key -> syn.inKey c = true := by
  intro c member
  rcases isKey.plain c member with ⟨plain, equals⟩
  have solid : syn.isBlank c = false := by
    cases blank : syn.isBlank c with
    | false => rfl
    | true =>
        rw [ordinary_of_blank blank] at plain
        cases plain
  simp [KeyValueSyntax.inKey, solid, equals]

/-- A key at the start of a text is followed by its value. -/
theorem settings_key {key : List A} (isKey : syn.IsKey key) (rest : List A) :
    syn.settings (key ++ syn.equals :: rest) =
      (syn.readValue rest).bind fun value =>
        (syn.settings value.2).map ((key, value.1) :: ·) := by
  have stop : syn.inKey syn.equals = false := by simp [inKey]
  have taken : (key ++ syn.equals :: rest).takeWhile syn.inKey = key := by
    rw [List.takeWhile_append_of_pos isKey.inKey, List.takeWhile_cons_of_neg (by simp [stop]),
      List.append_nil]
  have left : ((key ++ syn.equals :: rest).dropWhile syn.inKey).dropWhile syn.isBlank =
      syn.equals :: rest := by
    rw [List.dropWhile_append_of_pos isKey.inKey, List.dropWhile_cons_of_neg (by simp [stop]),
      List.dropWhile_cons_of_neg (by simp [syn.equals_solid])]
  cases key with
  | nil => exact absurd rfl isKey.filled
  | cons c key =>
      have solid := isKey.inKey c List.mem_cons_self
      have start : (c :: key ++ syn.equals :: rest).dropWhile syn.isBlank =
          c :: (key ++ syn.equals :: rest) := by
        refine List.dropWhile_cons_of_neg fun blank => ?_
        simp [inKey, blank] at solid
      rw [settings_eq, start]
      simp only
      rw [← List.cons_append, readSetting, left, taken]
      simp only [if_true, Option.bind_map]
      rfl

theorem settings_nil : syn.settings [] = some [] :=
  rfl

variable (syn) in
omit [DecidableEq A] in
/-- What stands behind the value of the first entry. -/
theorem line_cons (entry : Entry A) (more : List (Entry A)) : Exists fun tail =>
    syn.line (entry :: more) = entry.key ++ syn.equals :: (entry.written ++ tail) ∧
    syn.Follows tail (syn.line more) := by
  cases more with
  | nil =>
      refine ⟨[], ?_, .inl ⟨rfl, rfl⟩⟩
      rw [List.append_nil]
      rfl
  | cons next more =>
      refine ⟨syn.separator :: syn.line (next :: more), ?_, .inr rfl⟩
      simp only [line, entryText, List.append_assoc, List.cons_append]

omit [DecidableEq A] in
/-- A line has the characters of its parts. -/
theorem mem_line {entries : List (Entry A)} {c : A} (member : c ∈ syn.line entries) :
    c = syn.separator ∨ c = syn.equals ∨
      Exists fun entry => entry ∈ entries ∧ (c ∈ entry.key ∨ c ∈ entry.written) := by
  induction entries with
  | nil => cases member
  | cons entry more ih =>
      have here : (c ∈ entry.key ∨ c ∈ entry.written) -> c = syn.separator ∨ c = syn.equals ∨
          Exists fun other => other ∈ entry :: more ∧ (c ∈ other.key ∨ c ∈ other.written) :=
        fun inside => .inr (.inr ⟨entry, List.mem_cons_self, inside⟩)
      rcases syn.line_cons entry more with ⟨tail, text, follows⟩
      rw [text] at member
      rcases List.mem_append.mp member with key | behind
      · exact here (.inl key)
      rcases List.mem_cons.mp behind with equals | behind
      · exact .inr (.inl equals)
      rcases List.mem_append.mp behind with written | behind
      · exact here (.inr written)
      rcases follows with ⟨noTail, _⟩ | goesOn
      · rw [noTail] at behind
        cases behind
      · rw [goesOn] at behind
        rcases List.mem_cons.mp behind with blank | later
        · exact .inl blank
        rcases ih later with blank | equals | ⟨other, known, inside⟩
        · exact .inl blank
        · exact .inr (.inl equals)
        · exact .inr (.inr ⟨other, List.mem_cons_of_mem _ known, inside⟩)

/-- Entries with plain values are read back. -/
theorem settings_line {entries : List (Entry A)}
    (keys : forall entry, entry ∈ entries -> syn.IsKey entry.key)
    (plain : forall entry, entry ∈ entries -> syn.Plain entry.written) :
    syn.settings (syn.line entries) =
      some (entries.map fun entry => (entry.key, entry.written)) := by
  induction entries with
  | nil => exact settings_nil
  | cons entry more ih =>
      rcases syn.line_cons entry more with ⟨tail, text, follows⟩
      have later := ih (fun other member => keys other (List.mem_cons_of_mem _ member))
        (fun other member => plain other (List.mem_cons_of_mem _ member))
      rw [text, settings_key (keys entry List.mem_cons_self),
        readValue_plain (plain entry List.mem_cons_self) follows, Option.bind_some, later]
      rfl

/-- The value of the first entry is plain if it is read as it is written, and if
it is plain where it is the last one. -/
theorem plain_of_first {entry : Entry A} {more : List (Entry A)} {tail left : List A}
    (keys : forall next, next ∈ more -> syn.IsKey next.key) (follows : syn.Follows tail (syn.line more))
    (last : more = [] -> syn.Plain entry.written)
    (read : syn.readValue (entry.written ++ tail) = some (entry.written, left)) :
    syn.Plain entry.written := by
  cases more with
  | nil => exact last rfl
  | cons next more =>
      have isKey := keys next List.mem_cons_self
      rcases syn.line_cons next more with ⟨nextTail, nextText, _⟩
      rcases follows with ⟨_, noMore⟩ | goesOn
      · rw [nextText] at noMore
        exact absurd noMore (by simp)
      · cases head : next.key with
        | nil => exact absurd head isKey.filled
        | cons first others =>
            have ordinary := (isKey.plain first (by rw [head]; exact List.mem_cons_self)).1
            rw [goesOn, nextText, head] at read
            exact plain_of_readValue ordinary read

/-- If nothing is read but what is meant, the entries have been written plainly
and as they are meant. -/
theorem plain_of_settings_line {entries : List (Entry A)}
    {found : List (List A × List A)} (wanted : List A -> List A -> Prop)
    (keys : forall entry, entry ∈ entries -> syn.IsKey entry.key)
    (written : forall entry, entry ∈ entries ->
      entry.written = entry.meant ∨ syn.Plain entry.written)
    (last : forall entry, entries.getLast? = some entry -> syn.Plain entry.written)
    (only : forall entry, entry ∈ entries -> forall value, wanted entry.key value ->
      value = entry.meant)
    (read : syn.settings (syn.line entries) = some found)
    (inside : forall setting, setting ∈ found -> wanted setting.1 setting.2) :
    forall entry, entry ∈ entries -> syn.Plain entry.written ∧ entry.written = entry.meant := by
  induction entries generalizing found with
  | nil => exact fun entry member => absurd member List.not_mem_nil
  | cons entry more ih =>
      rcases syn.line_cons entry more with ⟨tail, text, follows⟩
      rw [text, settings_key (keys entry List.mem_cons_self)] at read
      rcases Option.bind_eq_some_iff.mp read with ⟨⟨value, left⟩, one, others⟩
      rcases Option.map_eq_some_iff.mp others with ⟨later, readLater, same⟩
      have meant : value = entry.meant := by
        apply only entry List.mem_cons_self
        apply inside (entry.key, value)
        rw [← same]
        exact List.mem_cons_self
      have plain : syn.Plain entry.written := by
        rcases written entry List.mem_cons_self with asMeant | plain
        · rw [meant, ← asMeant] at one
          refine plain_of_first (fun next member => keys next (List.mem_cons_of_mem _ member)) follows
            (fun noMore => last entry ?_) one
          rw [noMore]
          rfl
        · exact plain
      have asIs := readValue_plain plain follows
      rw [one, Option.some.injEq, Prod.mk.injEq] at asIs
      rw [asIs.2] at readLater
      intro other member
      rcases List.mem_cons.mp member with first | later
      · rw [first]
        exact ⟨plain, asIs.1.symm.trans meant⟩
      · refine ih (fun other member => keys other (List.mem_cons_of_mem _ member))
          (fun other member => written other (List.mem_cons_of_mem _ member)) ?_
          (fun other member => only other (List.mem_cons_of_mem _ member)) readLater ?_ other later
        · intro final isLast
          apply last final
          cases more with
          | nil => cases isLast
          | cons next more => exact isLast
        · intro setting known
          apply inside
          rw [← same]
          exact List.mem_cons_of_mem _ known

/-- A line is read back as what is meant exactly if its values are plain and
written as they are meant. -/
theorem settings_line_perm_iff {entries : List (Entry A)}
    (keys : forall entry, entry ∈ entries -> syn.IsKey entry.key)
    (distinct : (entries.map Entry.key).Nodup)
    (written : forall entry, entry ∈ entries ->
      entry.written = entry.meant ∨ syn.Plain entry.written)
    (last : forall entry, entries.getLast? = some entry -> syn.Plain entry.written) :
    (Exists fun found => syn.settings (syn.line entries) = some found ∧
      found.Perm (entries.map fun entry => (entry.key, entry.meant))) ↔
    forall entry, entry ∈ entries -> syn.Plain entry.written ∧ entry.written = entry.meant := by
  constructor
  · rintro ⟨found, read, perm⟩
    refine plain_of_settings_line
      (fun key value => (key, value) ∈ entries.map fun entry => (entry.key, entry.meant))
      keys written last ?_ read fun setting member => perm.mem_iff.mp member
    intro entry member value wanted
    rcases List.mem_map.mp wanted with ⟨other, known, same⟩
    rw [Prod.mk.injEq] at same
    have equal := List.inj_on_of_nodup_map distinct known member same.1
    rw [← same.2, equal]
  · intro all
    refine ⟨_, settings_line keys fun entry member => (all entry member).1, ?_⟩
    have same : entries.map (fun entry => (entry.key, entry.written)) =
        entries.map fun entry => (entry.key, entry.meant) :=
      List.map_congr_left fun entry member => by rw [(all entry member).2]
    rw [same]

end KeyValueSyntax
end Foundation
end CoreBank
