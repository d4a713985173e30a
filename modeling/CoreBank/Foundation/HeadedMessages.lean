import Mathlib.Data.List.Infix

namespace CoreBank
namespace Foundation

/-!
# Messages with a head

A message has lines that end with two symbols, an empty line behind them, and a
body.  The lines say how long the body is.  A reader of a stream needs nothing
else: it finds the end of what a writer has written whatever follows, and finds
no message at all in a part of it.
-/

structure MessageSyntax (Symbol : Type*) where
  carriageReturn : Symbol
  lineFeed : Symbol
  bodyLength : List (List Symbol) -> Option ℕ

namespace MessageSyntax

variable {Symbol : Type*} [DecidableEq Symbol] (format : MessageSyntax Symbol)

/-- The end of a line. -/
def lineEnd : List Symbol :=
  [format.carriageReturn, format.lineFeed]

def write (lines : List (List Symbol)) (body : List Symbol) : List Symbol :=
  lines.flatMap (fun line => line ++ format.lineEnd) ++ format.lineEnd ++ body

/-- The lines up to the first empty one, with what follows it; `line` is the
line so far. -/
def readHead (line : List Symbol) : List Symbol -> Option (List (List Symbol) × List Symbol)
  | [] => none
  | symbol :: rest =>
      if symbol = format.lineFeed ∧ line.getLast? = some format.carriageReturn then
        if line = [format.carriageReturn] then some ([], rest)
        else (readHead [] rest).map fun (lines, body) => (line.dropLast :: lines, body)
      else readHead (line ++ [symbol]) rest

/-- The body behind its lines. -/
def takeBody (lines : List (List Symbol)) (rest : List Symbol) :
    Option (List (List Symbol) × List Symbol × List Symbol) :=
  (format.bodyLength lines).bind fun length =>
    if length ≤ rest.length then some (lines, rest.take length, rest.drop length) else none

/-- The lines, the body, and what follows the message. -/
def read (text : List Symbol) : Option (List (List Symbol) × List Symbol × List Symbol) :=
  (format.readHead [] text).bind fun head => format.takeBody head.1 head.2

/-! ## More of a stream -/

variable {format}

theorem readHead_append {line text rest : List Symbol} {lines : List (List Symbol)}
    (found : format.readHead line text = some (lines, rest)) (more : List Symbol) :
    format.readHead line (text ++ more) = some (lines, rest ++ more) := by
  induction text generalizing line lines with
  | nil => cases found
  | cons symbol text inductionHypothesis =>
      rw [readHead] at found
      rw [List.cons_append, readHead]
      split_ifs at found ⊢ with ends empty
      · cases found
        rfl
      · rcases Option.map_eq_some_iff.mp found with ⟨⟨others, after⟩, further, same⟩
        cases same
        rw [inductionHypothesis further]
        rfl
      · exact inductionHypothesis found

/-- A message that has been read is read again when more of the stream is there. -/
theorem read_append {text body rest : List Symbol} {lines : List (List Symbol)}
    (found : format.read text = some (lines, body, rest)) (more : List Symbol) :
    format.read (text ++ more) = some (lines, body, rest ++ more) := by
  rcases Option.bind_eq_some_iff.mp found with ⟨⟨head, after⟩, headRead, taken⟩
  rcases Option.bind_eq_some_iff.mp taken with ⟨length, given, cut⟩
  split_ifs at cut with enough
  cases cut
  have longer : length ≤ (after ++ more).length := by
    rw [List.length_append]
    exact Nat.le_add_right_of_le enough
  rw [read, readHead_append headRead, Option.bind_some, takeBody, given, Option.bind_some, if_pos longer,
    List.take_append_of_le_length enough, List.drop_append_of_le_length enough]

/-! ## Round trips -/

/-- Lines that can be told apart: none is empty or has a line feed in it. -/
def AreLines (format : MessageSyntax Symbol) (lines : List (List Symbol)) : Prop :=
  forall line, line ∈ lines -> line ≠ [] ∧ format.lineFeed ∉ line

theorem readHead_lineEnd (distinct : format.carriageReturn ≠ format.lineFeed) (line text : List Symbol) :
    format.readHead line (format.lineEnd ++ text) =
      if line = [] then some ([], text)
      else (format.readHead [] text).map fun (lines, body) => (line :: lines, body) := by
  rw [lineEnd, List.cons_append, readHead, if_neg (fun ends => distinct ends.1), List.cons_append, readHead,
    List.nil_append]
  rw [if_pos ⟨rfl, List.getLast?_concat⟩]
  by_cases empty : line = []
  · rw [if_pos empty, empty, List.nil_append, if_pos rfl]
  · have longer : line ++ [format.carriageReturn] ≠ [format.carriageReturn] := by
      intro same
      exact empty (List.append_left_eq_self.mp same)
    rw [if_neg longer, if_neg empty, List.dropLast_concat]

theorem readHead_solid {solid : List Symbol} (noFeed : format.lineFeed ∉ solid) (line text : List Symbol) :
    format.readHead line (solid ++ text) = format.readHead (line ++ solid) text := by
  induction solid generalizing line with
  | nil => rw [List.nil_append, List.append_nil]
  | cons symbol solid inductionHypothesis =>
      rcases not_or.mp (mt List.mem_cons.mpr noFeed) with ⟨other, rest⟩
      rw [List.cons_append, readHead, if_neg fun ends => other ends.1.symm, inductionHypothesis rest,
        List.append_assoc, List.singleton_append]

theorem readHead_write (distinct : format.carriageReturn ≠ format.lineFeed)
    {lines : List (List Symbol)} (areLines : format.AreLines lines) (body : List Symbol) :
    format.readHead [] (format.write lines body) = some (lines, body) := by
  induction lines with
  | nil =>
      rw [write, List.flatMap_nil, List.nil_append, readHead_lineEnd distinct, if_pos rfl]
  | cons line lines inductionHypothesis =>
      have own := areLines line List.mem_cons_self
      have rest := inductionHypothesis fun other member => areLines other (List.mem_cons_of_mem line member)
      have split : format.write (line :: lines) body =
          line ++ (format.lineEnd ++ format.write lines body) := by
        simp only [write, List.flatMap_cons, List.append_assoc]
      rw [split, readHead_solid own.2, List.nil_append, readHead_lineEnd distinct, if_neg own.1, rest]
      rfl

/-- What is written is read, with anything behind it. -/
theorem read_write (distinct : format.carriageReturn ≠ format.lineFeed) {lines : List (List Symbol)}
    (areLines : format.AreLines lines) {body : List Symbol}
    (length : format.bodyLength lines = some body.length) (more : List Symbol) :
    format.read (format.write lines body ++ more) = some (lines, body, more) := by
  have whole : format.read (format.write lines body) = some (lines, body, []) := by
    rw [read, readHead_write distinct areLines, Option.bind_some, takeBody, length, Option.bind_some,
      if_pos (le_refl _), List.take_length, List.drop_length]
  exact read_append whole more

/-- A part of what is written is no message. -/
theorem read_part (distinct : format.carriageReturn ≠ format.lineFeed) {lines : List (List Symbol)}
    (areLines : format.AreLines lines) {body : List Symbol}
    (length : format.bodyLength lines = some body.length) {part : List Symbol}
    (isPart : part <+: format.write lines body) (proper : part ≠ format.write lines body) :
    format.read part = none := by
  rcases isPart with ⟨missing, completes⟩
  cases found : format.read part with
  | none => rfl
  | some message =>
      rcases message with ⟨head, text, rest⟩
      have whole := read_append found missing
      have written := read_write distinct areLines length []
      rw [List.append_nil, ← completes, whole] at written
      have nothing : rest ++ missing = [] := by
        simpa using (Prod.mk.inj (Prod.mk.inj (Option.some.inj written)).2).2
      rw [(List.append_eq_nil_iff.mp nothing).2, List.append_nil] at completes
      exact absurd completes proper

end MessageSyntax

end Foundation
end CoreBank
