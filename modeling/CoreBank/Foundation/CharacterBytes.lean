import Mathlib.Data.List.Forall2
import Mathlib.Data.List.Basic

namespace CoreBank
namespace Foundation

/-!
# The bytes of a character

UTF-8 writes a character from 0x80 on with a lead byte, which says how many
bytes follow and what range each of them has.  The ranges leave out exactly the
surrogates, the values that are too large and the encodings that are longer
than necessary: what lies in them is the encoding of one character, and every
encoding lies in them.
-/

/-- The ranges of the bytes behind a lead byte. -/
def followingRanges (lead : UInt8) : Option (List (UInt8 × UInt8)) :=
  if 0xC2 ≤ lead ∧ lead ≤ 0xDF then some [(0x80, 0xBF)]
  else if lead = 0xE0 then some [(0xA0, 0xBF), (0x80, 0xBF)]
  else if (0xE1 ≤ lead ∧ lead ≤ 0xEC) ∨ (0xEE ≤ lead ∧ lead ≤ 0xEF) then
    some [(0x80, 0xBF), (0x80, 0xBF)]
  else if lead = 0xED then some [(0x80, 0x9F), (0x80, 0xBF)]
  else if lead = 0xF0 then some [(0x90, 0xBF), (0x80, 0xBF), (0x80, 0xBF)]
  else if 0xF1 ≤ lead ∧ lead ≤ 0xF3 then some [(0x80, 0xBF), (0x80, 0xBF), (0x80, 0xBF)]
  else if lead = 0xF4 then some [(0x80, 0x8F), (0x80, 0xBF), (0x80, 0xBF)]
  else none

/-- The byte lies in the range. -/
def InRange (range : UInt8 × UInt8) (byte : UInt8) : Prop :=
  range.1 ≤ byte ∧ byte ≤ range.2

/-- The bytes start with a lead byte, and the others are in its ranges. -/
def WellRanged : List UInt8 -> Prop
  | [] => False
  | lead :: tail =>
      Exists fun ranges => followingRanges lead = some ranges ∧ List.Forall₂ InRange ranges tail

theorem inRange_iff {low high byte : UInt8} :
    InRange (low, high) byte ↔ low.toNat ≤ byte.toNat ∧ byte.toNat ≤ high.toNat :=
  Iff.rfl

/-- The character with a valid number. -/
theorem exists_char_of_isValidChar {n : ℕ} (valid : n.isValidChar) :
    Exists fun character : Char => character.toNat = n :=
  ⟨Char.ofNatAux n valid, rfl⟩

theorem eq_ofNat_of_toNat_eq {byte : UInt8} {n : ℕ} (same : byte.toNat = n) : byte = UInt8.ofNat n := by
  subst same
  exact (UInt8.ofNat_toNat).symm

/-- A lead byte is none of the bytes that are characters by themselves. -/
theorem le_of_followingRanges {lead : UInt8} {ranges : List (UInt8 × UInt8)}
    (found : followingRanges lead = some ranges) : 0xC2 ≤ lead.toNat := by
  unfold followingRanges at found
  simp only [UInt8.le_iff_toNat_le, ← UInt8.toNat_inj, UInt8.reduceToNat] at found
  split_ifs at found
  all_goals omega

/-! ## The four lengths -/

theorem utf8EncodeChar_of_ascii {character : Char} (small : character.toNat < 0x80) :
    String.utf8EncodeChar character = [UInt8.ofNat character.toNat] :=
  if_pos (Nat.le_of_lt_succ small)

theorem utf8EncodeChar_of_two {character : Char} {a b : UInt8} {x y : ℕ}
    (value : character.toNat = x * 64 + y) (shape : 2 ≤ x ∧ x < 32 ∧ y < 64)
    (first : a.toNat = 0xC0 + x) (second : b.toNat = 0x80 + y) :
    String.utf8EncodeChar character = [a, b] := by
  have number : character.val.toNat = x * 64 + y := value
  have lead : (x * 64 + y) / 64 % 32 + 0xC0 = 0xC0 + x := by omega
  have last : (x * 64 + y) % 64 + 0x80 = 0x80 + y := by omega
  rw [eq_ofNat_of_toNat_eq first, eq_ofNat_of_toNat_eq second, String.utf8EncodeChar, number,
    if_neg (by omega), if_pos (by omega), lead, last]

theorem utf8EncodeChar_of_three {character : Char} {a b c : UInt8} {x y z : ℕ}
    (value : character.toNat = x * 4096 + y * 64 + z) (shape : x < 16 ∧ y < 64 ∧ z < 64)
    (large : 0x800 ≤ character.toNat) (first : a.toNat = 0xE0 + x) (second : b.toNat = 0x80 + y)
    (third : c.toNat = 0x80 + z) : String.utf8EncodeChar character = [a, b, c] := by
  have number : character.val.toNat = x * 4096 + y * 64 + z := value
  have lead : (x * 4096 + y * 64 + z) / 4096 % 16 + 0xE0 = 0xE0 + x := by omega
  have middle : (x * 4096 + y * 64 + z) / 64 % 64 + 0x80 = 0x80 + y := by omega
  have last : (x * 4096 + y * 64 + z) % 64 + 0x80 = 0x80 + z := by omega
  rw [value] at large
  rw [eq_ofNat_of_toNat_eq first, eq_ofNat_of_toNat_eq second, eq_ofNat_of_toNat_eq third,
    String.utf8EncodeChar, number, if_neg (by omega), if_neg (by omega), if_pos (by omega), lead,
    middle, last]

theorem utf8EncodeChar_of_four {character : Char} {a b c d : UInt8} {w x y z : ℕ}
    (value : character.toNat = w * 262144 + x * 4096 + y * 64 + z)
    (shape : w < 8 ∧ x < 64 ∧ y < 64 ∧ z < 64) (large : 0x10000 ≤ character.toNat)
    (first : a.toNat = 0xF0 + w) (second : b.toNat = 0x80 + x) (third : c.toNat = 0x80 + y)
    (fourth : d.toNat = 0x80 + z) : String.utf8EncodeChar character = [a, b, c, d] := by
  have number : character.val.toNat = w * 262144 + x * 4096 + y * 64 + z := value
  have lead : (w * 262144 + x * 4096 + y * 64 + z) / 262144 % 8 + 0xF0 = 0xF0 + w := by omega
  have upper : (w * 262144 + x * 4096 + y * 64 + z) / 4096 % 64 + 0x80 = 0x80 + x := by omega
  have lower : (w * 262144 + x * 4096 + y * 64 + z) / 64 % 64 + 0x80 = 0x80 + y := by omega
  have last : (w * 262144 + x * 4096 + y * 64 + z) % 64 + 0x80 = 0x80 + z := by omega
  rw [value] at large
  rw [eq_ofNat_of_toNat_eq first, eq_ofNat_of_toNat_eq second, eq_ofNat_of_toNat_eq third,
    eq_ofNat_of_toNat_eq fourth, String.utf8EncodeChar, number, if_neg (by omega),
    if_neg (by omega), if_neg (by omega), lead, upper, lower, last]

/-! ## What lies in the ranges -/

theorem exists_char_of_two {lead a : UInt8} (first : 0xC2 ≤ lead.toNat ∧ lead.toNat ≤ 0xDF)
    (second : 0x80 ≤ a.toNat ∧ a.toNat ≤ 0xBF) :
    Exists fun character : Char => 0x80 ≤ character.toNat ∧
      String.utf8EncodeChar character = [lead, a] := by
  have valid : ((lead.toNat - 0xC0) * 64 + (a.toNat - 0x80)).isValidChar := .inl (by omega)
  rcases exists_char_of_isValidChar valid with ⟨character, value⟩
  refine ⟨character, by omega, utf8EncodeChar_of_two value ?_ ?_ ?_⟩
  · omega
  · omega
  · omega

/-- Three bytes; an E0 is followed by a byte that makes it necessary, and an ED
by one that makes no surrogate. -/
theorem exists_char_of_three {lead a b : UInt8} (first : 0xE0 ≤ lead.toNat ∧ lead.toNat ≤ 0xEF)
    (second : 0x80 ≤ a.toNat ∧ a.toNat ≤ 0xBF) (third : 0x80 ≤ b.toNat ∧ b.toNat ≤ 0xBF)
    (needed : lead.toNat = 0xE0 -> 0xA0 ≤ a.toNat) (scalar : lead.toNat = 0xED -> a.toNat ≤ 0x9F) :
    Exists fun character : Char => 0x80 ≤ character.toNat ∧
      String.utf8EncodeChar character = [lead, a, b] := by
  have valid : ((lead.toNat - 0xE0) * 4096 + (a.toNat - 0x80) * 64 + (b.toNat - 0x80)).isValidChar := by
    by_cases low : lead.toNat ≤ 0xED
    · exact .inl (by omega)
    · exact .inr (by omega)
  rcases exists_char_of_isValidChar valid with ⟨character, value⟩
  refine ⟨character, by omega, utf8EncodeChar_of_three value ?_ ?_ ?_ ?_ ?_⟩
  · omega
  · omega
  · omega
  · omega
  · omega

/-- Four bytes; an F0 is followed by a byte that makes it necessary, and an F4
by one that stays below the largest character. -/
theorem exists_char_of_four {lead a b c : UInt8} (first : 0xF0 ≤ lead.toNat ∧ lead.toNat ≤ 0xF4)
    (second : 0x80 ≤ a.toNat ∧ a.toNat ≤ 0xBF) (third : 0x80 ≤ b.toNat ∧ b.toNat ≤ 0xBF)
    (fourth : 0x80 ≤ c.toNat ∧ c.toNat ≤ 0xBF) (needed : lead.toNat = 0xF0 -> 0x90 ≤ a.toNat)
    (bounded : lead.toNat = 0xF4 -> a.toNat ≤ 0x8F) :
    Exists fun character : Char => 0x80 ≤ character.toNat ∧
      String.utf8EncodeChar character = [lead, a, b, c] := by
  have valid : ((lead.toNat - 0xF0) * 262144 + (a.toNat - 0x80) * 4096 + (b.toNat - 0x80) * 64 +
      (c.toNat - 0x80)).isValidChar := .inr (by omega)
  rcases exists_char_of_isValidChar valid with ⟨character, value⟩
  refine ⟨character, by omega, utf8EncodeChar_of_four value ?_ ?_ ?_ ?_ ?_ ?_⟩
  · omega
  · omega
  · omega
  · omega
  · omega
  · omega

theorem forall₂_inRange_cons {range : UInt8 × UInt8} {ranges : List (UInt8 × UInt8)} {tail : List UInt8} :
    List.Forall₂ InRange (range :: ranges) tail ↔
      Exists fun a => Exists fun rest => tail = a :: rest ∧ InRange range a ∧
        List.Forall₂ InRange ranges rest := by
  rw [List.forall₂_cons_left_iff]
  constructor
  · rintro ⟨a, rest, inside, others, rfl⟩
    exact ⟨a, rest, rfl, inside, others⟩
  · rintro ⟨a, rest, rfl, inside, others⟩
    exact ⟨a, rest, inside, others, rfl⟩

/-- Bytes in the ranges are the encoding of a character. -/
theorem exists_char_of_wellRanged {lead : UInt8} {tail : List UInt8} (ranged : WellRanged (lead :: tail)) :
    Exists fun character : Char => 0x80 ≤ character.toNat ∧
      String.utf8EncodeChar character = lead :: tail := by
  rcases ranged with ⟨ranges, found, inside⟩
  unfold followingRanges at found
  simp only [UInt8.le_iff_toNat_le, ← UInt8.toNat_inj, UInt8.reduceToNat] at found
  split_ifs at found <;> cases found
  all_goals
    simp only [forall₂_inRange_cons, List.forall₂_nil_left_iff, inRange_iff, UInt8.reduceToNat] at inside
  · rcases inside with ⟨a, _, rfl, second, rfl⟩
    exact exists_char_of_two (by omega) second
  · rcases inside with ⟨a, _, rfl, second, b, _, rfl, third, rfl⟩
    exact exists_char_of_three (by omega) (by omega) third (by omega) (by omega)
  · rcases inside with ⟨a, _, rfl, second, b, _, rfl, third, rfl⟩
    exact exists_char_of_three (by omega) (by omega) third (by omega) (by omega)
  · rcases inside with ⟨a, _, rfl, second, b, _, rfl, third, rfl⟩
    exact exists_char_of_three (by omega) (by omega) third (by omega) (by omega)
  · rcases inside with ⟨a, _, rfl, second, b, _, rfl, third, c, _, rfl, fourth, rfl⟩
    exact exists_char_of_four (by omega) (by omega) third fourth (by omega) (by omega)
  · rcases inside with ⟨a, _, rfl, second, b, _, rfl, third, c, _, rfl, fourth, rfl⟩
    exact exists_char_of_four (by omega) (by omega) third fourth (by omega) (by omega)
  · rcases inside with ⟨a, _, rfl, second, b, _, rfl, third, c, _, rfl, fourth, rfl⟩
    exact exists_char_of_four (by omega) (by omega) third fourth (by omega) (by omega)

theorem wellRanged_of_two {lead a : UInt8} (first : 0xC2 ≤ lead.toNat ∧ lead.toNat ≤ 0xDF)
    (second : 0x80 ≤ a.toNat ∧ a.toNat ≤ 0xBF) : WellRanged [lead, a] := by
  refine ⟨[(0x80, 0xBF)], if_pos first, ?_⟩
  exact List.forall₂_cons.mpr ⟨inRange_iff.mpr second, .nil⟩

theorem wellRanged_of_three {lead a b : UInt8} (first : 0xE0 ≤ lead.toNat ∧ lead.toNat ≤ 0xEF)
    (second : 0x80 ≤ a.toNat ∧ a.toNat ≤ 0xBF) (third : 0x80 ≤ b.toNat ∧ b.toNat ≤ 0xBF)
    (needed : lead.toNat = 0xE0 -> 0xA0 ≤ a.toNat) (scalar : lead.toNat = 0xED -> a.toNat ≤ 0x9F) :
    WellRanged [lead, a, b] := by
  have last : List.Forall₂ InRange [(0x80, 0xBF)] [b] := .cons (inRange_iff.mpr third) .nil
  unfold WellRanged followingRanges
  simp only [UInt8.le_iff_toNat_le, ← UInt8.toNat_inj, UInt8.reduceToNat]
  rw [if_neg (by omega)]
  split_ifs with lowest upper surrogate
  · exact ⟨_, rfl, .cons (inRange_iff.mpr ⟨needed lowest, second.2⟩) last⟩
  · exact ⟨_, rfl, .cons (inRange_iff.mpr second) last⟩
  · exact ⟨_, rfl, .cons (inRange_iff.mpr ⟨second.1, scalar surrogate⟩) last⟩
  all_goals omega

theorem wellRanged_of_four {lead a b c : UInt8} (first : 0xF0 ≤ lead.toNat ∧ lead.toNat ≤ 0xF4)
    (second : 0x80 ≤ a.toNat ∧ a.toNat ≤ 0xBF) (third : 0x80 ≤ b.toNat ∧ b.toNat ≤ 0xBF)
    (fourth : 0x80 ≤ c.toNat ∧ c.toNat ≤ 0xBF) (needed : lead.toNat = 0xF0 -> 0x90 ≤ a.toNat)
    (bounded : lead.toNat = 0xF4 -> a.toNat ≤ 0x8F) : WellRanged [lead, a, b, c] := by
  have last : List.Forall₂ InRange [(0x80, 0xBF), (0x80, 0xBF)] [b, c] :=
    .cons (inRange_iff.mpr third) (.cons (inRange_iff.mpr fourth) .nil)
  unfold WellRanged followingRanges
  simp only [UInt8.le_iff_toNat_le, ← UInt8.toNat_inj, UInt8.reduceToNat]
  rw [if_neg (by omega), if_neg (by omega), if_neg (by omega), if_neg (by omega)]
  split_ifs with lowest middle largest
  · exact ⟨_, rfl, .cons (inRange_iff.mpr ⟨needed lowest, second.2⟩) last⟩
  · exact ⟨_, rfl, .cons (inRange_iff.mpr second) last⟩
  · exact ⟨_, rfl, .cons (inRange_iff.mpr ⟨second.1, bounded largest⟩) last⟩
  · omega

theorem toNat_ofNat_of_lt {n : ℕ} (small : n < 256) : (UInt8.ofNat n).toNat = n :=
  UInt8.toNat_ofNat_of_lt' small

/-- The encoding of a character lies in the ranges of its lead byte. -/
theorem wellRanged_of_char {character : Char} (large : 0x80 ≤ character.toNat) :
    WellRanged (String.utf8EncodeChar character) := by
  have valid : character.toNat < 0xD800 ∨ 0xDFFF < character.toNat ∧ character.toNat < 0x110000 :=
    character.valid
  have last : (UInt8.ofNat (0x80 + character.toNat % 64)).toNat = 0x80 + character.toNat % 64 :=
    toNat_ofNat_of_lt (by omega)
  by_cases two : character.toNat < 0x800
  · have lead : (UInt8.ofNat (0xC0 + character.toNat / 64)).toNat = 0xC0 + character.toNat / 64 :=
      toNat_ofNat_of_lt (by omega)
    rw [utf8EncodeChar_of_two (by omega) (by omega) lead last]
    exact wellRanged_of_two (by omega) (by omega)
  · have lower : (UInt8.ofNat (0x80 + character.toNat / 64 % 64)).toNat =
        0x80 + character.toNat / 64 % 64 := toNat_ofNat_of_lt (by omega)
    by_cases three : character.toNat < 0x10000
    · have lead : (UInt8.ofNat (0xE0 + character.toNat / 4096)).toNat =
          0xE0 + character.toNat / 4096 := toNat_ofNat_of_lt (by omega)
      rw [utf8EncodeChar_of_three (by omega) (by omega) (by omega) lead lower last]
      exact wellRanged_of_three (by omega) (by omega) (by omega) (by omega) (by omega)
    · have upper : (UInt8.ofNat (0x80 + character.toNat / 4096 % 64)).toNat =
          0x80 + character.toNat / 4096 % 64 := toNat_ofNat_of_lt (by omega)
      have lead : (UInt8.ofNat (0xF0 + character.toNat / 262144)).toNat =
          0xF0 + character.toNat / 262144 := toNat_ofNat_of_lt (by omega)
      rw [utf8EncodeChar_of_four (by omega) (by omega) (by omega) lead upper lower last]
      exact wellRanged_of_four (by omega) (by omega) (by omega) (by omega) (by omega) (by omega)

end Foundation
end CoreBank
