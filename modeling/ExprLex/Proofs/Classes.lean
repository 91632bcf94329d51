import ExprLex.Run

/-!
# Classes of characters that exclude each other

Delimiters, the characters of numerals, and letters follow each other in the order of code points,
so that none of them is any other. No symbol is a delimiter, a letter, a digit or a point.
-/
namespace ExprLex
open Text

theorem letter_ge {x : Char} (h : isLetter x = true) : 0x41 ≤ x.toNat := by
  rw [isLetter, letterRanges, Ranges.covers, Bool.and_eq_true_iff] at h
  exact of_decide_eq_true h.1

theorem opensNumeral_range {x : Char} (h : Cursor.opensNumeral x = true) :
    0x2D ≤ x.toNat ∧ x.toNat ≤ 0x39 := by
  simp only [Cursor.opensNumeral, Bool.or_eq_true, decide_eq_true_eq] at h
  rcases h with (hdigit | rfl) | rfl
  · have hrange : 0x30 ≤ x.toNat ∧ x.toNat ≤ 0x39 := Char.isDigit_iff_toNat.mp hdigit
    omega
  · decide
  · decide

theorem delimiter_le {x : Char} (h : isDelimiter x = true) : x.toNat ≤ 0x22 := by
  simp only [isDelimiter, isBlank, isBreak, Bool.or_eq_true, decide_eq_true_eq] at h
  rcases h with (rfl | (rfl | rfl) | rfl) | rfl <;> decide

theorem letter_not_opensNumeral {x : Char} (h : isLetter x = true) :
    Cursor.opensNumeral x = false := by
  rw [Bool.eq_false_iff]
  intro hopens
  have := letter_ge h
  have := (opensNumeral_range hopens).2
  omega

theorem letter_not_delimiter {x : Char} (h : isLetter x = true) : isDelimiter x = false := by
  rw [Bool.eq_false_iff]
  intro hdelimiter
  have := letter_ge h
  have := delimiter_le hdelimiter
  omega

theorem opensNumeral_not_delimiter {x : Char} (h : Cursor.opensNumeral x = true) :
    isDelimiter x = false := by
  rw [Bool.eq_false_iff]
  intro hdelimiter
  have := (opensNumeral_range h).1
  have := delimiter_le hdelimiter
  omega

theorem not_delimiter_iff {x : Char} :
    isDelimiter x = false ↔ isBlank x = false ∧ x ≠ '"' := by
  simp [isDelimiter]

theorem not_word_iff {x : Char} :
    isWord x = false ↔ isLetter x = false ∧ x.isDigit = false ∧ x ≠ '.' := by
  simp [isWord, and_assoc]

theorem SymbolSet.not_mem_of_word {symbols : SymbolSet} {x : Char} (h : isWord x = true) :
    x ∉ symbols := by
  intro hx
  have hword := (symbols.admissible x hx).2
  rw [h] at hword
  cases hword

end ExprLex
