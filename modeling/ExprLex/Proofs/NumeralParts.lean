import Mathlib.Data.List.TakeWhile
import ExprLex.Run

/-!
# The parts of a numeral

A text has the form of a numeral exactly when it is written from parts: a sign, the digits of the
whole part, and perhaps a point with the digits of the fraction. The parts need not have a digit
in all; they have a value when they do, and then it is the double of their decimal.
-/
namespace ExprLex.Numeral

structure Parts where
  negative : Bool
  whole : List Char
  /-- The digits behind the point, if there is a point. -/
  fraction? : Option (List Char)
  all_digits : ∀ x ∈ whole ++ fraction?.getD [], x.isDigit = true

namespace Parts

def digits (p : Parts) : List Char := p.whole ++ p.fraction?.getD []

def unsigned (p : Parts) : List Char :=
  match p.fraction? with
  | none => p.whole
  | some fraction => p.whole ++ '.' :: fraction

def text (p : Parts) : List Char := if p.negative then '-' :: p.unsigned else p.unsigned

def decimal (p : Parts) : Decimal := .ofParts p.negative p.whole (p.fraction?.getD [])

end Parts

theorem isDigit_ne {x y : Char} (hx : x.isDigit = true) (hy : y.isDigit = false) : x ≠ y := by
  rintro rfl
  rw [hx] at hy
  cases hy

theorem toLower_of_isDigit {x : Char} (h : x.isDigit = true) : x.toLower = x := by
  simp only [Char.isDigit, Bool.and_eq_true, decide_eq_true_eq] at h
  have hbelow : x.val.toNat ≤ 57 := UInt32.le_iff_toNat_le.mp h.2
  have hnot : ¬ (x.val ≥ 'A'.val ∧ x.val ≤ 'Z'.val) := by
    rintro ⟨hge, -⟩
    have habove : 65 ≤ x.val.toNat := UInt32.le_iff_toNat_le.mp hge
    omega
  exact dif_neg hnot

theorem isUnsigned_digit {x : Char} (hx : x.isDigit = true) (rest : List Char) :
    isUnsigned (x :: rest) = isUnsigned rest := by
  rw [isUnsigned, hx, Bool.true_and]
  rintro rfl
  cases hx

theorem isUnsigned_digits {digits : List Char} (h : ∀ x ∈ digits, x.isDigit = true)
    (rest : List Char) : isUnsigned (digits ++ rest) = isUnsigned rest := by
  induction digits with
  | nil => rfl
  | cons x digits ih =>
    rw [List.cons_append, isUnsigned_digit (h x (by simp)), ih fun y hy => h y (by simp [hy])]

theorem Parts.isUnsigned_unsigned (p : Parts) : isUnsigned p.unsigned = true := by
  obtain ⟨negative, whole, fraction?, h⟩ := p
  have hwhole : ∀ x ∈ whole, x.isDigit = true := fun x hx => h x (by simp [hx])
  cases fraction? with
  | none =>
    have hall := isUnsigned_digits hwhole []
    rwa [List.append_nil] at hall
  | some fraction =>
    rw [unsigned, isUnsigned_digits hwhole, isUnsigned, List.all_eq_true]
    intro x hx
    exact h x (by simp [hx])

theorem exists_parts {text : List Char} (h : isUnsigned text = true) (negative : Bool) :
    ∃ p : Parts, p.negative = negative ∧ p.unsigned = text := by
  fun_induction isUnsigned text with
  | case1 => exact ⟨⟨negative, [], none, by simp⟩, rfl, rfl⟩
  | case2 rest =>
    have hrest : ∀ x ∈ rest, x.isDigit = true := List.all_eq_true.mp h
    exact ⟨⟨negative, [], some rest, hrest⟩, rfl, rfl⟩
  | case3 x rest hpoint ih =>
    obtain ⟨hx, hrest⟩ := Bool.and_eq_true_iff.mp h
    obtain ⟨⟨n, whole, fraction?, hdigits⟩, hnegative, hunsigned⟩ := ih hrest
    have hall : ∀ y ∈ (x :: whole) ++ fraction?.getD [], y.isDigit = true := by
      intro y hy
      rcases List.mem_cons.mp hy with rfl | hy
      · exact hx
      · exact hdigits y hy
    refine ⟨⟨n, x :: whole, fraction?, hall⟩, hnegative, ?_⟩
    cases fraction? with
    | none => exact congrArg (List.cons x) hunsigned
    | some fraction => exact congrArg (List.cons x) hunsigned

theorem isNumeral_dash (rest : List Char) :
    isNumeral ('-' :: rest) = (!rest.isEmpty && isUnsigned rest) := rfl

theorem isNumeral_of_no_dash {text : List Char} (h : text.head? ≠ some '-') :
    isNumeral text = (!text.isEmpty && isUnsigned text) := by
  simp only [isNumeral]
  split
  · simp at h
  · rfl

theorem isUnsigned_no_dash {text : List Char} (h : isUnsigned text = true) :
    text.head? ≠ some '-' := by
  intro hdash
  obtain ⟨rest, rfl⟩ : ∃ rest, text = '-' :: rest := List.head?_eq_some_iff.mp hdash
  rw [isUnsigned] at h
  · cases h
  · decide

theorem Parts.unsigned_no_dash (p : Parts) : p.unsigned.head? ≠ some '-' :=
  isUnsigned_no_dash p.isUnsigned_unsigned

/-- The form of numerals: what is put together from parts, except nothing at all and a lone
dash. -/
theorem isNumeral_iff {text : List Char} :
    isNumeral text = true ↔ text ≠ [] ∧ text ≠ ['-'] ∧ ∃ p : Parts, p.text = text := by
  constructor
  · intro h
    by_cases hdash : text.head? = some '-'
    · obtain ⟨rest, rfl⟩ : ∃ rest, text = '-' :: rest := List.head?_eq_some_iff.mp hdash
      rw [isNumeral_dash, Bool.and_eq_true_iff] at h
      obtain ⟨p, hnegative, hunsigned⟩ := exists_parts h.2 true
      refine ⟨by simp, ?_, p, by rw [Parts.text, hnegative, if_pos rfl, hunsigned]⟩
      simpa using h.1
    · rw [isNumeral_of_no_dash hdash, Bool.and_eq_true_iff] at h
      obtain ⟨p, hnegative, hunsigned⟩ := exists_parts h.2 false
      refine ⟨by simpa using h.1, ?_, p, ?_⟩
      · rintro rfl
        exact hdash rfl
      · rw [Parts.text, hnegative, if_neg Bool.false_ne_true, hunsigned]
  · rintro ⟨hne, hlone, p, rfl⟩
    simp only [Parts.text] at hne hlone ⊢
    split
    · rename_i hnegative
      rw [if_pos hnegative] at hlone
      rw [isNumeral_dash, p.isUnsigned_unsigned]
      simpa using hlone
    · rename_i hnegative
      rw [if_neg hnegative] at hne
      rw [isNumeral_of_no_dash p.unsigned_no_dash, p.isUnsigned_unsigned]
      simpa using hne

theorem isUnsigned_chars {text : List Char} (h : isUnsigned text = true) :
    ∀ x ∈ text, x.isDigit = true ∨ x = '.' := by
  obtain ⟨⟨negative, whole, fraction?, hdigits⟩, -, rfl⟩ := exists_parts h false
  intro x hx
  cases fraction? with
  | none => exact .inl (hdigits x (by simpa [Parts.unsigned] using hx))
  | some fraction =>
    rcases List.mem_append.mp hx with hx | hx
    · exact .inl (hdigits x (by simp [hx]))
    · rcases List.mem_cons.mp hx with rfl | hx
      · exact .inr rfl
      · exact .inl (hdigits x (by simp [hx]))

theorem isNumeral_chars {text : List Char} (h : isNumeral text = true) :
    ∀ x ∈ text, Cursor.opensNumeral x = true := by
  have hopens : ∀ x : Char, x.isDigit = true ∨ x = '.' → Cursor.opensNumeral x = true := by
    rintro x (hx | rfl)
    · simp [Cursor.opensNumeral, hx]
    · rfl
  by_cases hdash : text.head? = some '-'
  · obtain ⟨rest, rfl⟩ : ∃ rest, text = '-' :: rest := List.head?_eq_some_iff.mp hdash
    rw [isNumeral_dash, Bool.and_eq_true_iff] at h
    intro x hx
    rcases List.mem_cons.mp hx with rfl | hx
    · rfl
    · apply hopens
      exact isUnsigned_chars h.2 x hx
  · rw [isNumeral_of_no_dash hdash, Bool.and_eq_true_iff] at h
    intro x hx
    apply hopens
    exact isUnsigned_chars h.2 x hx

theorem not_isNumeral_of_mem {text : List Char} {x : Char} (hx : x ∈ text)
    (h : Cursor.opensNumeral x = false) : isNumeral text = false := by
  rw [Bool.eq_false_iff]
  intro hnumeral
  rw [isNumeral_chars hnumeral x hx] at h
  cases h

namespace Parts

theorem unsigned_ne_nil {p : Parts} (h : p.digits ≠ []) : p.unsigned ≠ [] := by
  obtain ⟨negative, whole, fraction?, hdigits⟩ := p
  cases fraction? with
  | none => simpa [digits, unsigned] using h
  | some fraction => simp [unsigned]

theorem isNumeral_text {p : Parts} (h : p.digits ≠ []) : isNumeral p.text = true := by
  have hne := unsigned_ne_nil h
  refine isNumeral_iff.mpr ⟨?_, ?_, p, rfl⟩
  · simp only [text]
    split
    · simp
    · exact hne
  · simp only [text]
    split
    · simpa using hne
    · intro hlone
      exact p.unsigned_no_dash (by simp [hlone])

theorem head?_ne_quote {p : Parts} (h : p.digits ≠ []) : p.text.head? ≠ some '"' := by
  intro hquote
  cases isNumeral_chars (isNumeral_text h) '"' (List.mem_of_mem_head? hquote)

theorem hasDigit_text (p : Parts) : hasDigit p.text = true ↔ p.digits ≠ [] := by
  have hunsigned : hasDigit p.text = hasDigit p.unsigned := by
    simp only [text]
    split <;> rfl
  have hdigits : hasDigit p.unsigned = hasDigit p.digits := by
    simp only [unsigned, digits]
    cases p.fraction? with
    | none => simp
    | some fraction => simp [hasDigit]
  rw [hunsigned, hdigits, hasDigit, List.any_eq_true]
  constructor
  · rintro ⟨x, hx, -⟩
    exact List.ne_nil_of_mem hx
  · intro hne
    obtain ⟨x, hx⟩ := List.exists_mem_of_ne_nil _ hne
    exact ⟨x, hx, p.all_digits x hx⟩

theorem not_point_of_whole (p : Parts) : ∀ x ∈ p.whole, decide (x ≠ '.') = true := by
  intro x hx
  have hdigit := p.all_digits x (List.mem_append_left _ hx)
  simpa using isDigit_ne hdigit rfl

theorem takeWhile_unsigned (p : Parts) : p.unsigned.takeWhile (· ≠ '.') = p.whole := by
  rw [unsigned]
  split
  · exact List.takeWhile_eq_self_iff.mpr p.not_point_of_whole
  · rw [List.takeWhile_append_of_pos p.not_point_of_whole]
    simp

theorem dropWhile_unsigned (p : Parts) :
    (p.unsigned.dropWhile (· ≠ '.')).drop 1 = p.fraction?.getD [] := by
  rw [unsigned]
  split
  · rename_i hnone
    rw [List.dropWhile_eq_nil_iff.mpr p.not_point_of_whole, hnone]
    rfl
  · rename_i fraction hsome
    rw [List.dropWhile_append_of_pos p.not_point_of_whole, hsome]
    simp

theorem ofUnsigned_unsigned (p : Parts) (negative : Bool) :
    Decimal.ofUnsigned negative p.unsigned =
      .ofParts negative p.whole (p.fraction?.getD []) := by
  rw [Decimal.ofUnsigned, takeWhile_unsigned, dropWhile_unsigned]

theorem ofNumeral_text (p : Parts) : Decimal.ofNumeral p.text = p.decimal := by
  rw [decimal, ← ofUnsigned_unsigned]
  simp only [text]
  split
  · rename_i hnegative
    rw [hnegative]
    rfl
  · rename_i hnegative
    rw [Bool.not_eq_true] at hnegative
    rw [hnegative]
    simp only [Decimal.ofNumeral]
    split
    · rename_i hdash
      exact absurd (by simp [hdash]) p.unsigned_no_dash
    · rfl

theorem value_text (p : Parts) : value p.text = p.decimal.toBinary64 := by
  rw [value, ofNumeral_text]

theorem unsigned_chars (p : Parts) : ∀ x ∈ p.unsigned, x.isDigit = true ∨ x = '.' :=
  isUnsigned_chars p.isUnsigned_unsigned

theorem splitSign_unsigned (p : Parts) {rest : List Char} (h : p.unsigned ≠ [] ∨ rest = []) :
    Decimal.splitSign (p.unsigned ++ rest) = (false, p.unsigned ++ rest) := by
  have hhead : ∀ x, (p.unsigned ++ rest).head? = some x → x ∈ p.unsigned := by
    intro x hx
    rcases h with hne | rfl
    · rw [List.head?_append, List.head?_eq_some_head hne] at hx
      cases hx
      exact List.head_mem hne
    · rw [List.append_nil] at hx
      exact List.mem_of_mem_head? hx
  simp only [Decimal.splitSign]
  split
  · rename_i hdash
    exact absurd (p.unsigned_chars '-' (hhead _ (by rw [hdash]; rfl))) (by decide)
  · rename_i hplus
    exact absurd (p.unsigned_chars '+' (hhead _ (by rw [hplus]; rfl))) (by decide)
  · rfl

theorem splitSign_append (p : Parts) {rest : List Char} (h : p.unsigned ≠ [] ∨ rest = []) :
    Decimal.splitSign (p.text ++ rest) = (p.negative, p.unsigned ++ rest) := by
  simp only [text]
  split
  · rename_i hnegative
    rw [hnegative]
    rfl
  · rename_i hnegative
    rw [Bool.not_eq_true] at hnegative
    rw [hnegative, p.splitSign_unsigned h]

theorem splitSign_text (p : Parts) : Decimal.splitSign p.text = (p.negative, p.unsigned) := by
  have hsplit := p.splitSign_append (.inr rfl)
  rwa [List.append_nil, List.append_nil] at hsplit

theorem coefficient?_unsigned (p : Parts) (negative : Bool) (h : p.digits ≠ []) :
    Decimal.coefficient? negative p.unsigned =
      some (.ofParts negative p.whole (p.fraction?.getD [])) := by
  have hall : (p.whole ++ p.fraction?.getD []).all Char.isDigit = true :=
    List.all_eq_true.mpr p.all_digits
  rw [Decimal.coefficient?, takeWhile_unsigned, dropWhile_unsigned]
  exact if_pos ⟨h, hall⟩

theorem not_mark (p : Parts) : ∀ x ∈ p.unsigned, (!Decimal.isExponentMark x) = true := by
  intro x hx
  rcases p.unsigned_chars x hx with hdigit | rfl
  · have hlower : x ≠ 'e' := isDigit_ne hdigit rfl
    have hupper : x ≠ 'E' := isDigit_ne hdigit rfl
    simp [Decimal.isExponentMark, hlower, hupper]
  · rfl

/-- Read as a decimal that may have an exponent, a numeral with a digit is the decimal it is. -/
theorem ofText?_text (p : Parts) (h : p.digits ≠ []) :
    Decimal.ofText? p.text = some p.decimal := by
  have hmarks : p.unsigned.dropWhile (!Decimal.isExponentMark ·) = [] :=
    List.dropWhile_eq_nil_iff.mpr p.not_mark
  rw [Decimal.ofText?, splitSign_text]
  simp only [hmarks]
  exact p.coefficient?_unsigned _ h

/-- What begins with a numeral is no word. -/
theorem binary64_ofText?_append (p : Parts) (h : p.digits ≠ []) (rest : List Char) :
    Binary64.ofText? (p.text ++ rest) =
      (Decimal.ofText? (p.text ++ rest)).map Decimal.toBinary64 := by
  have hne := unsigned_ne_nil h
  obtain ⟨x, tail, hunsigned⟩ := List.exists_cons_of_ne_nil hne
  have hx : x.toLower = x ∧ Cursor.opensNumeral x = true := by
    rcases p.unsigned_chars x (by simp [hunsigned]) with hdigit | rfl
    · exact ⟨toLower_of_isDigit hdigit, by simp [Cursor.opensNumeral, hdigit]⟩
    · exact ⟨rfl, rfl⟩
  have hword : ∀ word : String, word.toList.head?.all (!Cursor.opensNumeral ·) = true →
      String.ofList ((p.unsigned ++ rest).map Char.toLower) ≠ word := by
    rintro _ hletter rfl
    rw [String.toList_ofList, hunsigned, List.cons_append, List.map_cons, hx.1] at hletter
    simp [hx.2] at hletter
  rw [Binary64.ofText?, p.splitSign_append (.inl hne)]
  simp only
  split
  · rename_i hname
    exact absurd hname (hword _ (by decide))
  · rename_i hname
    exact absurd hname (hword _ (by decide))
  · rename_i hname
    exact absurd hname (hword _ (by decide))
  · rfl

theorem binary64_ofText?_text (p : Parts) (h : p.digits ≠ []) :
    Binary64.ofText? p.text = some p.decimal.toBinary64 := by
  have happend := p.binary64_ofText?_append h []
  rw [List.append_nil, p.ofText?_text h] at happend
  exact happend

end Parts
end ExprLex.Numeral
