import Mathlib.Data.List.DropRight
import ExprLex.Number.Layout
import ExprLex.Proofs.NumeralParts
import ExprLex.Proofs.Rounding

/-!
# The text of a double reads back

The shortest digits of a magnitude stand for a decimal whose double is this magnitude, and both
layouts write this decimal. So a double is what its text names, and no two doubles have the same
text.
-/
namespace ExprLex
open Numeral (Parts)

theorem ofDigitChars_zeros (n : Nat) (digits : List Char) :
    Nat.ofDigitChars 10 (zeros n ++ digits) 0 = Nat.ofDigitChars 10 digits 0 := by
  rw [zeros, Nat.ofDigitChars_append, Nat.ofDigitChars_replicate_zero, Nat.mul_zero]

theorem ofDigitChars_append_zeros (digits : List Char) (n : Nat) :
    Nat.ofDigitChars 10 (digits ++ zeros n) 0 = Nat.ofDigitChars 10 digits 0 * pow10 n := by
  rw [zeros, Nat.ofDigitChars_append, Nat.ofDigitChars_replicate_zero, Nat.mul_comm]
  rfl

theorem length_zeros (n : Nat) : (zeros n).length = n := List.length_replicate

theorem zeros_isDigit {n : Nat} : ∀ x ∈ zeros n, x.isDigit = true := by
  intro x hx
  rw [List.eq_of_mem_replicate hx]
  rfl

theorem zeros_toDigits (k n : Nat) : zeros k ++ Nat.toDigits 10 n ≠ [] ∧
    ∀ x ∈ zeros k ++ Nat.toDigits 10 n, x.isDigit = true := by
  refine ⟨List.append_ne_nil_of_right_ne_nil _ Nat.toDigits_ne_nil, ?_⟩
  rw [List.forall_mem_append]
  exact ⟨zeros_isDigit, fun _ hx => Nat.isDigit_of_mem_toDigits (by decide) (by decide) hx⟩

namespace Digits

/-- The decimal that the digits stand for. -/
def decimal (negative : Bool) (d : Digits) : Decimal :=
  ⟨negative, Nat.ofDigitChars 10 d.digits 0, d.power + 1 - d.digits.length⟩

/-- There is at least one digit, and nothing else. -/
structure Proper (d : Digits) : Prop where
  ne_nil : d.digits ≠ []
  digits : ∀ x ∈ d.digits, x.isDigit = true

theorem exists_dropZeros (digits : List Char) : ∃ n, digits = dropZeros digits ++ zeros n := by
  refine ⟨(digits.rtakeWhile (· = '0')).length, ?_⟩
  have hzeros : digits.rtakeWhile (· = '0') = zeros (digits.rtakeWhile (· = '0')).length := by
    rw [zeros, List.eq_replicate_length]
    intro x hx
    simpa using List.mem_rtakeWhile_imp hx
  rw [← hzeros]
  exact List.rdropWhile_append_rtakeWhile.symm

theorem ofScaled_proper {coefficient : Nat} (h : coefficient ≠ 0) (exponent : Int) :
    (ofScaled coefficient exponent).Proper := by
  obtain ⟨n, hdigits⟩ := exists_dropZeros (Nat.toDigits 10 coefficient)
  refine ⟨fun hnil => h ?_, fun x hx => ?_⟩
  · change dropZeros (Nat.toDigits 10 coefficient) = [] at hnil
    have hvalue := ofDigitChars_append_zeros (dropZeros (Nat.toDigits 10 coefficient)) n
    rw [← hdigits, hnil, Nat.ofDigitChars_ten_toDigits, Nat.ofDigitChars_nil,
      Nat.zero_mul] at hvalue
    exact hvalue
  · refine Nat.isDigit_of_mem_toDigits (b := 10) (n := coefficient) (by decide) (by decide) ?_
    rw [hdigits]
    exact List.mem_append_left _ hx

theorem ofScaled_toBinary64 (negative : Bool) (coefficient : Nat) (exponent : Int) :
    ((ofScaled coefficient exponent).decimal negative).toBinary64 =
      Decimal.toBinary64 ⟨negative, coefficient, exponent⟩ := by
  obtain ⟨n, hdigits⟩ := exists_dropZeros (Nat.toDigits 10 coefficient)
  have hcoefficient : coefficient =
      Nat.ofDigitChars 10 (dropZeros (Nat.toDigits 10 coefficient)) 0 * pow10 n := by
    rw [← ofDigitChars_append_zeros, ← hdigits, Nat.ofDigitChars_ten_toDigits]
  have hlength : (Nat.toDigits 10 coefficient).length =
      (dropZeros (Nat.toDigits 10 coefficient)).length + n := by
    conv_lhs => rw [hdigits]
    rw [List.length_append, length_zeros]
  have hexponent : (ofScaled coefficient exponent).power + 1 -
      (ofScaled coefficient exponent).digits.length = exponent + n := by
    simp only [ofScaled, hlength]
    omega
  rw [decimal, hexponent]
  conv_rhs => rw [hcoefficient, Decimal.toBinary64_shift]
  rfl

variable {d : Digits}

/-- The text is a numeral that has the value of the digits. -/
def IsWritten (d : Digits) (negative : Bool) (text : List Char) : Prop :=
  ∃ p : Parts, p.negative = negative ∧ p.unsigned = text ∧ p.digits ≠ [] ∧
    p.decimal.toBinary64 = (d.decimal negative).toBinary64

theorem isWritten_fraction (h : d.Proper) (negative : Bool) {n : Nat} (hn : d.power = -1 - n) :
    d.IsWritten negative ('0' :: '.' :: (zeros n ++ d.digits)) := by
  have hall : ∀ x ∈ ['0'] ++ (zeros n ++ d.digits), x.isDigit = true := by
    simp only [List.forall_mem_append]
    exact ⟨List.forall_mem_singleton.mpr rfl, zeros_isDigit, h.digits⟩
  refine ⟨⟨negative, ['0'], some (zeros n ++ d.digits), hall⟩, rfl, rfl, by simp [Parts.digits], ?_⟩
  have hvalue := ofDigitChars_zeros (n + 1) d.digits
  have hlength : (zeros n ++ d.digits).length = n + d.digits.length := by
    rw [List.length_append, length_zeros]
  apply congrArg
  simp only [Parts.decimal, Decimal.ofParts, decimal, Option.getD_some, Decimal.mk.injEq,
    true_and, hlength]
  exact ⟨hvalue, by omega⟩

theorem isWritten_whole (h : d.Proper) (negative : Bool) {n : Nat}
    (hn : d.power + 1 = d.digits.length + n) :
    d.IsWritten negative (d.digits ++ zeros n ++ ['.', '0']) := by
  have hall : ∀ x ∈ (d.digits ++ zeros n) ++ ['0'], x.isDigit = true := by
    simp only [List.forall_mem_append]
    exact ⟨⟨h.digits, zeros_isDigit⟩, List.forall_mem_singleton.mpr rfl⟩
  refine ⟨⟨negative, d.digits ++ zeros n, some ['0'], hall⟩, rfl, rfl, by simp [Parts.digits], ?_⟩
  have hvalue := ofDigitChars_append_zeros d.digits (n + 1)
  have hzeros : d.digits ++ zeros n ++ ['0'] = d.digits ++ zeros (n + 1) := by
    rw [List.append_assoc, zeros, zeros, ← List.replicate_succ']
  have hexponent : -((['0'] : List Char).length : Int) + (n + 1 : Nat) =
      d.power + 1 - d.digits.length := by
    rw [List.length_singleton]
    omega
  simp only [Parts.decimal, Decimal.ofParts, decimal, Option.getD_some, hzeros, hvalue]
  rw [Decimal.toBinary64_shift, hexponent]

/-- The numeral with a point behind the first `n` digits. -/
def pointed (h : d.Proper) (negative : Bool) (n : Nat) : Parts where
  negative := negative
  whole := d.digits.take n
  fraction? := some (d.digits.drop n)
  all_digits := by
    rw [Option.getD_some, List.take_append_drop]
    exact h.digits

theorem pointed_digits (h : d.Proper) (negative : Bool) (n : Nat) :
    (pointed h negative n).digits = d.digits := List.take_append_drop n d.digits

theorem pointed_decimal (h : d.Proper) (negative : Bool) (n : Nat) :
    (pointed h negative n).decimal =
      ⟨negative, Nat.ofDigitChars 10 d.digits 0, -(d.digits.length - n : Nat)⟩ := by
  simp only [pointed, Parts.decimal, Decimal.ofParts, Option.getD_some, List.take_append_drop,
    List.length_drop]

theorem isWritten_mixed (h : d.Proper) (negative : Bool) {n : Nat} (hn : d.power + 1 = n)
    (hlt : n < d.digits.length) :
    d.IsWritten negative (d.digits.take n ++ '.' :: d.digits.drop n) := by
  have hexponent : -((d.digits.length - n : Nat) : Int) = d.power + 1 - d.digits.length := by omega
  refine ⟨pointed h negative n, rfl, rfl, pointed_digits h negative n ▸ h.ne_nil, ?_⟩
  rw [pointed_decimal, hexponent]
  rfl

/-- Written with a point, digits are a numeral of the same value. -/
theorem isWritten_positional (h : d.Proper) (negative : Bool) :
    d.IsWritten negative d.positional := by
  rw [positional]
  split
  · exact isWritten_fraction h negative (by omega)
  · dsimp only
    split
    · exact isWritten_whole h negative (by omega)
    · exact isWritten_mixed h negative (by omega) (by omega)

/-- The digits in front of the exponent are a numeral. -/
theorem exponential_parts (h : d.Proper) (negative : Bool) (width : Nat) :
    ∃ p : Parts, p.negative = negative ∧ p.digits ≠ [] ∧
      d.exponential width = p.unsigned ++ 'e' :: (if d.power < 0 then '-' else '+') ::
        (zeros (width - (Nat.toDigits 10 d.power.natAbs).length) ++
          Nat.toDigits 10 d.power.natAbs) ∧
      { p.decimal with exponent := p.decimal.exponent + d.power } = d.decimal negative := by
  have hpos := List.length_pos_iff.mpr h.ne_nil
  by_cases hone : d.digits.length ≤ 1
  · have hall : ∀ x ∈ d.digits ++ (none : Option (List Char)).getD [], x.isDigit = true := by
      simpa using h.digits
    refine ⟨⟨negative, d.digits, none, hall⟩, rfl, ?_, ?_, ?_⟩
    · simpa [Parts.digits] using h.ne_nil
    · simp only [exponential, if_pos hone]
      rfl
    · simp only [Parts.decimal, Decimal.ofParts, decimal, Option.getD_none, List.append_nil,
        Decimal.mk.injEq, true_and, List.length_nil]
      omega
  · have hexponent : -((d.digits.length - 1 : Nat) : Int) + d.power =
        d.power + 1 - d.digits.length := by omega
    refine ⟨pointed h negative 1, rfl, pointed_digits h negative 1 ▸ h.ne_nil, ?_, ?_⟩
    · simp only [exponential, if_neg hone]
      rfl
    · rw [pointed_decimal, hexponent]
      rfl

end Digits

namespace Decimal

theorem exponent?_digits (n k : Nat) (negative : Bool) :
    exponent? ((if negative then '-' else '+') :: (zeros k ++ Nat.toDigits 10 n)) =
      some (if negative then -(n : Int) else n) := by
  obtain ⟨hne, hdigits⟩ := zeros_toDigits k n
  have hall : (zeros k ++ Nat.toDigits 10 n).all Char.isDigit = true := List.all_eq_true.mpr hdigits
  have hvalue : Nat.ofDigitChars 10 (zeros k ++ Nat.toDigits 10 n) 0 = n := by
    rw [ofDigitChars_zeros, Nat.ofDigitChars_ten_toDigits]
  cases negative <;> simp [exponent?, splitSign, hne, hall, hvalue]

theorem exponent?_power (power : Int) (k : Nat) :
    exponent? ((if power < 0 then '-' else '+') :: (zeros k ++ Nat.toDigits 10 power.natAbs)) =
      some power := by
  have hread := exponent?_digits power.natAbs k (decide (power < 0))
  by_cases h : power < 0
  · simp only [h, decide_true, if_true] at hread ⊢
    rw [hread]
    exact congrArg some (by omega)
  · simp only [h, decide_false, if_false, Bool.false_eq_true] at hread ⊢
    rw [hread]
    exact congrArg some (by omega)

theorem ofText?_scaled (p : Parts) (h : p.digits ≠ []) {power : List Char} {e : Int}
    (he : exponent? power = some e) : ofText? (p.text ++ 'e' :: power) =
      some (tame { p.decimal with exponent := p.decimal.exponent + e }) := by
  have hmark : (!isExponentMark 'e') = false := rfl
  have hdrop : (p.unsigned ++ 'e' :: power).dropWhile (!isExponentMark ·) = 'e' :: power := by
    rw [List.dropWhile_append_of_pos p.not_mark, List.dropWhile_cons, hmark]
    rfl
  have htake : (p.unsigned ++ 'e' :: power).takeWhile (!isExponentMark ·) = p.unsigned := by
    rw [List.takeWhile_append_of_pos p.not_mark, List.takeWhile_cons, hmark]
    exact List.append_nil _
  rw [ofText?, p.splitSign_append (.inl (Parts.unsigned_ne_nil h))]
  simp only [hdrop, htake, p.coefficient?_unsigned _ h, he]
  rfl

end Decimal

namespace Binary64

theorem signed_unsigned (p : Parts) : signed p.negative p.unsigned = p.text := rfl

theorem ofText?_positional {d : Digits} (h : d.Proper) (negative : Bool) :
    ofText? (signed negative d.positional) = some (d.decimal negative).toBinary64 := by
  obtain ⟨p, rfl, htext, hdigits, hvalue⟩ := Digits.isWritten_positional h negative
  rw [← htext, signed_unsigned, p.binary64_ofText?_text hdigits, hvalue]

theorem signed_append (p : Parts) (rest : List Char) :
    signed p.negative (p.unsigned ++ rest) = p.text ++ rest := by
  simp only [signed, Parts.text]
  split <;> rfl

theorem ofText?_exponential {d : Digits} (h : d.Proper) (negative : Bool) (width : Nat) :
    ofText? (signed negative (d.exponential width)) = some (d.decimal negative).toBinary64 := by
  obtain ⟨p, rfl, hdigits, htext, hvalue⟩ := Digits.exponential_parts h negative width
  rw [htext, signed_append, p.binary64_ofText?_append hdigits,
    Decimal.ofText?_scaled p hdigits (Decimal.exponent?_power d.power _), hvalue, Option.map_some,
    Decimal.tame_toBinary64]

/-- Both layouts write the decimal that the digits stand for. -/
theorem ofText?_digits {d : Digits} (h : d.Proper) (negative : Bool) (layout : Layout) :
    ofText? (signed negative (d.text layout)) = some (d.decimal negative).toBinary64 := by
  rw [Digits.text]
  split
  · exact ofText?_positional h negative
  · exact ofText?_exponential h negative _

end Binary64

namespace Magnitude

variable {x : Magnitude}

theorem toBinary64_of_readsBack {coefficient : Nat} {exponent : Int}
    (h : x.readsBack coefficient exponent = true) (negative : Bool) :
    Decimal.toBinary64 ⟨negative, coefficient, exponent⟩ = .finite negative x :=
  Binary64.nearest_of_nearest? (of_decide_eq_true h)

/-- The digits stand for the magnitude. -/
structure IsNamed (x : Magnitude) (d : Digits) : Prop where
  proper : d.Proper
  value : ∀ negative, (d.decimal negative).toBinary64 = .finite negative x

theorem zero_isNamed : zero.IsNamed Digits.zero := by
  refine ⟨⟨List.cons_ne_nil _ _, List.forall_mem_singleton.mpr rfl⟩, fun negative => ?_⟩
  exact Binary64.nearest_of_nearest? (Decimal.nearest?_zero 1 (by decide))

theorem ofScaled_isNamed {coefficient : Nat} {exponent : Int} (hx : x ≠ zero)
    (h : x.readsBack coefficient exponent = true) :
    x.IsNamed (Digits.ofScaled coefficient exponent) := by
  have hne : coefficient ≠ 0 := by
    rintro rfl
    have hzero : nearest? (0 * pow10 exponent.toNat) (pow10 (-exponent).toNat) = some x :=
      of_decide_eq_true h
    rw [Nat.zero_mul, Decimal.nearest?_zero _ (pow10_pos _), Option.some.injEq] at hzero
    exact hx hzero.symm
  refine ⟨Digits.ofScaled_proper hne exponent, fun negative => ?_⟩
  rw [Digits.ofScaled_toBinary64, toBinary64_of_readsBack h]

theorem onGrid?_isNamed {exponent : Int} {d : Digits} (hx : x ≠ zero)
    (h : x.onGrid? exponent = some d) : x.IsNamed d := by
  obtain ⟨coefficient, hfound, rfl⟩ := Option.map_eq_some_iff.mp h
  exact ofScaled_isNamed hx (List.find?_some (p := (x.readsBack · exponent)) hfound)

theorem nearest?_exact (x : Magnitude) {n : Nat} (hn : n = 1074) :
    nearest? (x.units * Nat.pow 5 n * pow10 0) (pow10 n) = some x := by
  have hpowers : pow10 n = Nat.pow 5 n * pow2 n := Nat.mul_pow 5 2 n
  have hone : pow10 0 = 1 := rfl
  have hratio : x.units * Nat.pow 5 n * pow10 0 * pow2 n = x.units * pow10 n := by
    rw [hone, Nat.mul_one, hpowers, Nat.mul_assoc]
  rw [nearest?_congr (pow10_pos _) (pow2_pos _) hratio, hn, nearest?_units]

theorem readsBack_exact (x : Magnitude) :
    x.readsBack (x.units * Nat.pow 5 1074) (-1074) = true := by
  -- the exponent has a name here, or else its powers would be worked out
  obtain ⟨n, hn⟩ : ∃ n, n = 1074 := ⟨_, rfl⟩
  have hexponent : (-1074 : Int) = -n := by
    rw [hn]
    rfl
  have hnone : (-(n : Int)).toNat = 0 := by omega
  rw [hexponent, ← hn, readsBack, decide_eq_true_iff, Decimal.numerator, Decimal.denominator, hnone,
    Int.neg_neg, Int.toNat_natCast]
  exact nearest?_exact x hn

theorem shortest_isNamed (x : Magnitude) : x.IsNamed x.shortest := by
  rw [shortest]
  split
  · rename_i hzero
    rw [hzero]
    exact zero_isNamed
  · rename_i hx
    dsimp only
    cases hfound : (List.range 19).findSome? fun (i : Nat) => x.onGrid? (x.topPower - i) with
    | none => exact ofScaled_isNamed hx x.readsBack_exact
    | some d =>
      obtain ⟨i, -, hd⟩ := List.exists_of_findSome?_eq_some hfound
      exact onGrid?_isNamed hx hd

end Magnitude

namespace Binary64

/-- A double is what its text names. -/
theorem ofText?_text (v : Binary64) : ofText? v.text = some v := by
  cases v with
  | finite negative x =>
    rw [text, ofText?_digits x.shortest_isNamed.proper, x.shortest_isNamed.value]
  | infinite negative => cases negative <;> decide
  | nan => decide

theorem text_injective : Function.Injective text := by
  intro v w h
  have hread := ofText?_text v
  rw [h, ofText?_text, Option.some.injEq] at hread
  exact hread.symm

end Binary64
end ExprLex
