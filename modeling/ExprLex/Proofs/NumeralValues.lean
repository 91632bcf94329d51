import ExprLex.Proofs.NearestDouble
import ExprLex.Proofs.Words

/-!
# The numbers that numerals denote

The digits of a numeral denote a rational number, however many there are. Its token is the double
with the sign of the numeral that is nearest to this number, so the token does not tell how the
number was written, and of two numerals without a sign the greater one has no smaller token.
-/
namespace ExprLex.Numeral

def digitValue (x : Char) : Nat := x.toNat - '0'.toNat

/-- What digits in front of a point denote. -/
def wholeValue (digits : List Char) : ℚ := digits.foldl (fun q x => 10 * q + digitValue x) 0

/-- What digits behind a point denote. -/
def fractionValue : List Char → ℚ
  | [] => 0
  | x :: rest => (digitValue x + fractionValue rest) / 10

namespace Parts

/-- The number that the digits denote, whatever the sign. -/
def denoted (p : Parts) : ℚ := wholeValue p.whole + fractionValue (p.fraction?.getD [])

/-- A run of this text becomes the number, wherever it stands. -/
def ReadsAs (p : Parts) (v : Binary64) : Prop :=
  ∀ (start : Position) (strict : Bool),
    (⟨start, .bare, p.text⟩ : Run).verdict strict = .token (.number v)

end Parts

theorem wholeValue_eq (digits : List Char) :
    wholeValue digits = (Nat.ofDigitChars 10 digits 0 : Nat) := by
  have hgeneral (n : Nat) : digits.foldl (fun q x => 10 * q + (digitValue x : ℚ)) n =
      (Nat.ofDigitChars 10 digits n : Nat) := by
    induction digits generalizing n with
    | nil => rfl
    | cons x digits ih =>
      rw [List.foldl_cons, Nat.ofDigitChars_cons, ← ih, digitValue]
      push_cast
      rfl
  exact hgeneral 0

theorem fractionValue_eq (digits : List Char) (n : Nat) :
    ((Nat.ofDigitChars 10 digits n : Nat) : ℚ) / 10 ^ digits.length = n + fractionValue digits := by
  induction digits generalizing n with
  | nil => simp [fractionValue]
  | cons x digits ih =>
    rw [Nat.ofDigitChars_cons, List.length_cons, pow_succ, ← div_div, ih, fractionValue, digitValue]
    push_cast
    ring

namespace Parts

variable {p : Parts}

theorem decimal_denoted (p : Parts) :
    (p.decimal.numerator : ℚ) / p.decimal.denominator = p.denoted := by
  have hexponent : p.decimal.exponent = -(p.fraction?.getD []).length := rfl
  have hnumerator : p.decimal.numerator =
      Nat.ofDigitChars 10 (p.fraction?.getD []) (Nat.ofDigitChars 10 p.whole 0) := by
    rw [← Nat.ofDigitChars_append, Decimal.numerator, hexponent, Int.toNat_of_nonpos (by omega)]
    exact Nat.mul_one _
  have hdenominator : (p.decimal.denominator : ℚ) = 10 ^ (p.fraction?.getD []).length := by
    rw [Decimal.denominator, hexponent, Int.neg_neg, Int.toNat_natCast]
    exact Nat.cast_pow 10 _
  rw [hnumerator, hdenominator, fractionValue_eq, ← wholeValue_eq]
  rfl

theorem readsAs (h : p.digits ≠ []) : p.ReadsAs p.decimal.toBinary64 := by
  intro start strict
  rw [← p.value_text]
  exact Verdict.stands_iff.mp (.number (isNumeral_text h) (p.hasDigit_text.mpr h))

theorem ReadsAs.unique {v w : Binary64} (hv : p.ReadsAs v) (hw : p.ReadsAs w) : v = w := by
  have hsame := (hv .start false).symm.trans (hw .start false)
  cases hsame
  rfl

theorem rounds (p : Parts) : Binary64.Rounds p.negative p.denoted p.decimal.toBinary64 := by
  rw [← decimal_denoted]
  exact Binary64.nearest_rounds p.negative p.decimal.denominator_pos

theorem negative_iff (p : Parts) : p.negative = true ↔ p.text.head? = some '-' := by
  rw [text]
  split
  · exact iff_of_true ‹_› rfl
  · exact iff_of_false ‹_› p.unsigned_no_dash

end Parts

/-- A numeral with a digit becomes the double of its sign that is nearest to the number that its
digits denote, and no other double is. So numerals of one sign that denote the same number become
the same double, and without a sign those of greater numbers become no smaller doubles. -/
theorem numerals_round (p : Parts) (h : p.digits ≠ []) :
    (p.negative = true ↔ p.text.head? = some '-') ∧
    ∃ v, p.ReadsAs v ∧
      (∀ settings, StaysWhole settings p.text (.token ⟨.number v, .start⟩)) ∧
      (∀ w, Binary64.Rounds p.negative p.denoted w ↔ w = v) ∧
      ∀ (other : Parts) (w : Binary64), other.digits ≠ [] → other.ReadsAs w →
        (other.negative = p.negative → other.denoted = p.denoted → w = v) ∧
        (p.negative = false → other.negative = false → p.denoted ≤ other.denoted →
          v.AtMost w) := by
  have hrounds := p.rounds
  refine ⟨p.negative_iff, _, Parts.readsAs h, fun settings => staysWhole_numeral settings h,
    fun w => ⟨fun hw => hw.unique hrounds, fun hw => hw ▸ hrounds⟩, ?_⟩
  intro other w hother hw
  obtain rfl := hw.unique (Parts.readsAs hother)
  have hothers := other.rounds
  refine ⟨fun hnegative hdenoted => ?_, fun hleft hright hle => ?_⟩
  · rw [hnegative, hdenoted] at hothers
    exact hothers.unique hrounds
  · rw [hleft] at hrounds
    rw [hright] at hothers
    exact hrounds.atMost hothers hle

/-- Two ways to write minus a half. -/
theorem numerals_round_half :
    let p : Parts := ⟨true, ['0', '0'], some ['5', '0'], by simp⟩
    let other : Parts := ⟨true, [], some ['5'], by simp⟩
    let half : Binary64 := .finite true ⟨2 ^ 52, 1021, by decide +kernel⟩
    p.digits ≠ [] ∧ other.digits ≠ [] ∧ other.denoted = p.denoted ∧ p.ReadsAs half ∧
      (∀ w, Binary64.Rounds true (1 / 2) w ↔ w = half) ∧ ∀ w, other.ReadsAs w → w = half := by
  intro p other half
  have hp : p.digits ≠ [] := by decide
  have hother : other.digits ≠ [] := by decide
  have hzero : digitValue '0' = 0 := rfl
  have hfive : digitValue '5' = 5 := rfl
  have hdenoted : p.denoted = 1 / 2 := by
    norm_num [p, Parts.denoted, wholeValue, fractionValue, hzero, hfive]
  have hsame : other.denoted = p.denoted := by
    rw [hdenoted]
    norm_num [other, Parts.denoted, wholeValue, fractionValue, hfive]
  have hreads : p.ReadsAs half := by
    have hverdict : Verdict.ofBare p.text = .token (.number half) := by decide +kernel
    exact fun _ _ => hverdict
  obtain ⟨-, v, hv, -, hrounds, hothers⟩ := numerals_round p hp
  obtain rfl := hv.unique hreads
  rw [hdenoted] at hrounds
  exact ⟨hp, hother, hsame, hv, hrounds, fun w hw => (hothers other w hother hw).1 rfl hsame⟩

end ExprLex.Numeral
