import Mathlib.Algebra.Order.Ring.Nat
import Mathlib.Tactic.Ring
import ExprLex.Number.Decimal

/-!
# Doubles of decimals

The magnitude nearest to a quotient depends on the quotient alone, and the nearest to a magnitude is
this magnitude. So two ways to write a decimal have the same double, and nothing is lost when an
exponent is cut down that is too large or too small for any double.
-/
namespace ExprLex

theorem pow2_pos (n : Nat) : 0 < pow2 n := Nat.pow_pos (by decide)

theorem pow2_add (m n : Nat) : pow2 (m + n) = pow2 m * pow2 n := Nat.pow_add 2 m n

theorem pow10_pos (n : Nat) : 0 < pow10 n := Nat.pow_pos (by decide)

theorem pow10_add (m n : Nat) : pow10 (m + n) = pow10 m * pow10 n := Nat.pow_add 10 m n

theorem pow10_le {m n : Nat} (h : m ≤ n) : pow10 m ≤ pow10 n := Nat.pow_le_pow_right (by decide) h

section

variable {n d : Nat}

theorem roundHalfEven_mul {k : Nat} (hk : 0 < k) (n d : Nat) :
    roundHalfEven (k * n) (k * d) = roundHalfEven n d := by
  have hdouble : 2 * (k * (n % d)) = k * (2 * (n % d)) := by ring
  simp only [roundHalfEven, Nat.mul_div_mul_left _ _ hk, Nat.mul_mod_mul_left, hdouble,
    Nat.mul_lt_mul_left hk]

theorem roundHalfEven_exact (hd : 0 < d) (q : Nat) : roundHalfEven (q * d) d = q := by
  simp [roundHalfEven, Nat.mul_div_cancel q hd, hd]

theorem roundHalfEven_small (h : 2 * n < d) : roundHalfEven n d = 0 := by
  have hlt : n < d := by omega
  simp [roundHalfEven, Nat.div_eq_of_lt hlt, Nat.mod_eq_of_lt hlt, h]

end

namespace Magnitude

variable {num den : Nat}

/-- The rounding in terms of the scale and of the significand before it is carried. -/
theorem nearest?_eq {significand exponent : Nat}
    (hscale : scale (num * pow2 1074 / den) = exponent)
    (hround : roundHalfEven (num * pow2 1074) (den * pow2 exponent) = significand) :
    nearest? num den =
      canonical? (carry significand exponent).1 (carry significand exponent).2 := by
  rw [nearest?, hscale, hround]

theorem nearest?_mul {k : Nat} (hk : 0 < k) (num den : Nat) :
    nearest? (k * num) (k * den) = nearest? num den := by
  simp only [nearest?, Nat.mul_assoc, Nat.mul_div_mul_left _ _ hk, roundHalfEven_mul hk]

/-- Equal quotients have the same nearest magnitude. -/
theorem nearest?_congr {num' den' : Nat} (hden : 0 < den) (hden' : 0 < den')
    (h : num * den' = num' * den) : nearest? num den = nearest? num' den' := by
  rw [← nearest?_mul hden' num den, ← nearest?_mul hden num' den', Nat.mul_comm den' num, h,
    Nat.mul_comm num' den, Nat.mul_comm den' den]

theorem scale_units (x : Magnitude) : scale x.units = x.exponent := by
  obtain ⟨significand, exponent, hbound, -, hleast⟩ := x
  change (significand * 2 ^ exponent).log2 - 52 = exponent
  rcases hleast with rfl | hleast
  · by_cases hzero : significand = 0
    · simp [hzero]
    · have hlog : significand.log2 < 53 := (Nat.log2_lt hzero).mpr hbound
      rw [Nat.pow_zero, Nat.mul_one]
      omega
  · have hne : significand * 2 ^ exponent ≠ 0 :=
      Nat.mul_ne_zero ((pow2_pos 52).trans_le hleast).ne' (pow2_pos exponent).ne'
    have hlog : (significand * 2 ^ exponent).log2 = 52 + exponent := by
      rw [Nat.log2_eq_iff hne, Nat.add_right_comm, Nat.pow_add, Nat.pow_add]
      exact ⟨Nat.mul_le_mul_right _ hleast, Nat.mul_lt_mul_of_pos_right hbound (pow2_pos exponent)⟩
    omega

/-- A magnitude is the nearest one to itself. -/
theorem nearest?_units (x : Magnitude) : nearest? x.units (pow2 1074) = some x := by
  have hround : roundHalfEven (x.units * pow2 1074) (pow2 1074 * pow2 x.exponent) =
      x.significand := by
    rw [Nat.mul_comm x.units, roundHalfEven_mul (pow2_pos 1074)]
    exact roundHalfEven_exact (pow2_pos x.exponent) x.significand
  have hscale : scale (x.units * pow2 1074 / pow2 1074) = x.exponent := by
    rw [Nat.mul_div_cancel _ (pow2_pos 1074), scale_units]
  have hcarry : carry x.significand x.exponent = (x.significand, x.exponent) :=
    if_neg x.canonical.1.ne
  rw [nearest?_eq hscale hround, hcarry]
  exact dif_pos x.canonical

theorem nearest?_small (h : 2 * (num * pow2 1074) < den) : nearest? num den = some zero := by
  have hscale : scale (num * pow2 1074 / den) = 0 := by
    rw [Nat.div_eq_of_lt (by omega)]
    decide
  have hround : roundHalfEven (num * pow2 1074) (den * pow2 0) = 0 :=
    roundHalfEven_small (h.trans_eq (Nat.mul_one den).symm)
  rw [nearest?_eq hscale hround]
  decide

theorem carry_exponent_ge (significand exponent : Nat) :
    exponent ≤ (carry significand exponent).2 := by
  unfold carry
  split <;> simp

theorem le_scale {k whole : Nat} (h : pow2 (k + 52) ≤ whole) : k ≤ scale whole := by
  have hlog := (Nat.le_log2 ((pow2_pos _).trans_le h).ne').mpr h
  unfold scale
  omega

theorem nearest?_large (hden : 0 < den) (h : den * pow2 1024 ≤ num) : nearest? num den = none := by
  have hwhole : pow2 (1024 + 1074) ≤ num * pow2 1074 / den := by
    rw [Nat.le_div_iff_mul_le hden, pow2_add, Nat.mul_comm, ← Nat.mul_assoc]
    exact Nat.mul_le_mul_right _ h
  have hscale : 2046 ≤ scale (num * pow2 1074 / den) := le_scale hwhole
  rw [nearest?_eq rfl rfl]
  refine dif_neg fun hcanonical => ?_
  have hexponent := Nat.lt_succ_of_le hcanonical.2.1
  exact hexponent.not_ge (hscale.trans (carry_exponent_ge _ _))

end Magnitude

theorem Binary64.nearest_of_nearest? {negative : Bool} {num den : Nat} {x : Magnitude}
    (h : Magnitude.nearest? num den = some x) :
    Binary64.nearest negative num den = .finite negative x := by
  rw [nearest, h]
  rfl

namespace Decimal

theorem denominator_pos (d : Decimal) : 0 < d.denominator := pow10_pos _

theorem toBinary64_congr {d d' : Decimal} (hnegative : d.negative = d'.negative)
    (h : d.numerator * d'.denominator = d'.numerator * d.denominator) :
    d.toBinary64 = d'.toBinary64 := by
  rw [toBinary64, toBinary64, Binary64.nearest, Binary64.nearest, hnegative,
    Magnitude.nearest?_congr d.denominator_pos d'.denominator_pos h]

/-- Zeros at the end of a coefficient may be put into the exponent. -/
theorem toBinary64_shift (negative : Bool) (coefficient k : Nat) (exponent : Int) :
    toBinary64 ⟨negative, coefficient * pow10 k, exponent⟩ =
      toBinary64 ⟨negative, coefficient, exponent + k⟩ := by
  refine toBinary64_congr rfl ?_
  have hpowers : k + exponent.toNat + (-(exponent + k)).toNat =
      (exponent + k).toNat + (-exponent).toNat := by omega
  simp only [numerator, denominator, Nat.mul_assoc, ← pow10_add]
  rw [← hpowers, Nat.add_assoc]

theorem nearest?_zero (den : Nat) (h : 0 < den) : Magnitude.nearest? 0 den = some .zero :=
  Magnitude.nearest?_small (by omega)

theorem nearest?_of_large {d : Decimal} (hne : d.coefficient ≠ 0) (h : 400 ≤ d.exponent) :
    Magnitude.nearest? d.numerator d.denominator = none := by
  have hbound : pow2 1024 ≤ pow10 400 := by decide +kernel
  have hdenominator : d.denominator = 1 := by
    rw [denominator, Int.toNat_of_nonpos (by omega)]
    rfl
  apply Magnitude.nearest?_large d.denominator_pos
  rw [hdenominator, Nat.one_mul]
  calc pow2 1024 ≤ pow10 400 := hbound
    _ ≤ pow10 d.exponent.toNat := pow10_le (by omega)
    _ ≤ d.numerator := Nat.le_mul_of_pos_left _ (Nat.pos_of_ne_zero hne)

theorem nearest?_of_small {d : Decimal}
    (h : d.exponent ≤ -(Nat.toDigits 10 d.coefficient).length - 400) :
    Magnitude.nearest? d.numerator d.denominator = some .zero := by
  have hbound : 2 * pow2 1074 ≤ pow10 400 := by decide +kernel
  have hdigits : d.coefficient < pow10 (Nat.toDigits 10 d.coefficient).length :=
    (Nat.length_toDigits_le_iff (by decide) Nat.length_toDigits_pos).mp le_rfl
  have hnumerator : d.numerator = d.coefficient := by
    rw [numerator, Int.toNat_of_nonpos (by omega)]
    exact Nat.mul_one _
  apply Magnitude.nearest?_small
  rw [hnumerator]
  calc 2 * (d.coefficient * pow2 1074) = d.coefficient * (2 * pow2 1074) := by ring
    _ ≤ d.coefficient * pow10 400 := Nat.mul_le_mul_left _ hbound
    _ < pow10 (Nat.toDigits 10 d.coefficient).length * pow10 400 :=
        Nat.mul_lt_mul_of_pos_right hdigits (pow10_pos 400)
    _ = pow10 ((Nat.toDigits 10 d.coefficient).length + 400) := (pow10_add _ _).symm
    _ ≤ d.denominator := pow10_le (by omega)

/-- A decimal that is tamed has the same double. -/
theorem tame_toBinary64 (d : Decimal) : d.tame.toBinary64 = d.toBinary64 := by
  have hsame : ∀ {result}, Magnitude.nearest? d.numerator d.denominator = result →
      Magnitude.nearest? d.tame.numerator d.tame.denominator = result →
      d.tame.toBinary64 = d.toBinary64 := fun h h' => by
    rw [toBinary64, toBinary64, Binary64.nearest, Binary64.nearest, h, h']
    rfl
  by_cases hsmall : d.exponent ≤ -(Nat.toDigits 10 d.coefficient).length - 400
  · refine hsame (nearest?_of_small hsmall) (nearest?_of_small ?_)
    simp only [tame]
    omega
  · by_cases hlarge : 400 ≤ d.exponent
    · by_cases hzero : d.coefficient = 0
      · apply @hsame (some .zero)
        · rw [numerator, hzero, Nat.zero_mul, nearest?_zero _ d.denominator_pos]
        · rw [numerator, tame, hzero, Nat.zero_mul, nearest?_zero _ (denominator_pos _)]
      · refine hsame (nearest?_of_large hzero hlarge) (nearest?_of_large hzero ?_)
        simp only [tame]
        omega
    · have hkept : max (-((Nat.toDigits 10 d.coefficient).length : Int) - 400)
          (min 400 d.exponent) = d.exponent := by omega
      rw [tame, hkept]

end Decimal
end ExprLex
