import Mathlib.Algebra.Order.Field.Rat
import Mathlib.Algebra.Order.Field.Basic
import Mathlib.Tactic.FieldSimp
import Mathlib.Tactic.Linarith
import Mathlib.Tactic.NormNum
import Mathlib.Tactic.Positivity
import ExprLex.Proofs.Rounding

/-!
# The nearest double

The rounding of a quotient, measured in units of the least positive double, is as near to it as any
number of at most 53 bits times a power of two, and where two are equally near, it is the one with
the even significand. It has a magnitude exactly if the quotient lies below the middle between the
greatest double and the next power of two.
-/
namespace ExprLex

theorem cast_pow2 (n : Nat) : ((pow2 n : Nat) : ℚ) = 2 ^ n := Nat.cast_pow 2 n

section Whole

variable {n d : Nat}

/-- What is cut off from a quotient in its whole part. -/
theorem div_sub_whole (hd : 0 < d) : (n : ℚ) / d - ((n / d : Nat) : ℚ) = ((n % d : Nat) : ℚ) / d := by
  have hpos : (0 : ℚ) < d := Nat.cast_pos.mpr hd
  have hsplit : (d : ℚ) * ((n / d : Nat) : ℚ) + ((n % d : Nat) : ℚ) = n := by
    exact_mod_cast Nat.div_add_mod n d
  rw [← hsplit]
  field_simp
  ring

/-- A quotient is at most a half away from what it is rounded to, and if it is a half, then that is
even. -/
theorem roundHalfEven_spec (hd : 0 < d) :
    |(n : ℚ) / d - (roundHalfEven n d : Nat)| ≤ 1 / 2 ∧
      (|(n : ℚ) / d - (roundHalfEven n d : Nat)| = 1 / 2 → roundHalfEven n d % 2 = 0) := by
  have hpos : (0 : ℚ) < d := Nat.cast_pos.mpr hd
  have hwhole := div_sub_whole (n := n) hd
  generalize hrest : ((n % d : Nat) : ℚ) / d = rest at hwhole
  have hrest' : ((n % d : Nat) : ℚ) = rest * d := by
    rw [← hrest]
    field_simp
  have hnonneg : 0 ≤ rest := by
    rw [← hrest]
    positivity
  have hbelow : 2 * (n % d) < d ↔ rest < 1 / 2 := by
    rw [← Nat.cast_lt (α := ℚ), Nat.cast_mul, hrest']
    constructor <;> intro h <;> push_cast at * <;> nlinarith
  have habove : d < 2 * (n % d) ↔ 1 / 2 < rest := by
    rw [← Nat.cast_lt (α := ℚ), Nat.cast_mul, hrest']
    constructor <;> intro h <;> push_cast at * <;> nlinarith
  have hone : rest < 1 := by
    have hmod : ((n % d : Nat) : ℚ) < d := Nat.cast_lt.mpr (Nat.mod_lt n hd)
    rw [hrest'] at hmod
    nlinarith
  simp only [roundHalfEven, hbelow, habove]
  split_ifs with hlow hhigh
  · rw [hwhole, abs_of_nonneg hnonneg]
    exact ⟨hlow.le, fun h => absurd h hlow.ne⟩
  · rw [Nat.cast_add, Nat.cast_one, ← sub_sub, hwhole, abs_of_neg (by linarith)]
    exact ⟨by linarith, fun h => by linarith⟩
  · have hhalf : rest = 1 / 2 := le_antisymm (not_lt.mp hhigh) (not_lt.mp hlow)
    refine ⟨?_, fun _ => by omega⟩
    rw [Nat.cast_add, ← sub_sub, hwhole, hhalf]
    rcases Nat.mod_two_eq_zero_or_one (n / d) with h | h <;> rw [h] <;> norm_num [abs_le]

/-- A whole number that is at most a half away is nearest. -/
theorem nearest_of_half {t : ℚ} {m : Nat} (h : |t - m| ≤ 1 / 2) (k : Nat) :
    |t - m| ≤ |t - k| ∧ (k ≠ m → |t - k| = |t - m| → |t - m| = 1 / 2) := by
  by_cases hk : k = m
  · subst hk
    exact ⟨le_rfl, fun hne => absurd rfl hne⟩
  · have happart : (1 : ℚ) ≤ |(k : ℚ) - m| := by
      have hint : (1 : Int) ≤ |(k : Int) - m| := Int.one_le_abs (by omega)
      exact_mod_cast hint
    have htriangle := abs_sub_le (k : ℚ) t m
    rw [abs_sub_comm (k : ℚ) t] at htriangle
    exact ⟨by linarith, fun _ heq => by linarith⟩

theorem le_of_half {t : ℚ} {m bound : Nat} (h : |t - m| ≤ 1 / 2) (ht : t < bound) : m ≤ bound := by
  by_contra hlt
  have hnext : ((bound + 1 : Nat) : ℚ) ≤ m := Nat.cast_le.mpr (Nat.lt_of_not_le hlt)
  have hnear := (abs_le.mp h).1
  push_cast at hnext
  linarith

theorem ge_of_half {t : ℚ} {m bound : Nat} (h : |t - m| ≤ 1 / 2) (ht : bound ≤ t) : bound ≤ m := by
  by_contra hlt
  have hnext : ((m + 1 : Nat) : ℚ) ≤ bound := Nat.cast_le.mpr (Nat.lt_of_not_le hlt)
  have hnear := (abs_le.mp h).2
  push_cast at hnext
  linarith

/-- The same for the multiples of any step. -/
theorem nearest_on_grid {t step : ℚ} (hstep : 0 < step) {m : Nat} (h : |t / step - m| ≤ 1 / 2)
    (k : Nat) : |t - m * step| ≤ |t - k * step| ∧
      (k ≠ m → |t - k * step| = |t - m * step| → |t / step - m| = 1 / 2) := by
  have hscaled (j : Nat) : |t - j * step| = |t / step - j| * step := by
    rw [← abs_of_pos hstep, ← abs_mul, abs_of_pos hstep, sub_mul, div_mul_cancel₀ t hstep.ne']
  obtain ⟨hle, htie⟩ := nearest_of_half h k
  rw [hscaled, hscaled]
  refine ⟨mul_le_mul_of_nonneg_right hle hstep.le, fun hne heq => ?_⟩
  exact htie hne (mul_right_cancel₀ hstep.ne' heq)

end Whole

namespace Magnitude

/-- A number of units in the form of a double, but for the bound on the exponent, is nearest to `t`
among all numbers of 53 bits times a power of two; of two that are equally near it is the even
one. -/
structure NearestUnits (t : ℚ) (significand exponent : Nat) : Prop where
  bits : significand < pow2 53
  normal : exponent = 0 ∨ pow2 52 ≤ significand
  nearest : ∀ m f : Nat, m < pow2 53 →
    |t - significand * 2 ^ exponent| ≤ |t - m * 2 ^ f|
  even : ∀ m f : Nat, m < pow2 53 → (m : ℚ) * 2 ^ f ≠ significand * 2 ^ exponent →
    |t - m * 2 ^ f| = |t - significand * 2 ^ exponent| → significand % 2 = 0

variable {num den : Nat}

theorem lt_of_scale (whole : Nat) : whole < pow2 (53 + scale whole) := by
  have hlog : whole < pow2 (whole.log2 + 1) := Nat.lt_log2_self
  refine hlog.trans_le (Nat.pow_le_pow_right Nat.two_pos ?_)
  unfold scale
  omega

theorem le_of_scale {whole : Nat} (h : 0 < scale whole) : pow2 (52 + scale whole) ≤ whole := by
  have hlog : 52 + scale whole = whole.log2 := by
    unfold scale at h ⊢
    omega
  have hne : whole ≠ 0 := by
    rintro rfl
    exact absurd h (by decide)
  rw [hlog]
  exact Nat.log2_self_le hne

/-- What is scaled has at most 53 bits before the point, and 53 if it has been made smaller. -/
theorem scale_bounds (num : Nat) (hden : 0 < den) :
    (num : ℚ) / den < pow2 53 * 2 ^ scale (num / den) ∧
      (0 < scale (num / den) → pow2 52 * 2 ^ scale (num / den) ≤ (num : ℚ) / den) := by
  have hpos : (0 : ℚ) < den := Nat.cast_pos.mpr hden
  have hwhole := div_sub_whole (n := num) hden
  have hnonneg : 0 ≤ ((num % den : Nat) : ℚ) / den := by positivity
  have hone : ((num % den : Nat) : ℚ) / den < 1 := by
    rw [div_lt_one hpos]
    exact Nat.cast_lt.mpr (Nat.mod_lt num hden)
  generalize num / den = whole at hwhole ⊢
  constructor
  · have hlt : ((whole + 1 : Nat) : ℚ) ≤ (pow2 (53 + scale whole) : Nat) :=
      Nat.cast_le.mpr (lt_of_scale whole)
    rw [pow2_add, Nat.cast_mul, cast_pow2 (scale whole), Nat.cast_add, Nat.cast_one] at hlt
    linarith
  · intro hscale
    have hle : ((pow2 (52 + scale whole) : Nat) : ℚ) ≤ whole := Nat.cast_le.mpr (le_of_scale hscale)
    rw [pow2_add, Nat.cast_mul, cast_pow2 (scale whole)] at hle
    linarith

theorem carry_eq (significand exponent : Nat) :
    ((carry significand exponent).1 : ℚ) * 2 ^ (carry significand exponent).2 =
      significand * 2 ^ exponent := by
  unfold carry
  split
  · rename_i hfull
    have hdouble : (pow2 53 : Nat) = pow2 52 * 2 := rfl
    rw [hfull, hdouble, pow_succ]
    push_cast
    ring
  · rfl

theorem carry_even {significand : Nat} (h : significand % 2 = 0) (exponent : Nat) :
    (carry significand exponent).1 % 2 = 0 := by
  unfold carry
  split
  · exact (by decide : pow2 52 % 2 = 0)
  · exact h

/-- A significand that is within its bounds but for the carry is within them after it. -/
theorem carry_normal {significand exponent : Nat} (hle : significand ≤ pow2 53)
    (hge : 0 < exponent → pow2 52 ≤ significand) :
    (carry significand exponent).1 < pow2 53 ∧
      ((carry significand exponent).2 = 0 ∨ pow2 52 ≤ (carry significand exponent).1) := by
  unfold carry
  split
  · exact ⟨(by decide : pow2 52 < pow2 53), .inr le_rfl⟩
  · rename_i hne
    refine ⟨lt_of_le_of_ne hle hne, ?_⟩
    rcases Nat.eq_zero_or_pos exponent with hzero | hpos
    · exact .inl hzero
    · exact .inr (hge hpos)

/-- A number of 53 bits times a smaller power of two is below all numbers on the grid that have 53
bits. -/
theorem lt_of_finer {m f exponent : Nat} (hm : m < pow2 53) (hf : f < exponent) :
    (m : ℚ) * 2 ^ f < pow2 52 * 2 ^ exponent := by
  obtain ⟨k, rfl⟩ := Nat.exists_eq_add_of_lt hf
  have hbits : (m : ℚ) < pow2 52 * 2 := by
    have hdouble : (pow2 53 : Nat) = pow2 52 * 2 := rfl
    rw [hdouble] at hm
    exact_mod_cast hm
  have hstep : (2 : ℚ) ^ f * 2 ≤ 2 ^ (f + k + 1) := by
    rw [← pow_succ]
    exact pow_le_pow_right₀ one_le_two (by omega)
  have hpos : (0 : ℚ) < 2 ^ f := by positivity
  have hfifty : (0 : ℚ) < (pow2 52 : Nat) := Nat.cast_pos.mpr (pow2_pos 52)
  calc (m : ℚ) * 2 ^ f < pow2 52 * 2 * 2 ^ f := mul_lt_mul_of_pos_right hbits hpos
    _ = pow2 52 * (2 ^ f * 2) := by ring
    _ ≤ pow2 52 * 2 ^ (f + k + 1) := mul_le_mul_of_nonneg_left hstep hfifty.le

theorem on_grid (m : Nat) {f exponent : Nat} (h : exponent ≤ f) :
    (m : ℚ) * 2 ^ f = ((m * 2 ^ (f - exponent) : Nat) : ℚ) * 2 ^ exponent := by
  rw [Nat.cast_mul, Nat.cast_pow, Nat.cast_ofNat, mul_assoc, ← pow_add, Nat.sub_add_cancel h]

/-- Of the numbers of 53 bits times a power of two, those that are not on the grid are farther away
than one that is. -/
theorem nearest_of_grid {t : ℚ} {significand exponent : Nat}
    (hhalf : |t / 2 ^ exponent - significand| ≤ 1 / 2)
    (htie : |t / 2 ^ exponent - significand| = 1 / 2 → significand % 2 = 0)
    (hge : 0 < exponent → pow2 52 * 2 ^ exponent ≤ t) {m f : Nat} (hm : m < pow2 53) :
    |t - significand * 2 ^ exponent| ≤ |t - m * 2 ^ f| ∧
      ((m : ℚ) * 2 ^ f ≠ significand * 2 ^ exponent →
        |t - m * 2 ^ f| = |t - significand * 2 ^ exponent| → significand % 2 = 0) := by
  have hstep : (0 : ℚ) < 2 ^ exponent := by positivity
  by_cases hf : exponent ≤ f
  · rw [on_grid m hf]
    obtain ⟨hle, hsame⟩ := nearest_on_grid hstep hhalf (m * 2 ^ (f - exponent))
    refine ⟨hle, fun hne heq => htie (hsame ?_ heq)⟩
    intro hk
    exact hne (by rw [hk])
  · have hfiner : f < exponent := Nat.lt_of_not_le hf
    have hbelow := lt_of_finer hm hfiner
    have hgrid := hge (Nat.zero_lt_of_lt hfiner)
    have hnear := (nearest_on_grid hstep hhalf (pow2 52)).1
    rw [abs_of_nonneg (sub_nonneg.mpr hgrid)] at hnear
    have hfar : |t - m * 2 ^ f| = t - m * 2 ^ f := abs_of_nonneg (by linarith)
    rw [hfar]
    exact ⟨by linarith, fun _ heq => by linarith⟩

theorem nearestUnits_carry (num : Nat) (hden : 0 < den) :
    let exponent := scale (num / den)
    let rounded := carry (roundHalfEven num (den * pow2 exponent)) exponent
    NearestUnits ((num : ℚ) / den) rounded.1 rounded.2 := by
  intro exponent rounded
  obtain ⟨hlt, hge⟩ := scale_bounds num hden
  have hstep : (0 : ℚ) < 2 ^ exponent := by positivity
  have hscaled : (num : ℚ) / den / 2 ^ exponent = num / ((den * pow2 exponent : Nat) : ℚ) := by
    rw [div_div, Nat.cast_mul, cast_pow2]
  obtain ⟨hhalf, htie⟩ :=
    roundHalfEven_spec (n := num) (Nat.mul_pos hden (pow2_pos exponent))
  rw [← hscaled] at hhalf htie
  have hquotient : (num : ℚ) / den / 2 ^ exponent < (pow2 53 : Nat) := (div_lt_iff₀ hstep).mpr hlt
  have hle : roundHalfEven num (den * pow2 exponent) ≤ pow2 53 := le_of_half hhalf hquotient
  have hfull (hpos : 0 < exponent) : pow2 52 ≤ roundHalfEven num (den * pow2 exponent) :=
    ge_of_half hhalf ((le_div_iff₀ hstep).mpr (hge hpos))
  obtain ⟨hbits, hnormal⟩ := carry_normal hle hfull
  have hnearest {m f : Nat} (hm : m < pow2 53) := nearest_of_grid (f := f) hhalf htie hge hm
  refine ⟨hbits, hnormal, fun m f hm => ?_, fun m f hm => ?_⟩
  · rw [carry_eq]
    exact (hnearest hm).1
  · rw [carry_eq]
    exact fun hne heq => carry_even ((hnearest hm).2 hne heq) _

theorem cast_greatest : ((pow2 53 - 1 : Nat) : ℚ) = pow2 53 - 1 := by
  rw [Nat.cast_sub (pow2_pos 53), Nat.cast_one]

theorem first_past (top : Nat) : (pow2 52 : ℚ) * 2 ^ (top + 1) = pow2 53 * 2 ^ top := by
  have hdouble : (pow2 53 : Nat) = pow2 52 * 2 := rfl
  rw [hdouble, pow_succ]
  push_cast
  ring

section Top

variable {t : ℚ} {significand exponent : Nat} (h : NearestUnits t significand exponent) (top : Nat)
include h

/-- The last number up to the exponent `top` is no nearer than what is nearest. -/
theorem NearestUnits.last_upto :
    |t - significand * 2 ^ exponent| ≤ |t - (pow2 53 - 1) * 2 ^ top| := by
  rw [← cast_greatest]
  exact h.nearest (pow2 53 - 1) top (Nat.sub_lt (pow2_pos 53) Nat.one_pos)

/-- Neither is the first number past it, and if it is as near, the other one is even. -/
theorem NearestUnits.first_past :
    |t - significand * 2 ^ exponent| ≤ |t - pow2 53 * 2 ^ top| ∧
      ((pow2 53 : ℚ) * 2 ^ top ≠ significand * 2 ^ exponent →
        |t - pow2 53 * 2 ^ top| = |t - significand * 2 ^ exponent| → significand % 2 = 0) := by
  rw [← Magnitude.first_past]
  exact ⟨h.nearest (pow2 52) (top + 1) (by decide), h.even (pow2 52) (top + 1) (by decide)⟩

theorem NearestUnits.middle_le (hlt : top < exponent) : (pow2 53 - 1 / 2) * 2 ^ top ≤ t := by
  have hstep : (0 : ℚ) < 2 ^ top := by positivity
  have hfar : (pow2 53 : ℚ) * 2 ^ top ≤ significand * 2 ^ exponent := by
    rw [← Magnitude.first_past]
    have hbits : (pow2 52 : ℚ) ≤ significand :=
      Nat.cast_le.mpr (h.normal.resolve_left (Nat.ne_zero_of_lt hlt))
    have hpower : (2 : ℚ) ^ (top + 1) ≤ 2 ^ exponent := pow_le_pow_right₀ one_le_two hlt
    exact mul_le_mul hbits hpower (by positivity) (by positivity)
  by_contra hbelow
  have hless := not_le.mp hbelow
  have hdistance := (neg_le_abs (t - significand * 2 ^ exponent)).trans (h.last_upto top)
  rcases abs_cases (t - (pow2 53 - 1) * 2 ^ top) with ⟨heq, -⟩ | ⟨heq, -⟩ <;>
    rw [heq] at hdistance <;> nlinarith

theorem NearestUnits.lt_middle (hle : exponent ≤ top) : t < (pow2 53 - 1 / 2) * 2 ^ top := by
  have hstep : (0 : ℚ) < 2 ^ top := by positivity
  have hpower : (2 : ℚ) ^ exponent ≤ 2 ^ top := pow_le_pow_right₀ one_le_two hle
  have hbits : significand ≤ pow2 53 - 1 := Nat.le_sub_one_of_lt h.bits
  have hnear : (significand : ℚ) * 2 ^ exponent ≤ (pow2 53 - 1) * 2 ^ top := by
    rw [← cast_greatest]
    exact mul_le_mul (Nat.cast_le.mpr hbits) hpower (by positivity) (Nat.cast_nonneg _)
  obtain ⟨hpast, heven⟩ := h.first_past top
  by_contra hnot
  have habove := not_lt.mp hnot
  have hdistance := (le_abs_self (t - significand * 2 ^ exponent)).trans hpast
  -- only the middle itself is left, and there the even neighbour would have been taken
  obtain ⟨hmiddle, hgreatest⟩ : t = (pow2 53 - 1 / 2) * 2 ^ top ∧
      (significand : ℚ) * 2 ^ exponent = (pow2 53 - 1) * 2 ^ top := by
    rcases abs_cases (t - pow2 53 * 2 ^ top) with ⟨heq, -⟩ | ⟨heq, -⟩ <;>
      rw [heq] at hdistance <;> constructor <;> linarith
  have hodd : significand = pow2 53 - 1 := by
    have hge : (pow2 53 - 1 : ℚ) * 2 ^ top ≤ significand * 2 ^ top :=
      hgreatest.ge.trans (mul_le_mul_of_nonneg_left hpower (Nat.cast_nonneg _))
    rw [← cast_greatest] at hge
    exact le_antisymm hbits (Nat.cast_le.mp (le_of_mul_le_mul_right hge hstep))
  rw [hgreatest, hmiddle] at heven
  have hzero : significand % 2 = 0 := by
    apply heven
    · intro heq
      linarith
    · rw [abs_of_neg (by linarith), abs_of_pos (by linarith)]
      ring
  rw [hodd] at hzero
  exact absurd hzero (by decide)

/-- A number that is nearest has an exponent past `top` exactly if what it is nearest to is not below
the middle between the last number up to `top` and the first one past it. -/
theorem NearestUnits.lt_exponent_iff : top < exponent ↔ (pow2 53 - 1 / 2) * 2 ^ top ≤ t := by
  constructor
  · exact h.middle_le top
  · intro habove
    by_contra hnot
    exact absurd habove (not_le.mpr (h.lt_middle top (Nat.le_of_not_lt hnot)))

end Top

/-- The exact number that a magnitude stands for. -/
def value (x : Magnitude) : ℚ := x.significand * 2 ^ x.exponent / 2 ^ 1074

/-- The numbers that are magnitudes of doubles: at most 53 bits times a power of two. -/
def IsDouble (y : ℚ) : Prop :=
  ∃ m f : Nat, m < 2 ^ 53 ∧ f ≤ 2045 ∧ y = m * 2 ^ f / 2 ^ 1074

/-- No double is nearer to the number, and if another one is as near, the significand is even. -/
structure IsNearest (q : ℚ) (x : Magnitude) : Prop where
  nearest : ∀ y, IsDouble y → |q - x.value| ≤ |q - y|
  even : ∀ y, IsDouble y → y ≠ x.value → |q - y| = |q - x.value| → x.significand % 2 = 0

theorem isDouble_value (x : Magnitude) : IsDouble x.value :=
  ⟨x.significand, x.exponent, x.canonical.1, x.canonical.2.1, rfl⟩

theorem abs_sub_units (q : ℚ) (m f : Nat) :
    |q * 2 ^ 1074 - m * 2 ^ f| = |q - m * 2 ^ f / 2 ^ 1074| * 2 ^ 1074 := by
  have hunit : (0 : ℚ) < 2 ^ 1074 := by positivity
  generalize (2 : ℚ) ^ 1074 = unit at hunit ⊢
  rw [← abs_of_pos hunit, ← abs_mul, abs_of_pos hunit, sub_mul, div_mul_cancel₀ _ hunit.ne']

theorem NearestUnits.isNearest {q : ℚ} {x : Magnitude}
    (h : NearestUnits (q * 2 ^ 1074) x.significand x.exponent) : x.IsNearest q := by
  have hunit : (0 : ℚ) < 2 ^ 1074 := by positivity
  constructor
  · rintro y ⟨m, f, hm, -, rfl⟩
    have hle := h.nearest m f hm
    rw [abs_sub_units, abs_sub_units] at hle
    exact le_of_mul_le_mul_right hle hunit
  · rintro y ⟨m, f, hm, -, rfl⟩ hne heq
    apply h.even m f hm
    · intro hsame
      exact hne (congrArg (· / 2 ^ 1074) hsame)
    · rw [abs_sub_units, abs_sub_units, heq]
      rfl

theorem canonical?_eq_some {significand exponent : Nat} {x : Magnitude}
    (h : canonical? significand exponent = some x) :
    x.significand = significand ∧ x.exponent = exponent := by
  unfold canonical? at h
  split at h <;> cases h
  exact ⟨rfl, rfl⟩

/-- What a quotient is rounded to before the exponent is looked at. -/
theorem exists_nearestUnits (num : Nat) (hden : 0 < den) : ∃ significand exponent,
    NearestUnits ((num : ℚ) / den * 2 ^ 1074) significand exponent ∧
      nearest? num den = canonical? significand exponent := by
  have hrounds := nearestUnits_carry (num * pow2 1074) hden
  have hunits : ((num * pow2 1074 : Nat) : ℚ) / den = (num : ℚ) / den * 2 ^ 1074 := by
    rw [Nat.cast_mul, cast_pow2, mul_div_right_comm]
  rw [hunits] at hrounds
  exact ⟨_, _, hrounds, nearest?_eq rfl rfl⟩

/-- The middle between the greatest double and the next power of two, in units. -/
theorem overflow_units : (pow2 53 - 1 / 2 : ℚ) * 2 ^ 2045 = (2 ^ 1024 - 2 ^ 970) * 2 ^ 1074 := by
  have hpower : (2 : ℚ) ^ 1024 = 2 ^ 970 * 2 ^ 54 := by rw [← pow_add]
  have htop : (2 : ℚ) ^ 2045 = 2 ^ 970 * 2 * 2 ^ 1074 := by rw [← pow_succ, ← pow_add]
  rw [cast_pow2, hpower, htop]
  generalize (2 : ℚ) ^ 970 = halfStep, (2 : ℚ) ^ 1074 = unit
  ring

theorem nearest?_eq_none_iff (hden : 0 < den) :
    nearest? num den = none ↔ 2 ^ 1024 - 2 ^ 970 ≤ (num : ℚ) / den := by
  obtain ⟨significand, exponent, hrounds, heq⟩ := exists_nearestUnits num hden
  have hunit : (0 : ℚ) < 2 ^ 1074 := by positivity
  have hiff := hrounds.lt_exponent_iff 2045
  rw [overflow_units, mul_le_mul_iff_left₀ hunit] at hiff
  rw [heq, ← hiff, canonical?]
  constructor
  · intro hnone
    by_contra hle
    rw [dif_pos ⟨hrounds.bits, Nat.le_of_not_lt hle, hrounds.normal⟩] at hnone
    cases hnone
  · intro hlt
    exact dif_neg fun hcanonical => absurd hcanonical.2.1 (Nat.not_le_of_lt hlt)

theorem isNearest_of_nearest? (hden : 0 < den) {x : Magnitude} (h : nearest? num den = some x) :
    x.IsNearest ((num : ℚ) / den) := by
  obtain ⟨significand, exponent, hrounds, heq⟩ := exists_nearestUnits num hden
  obtain ⟨rfl, rfl⟩ := canonical?_eq_some (heq ▸ h)
  exact hrounds.isNearest

theorem IsNearest.middle_le {q : ℚ} {x y : Magnitude} (h : x.IsNearest q)
    (hlt : y.value < x.value) : (x.value + y.value) / 2 ≤ q := by
  have hle := (neg_le_abs (q - x.value)).trans (h.nearest _ y.isDouble_value)
  rcases abs_cases (q - y.value) with ⟨heq, -⟩ | ⟨heq, -⟩ <;> rw [heq] at hle <;> linarith

theorem IsNearest.le_middle {q : ℚ} {x y : Magnitude} (h : x.IsNearest q)
    (hlt : x.value < y.value) : q ≤ (x.value + y.value) / 2 := by
  have hle := (le_abs_self (q - x.value)).trans (h.nearest _ y.isDouble_value)
  rcases abs_cases (q - y.value) with ⟨heq, -⟩ | ⟨heq, -⟩ <;> rw [heq] at hle <;> linarith

/-- Between two numbers with even significands there is another one. -/
theorem step_lt {m exponent k f : Nat} (hm : m % 2 = 0) (hk : k % 2 = 0)
    (hnormal : exponent = 0 ∨ pow2 52 ≤ m) (hbits : k < pow2 53)
    (hlt : (m : ℚ) * 2 ^ exponent < k * 2 ^ f) :
    ((m + 1 : Nat) : ℚ) * 2 ^ exponent < k * 2 ^ f := by
  have hstep : (0 : ℚ) < 2 ^ exponent := by positivity
  by_cases hf : exponent ≤ f
  · rw [on_grid k hf] at hlt ⊢
    have hnext : m < k * 2 ^ (f - exponent) := Nat.cast_lt.mp (lt_of_mul_lt_mul_right hlt hstep.le)
    have heven : k * 2 ^ (f - exponent) % 2 = 0 := by rw [Nat.mul_mod, hk, Nat.zero_mul]
    have hskip : m + 1 < k * 2 ^ (f - exponent) := by omega
    exact mul_lt_mul_of_pos_right (Nat.cast_lt.mpr hskip) hstep
  · have hfiner : f < exponent := Nat.lt_of_not_le hf
    have hfull : pow2 52 ≤ m := hnormal.resolve_left (Nat.ne_zero_of_lt hfiner)
    have hbelow := lt_of_finer hbits hfiner
    have hgrid : (pow2 52 : ℚ) * 2 ^ exponent ≤ m * 2 ^ exponent :=
      mul_le_mul_of_nonneg_right (Nat.cast_le.mpr hfull) hstep.le
    linarith

theorem eq_of_value {x y : Magnitude} (h : x.value = y.value) : x = y := by
  have hunit : (0 : ℚ) < 2 ^ 1074 := by positivity
  have hunits : x.units = y.units := by
    have hcast : (x.significand : ℚ) * 2 ^ x.exponent = y.significand * 2 ^ y.exponent :=
      (div_left_inj' hunit.ne').mp h
    rw [← cast_pow2, ← cast_pow2] at hcast
    exact_mod_cast hcast
  have hexponent : x.exponent = y.exponent := by rw [← scale_units x, hunits, scale_units]
  have hsignificand : x.significand = y.significand := by
    rw [units, units, hexponent] at hunits
    exact Nat.eq_of_mul_eq_mul_right (pow2_pos _) hunits
  cases x
  cases y
  cases hexponent
  cases hsignificand
  rfl

theorem exists_isDouble_between {x y : Magnitude} (hx : x.significand % 2 = 0)
    (hy : y.significand % 2 = 0) (hlt : x.value < y.value) :
    ∃ z, IsDouble z ∧ x.value < z ∧ z < y.value := by
  have hunit : (0 : ℚ) < 2 ^ 1074 := by positivity
  have hbits : x.significand + 1 < pow2 53 := by
    have hfull : pow2 53 % 2 = 0 := by decide
    have := x.canonical.1
    omega
  refine ⟨_, ⟨x.significand + 1, x.exponent, hbits, x.canonical.2.1, rfl⟩, ?_, ?_⟩
  · refine div_lt_div_of_pos_right (mul_lt_mul_of_pos_right ?_ (by positivity)) hunit
    exact Nat.cast_lt.mpr (Nat.lt_succ_self _)
  · refine div_lt_div_of_pos_right ?_ hunit
    exact step_lt hx hy x.canonical.2.2 y.canonical.1
      ((div_lt_div_iff_of_pos_right hunit).mp hlt)

/-- There is one nearest double: of two that are equally near, not both are even. -/
theorem IsNearest.unique {q : ℚ} {x y : Magnitude} (hx : x.IsNearest q) (hy : y.IsNearest q) :
    x = y := by
  apply eq_of_value
  by_contra hne
  wlog hlt : x.value < y.value generalizing x y
  · exact this hy hx (Ne.symm hne) (lt_of_le_of_ne (not_lt.mp hlt) (Ne.symm hne))
  have hmiddle : q = (x.value + y.value) / 2 := by
    have hlow := hy.middle_le hlt
    have hhigh := hx.le_middle hlt
    linarith
  have hleft : |q - x.value| = (y.value - x.value) / 2 := by
    rw [hmiddle, abs_of_pos (by linarith)]
    ring
  have hright : |q - y.value| = (y.value - x.value) / 2 := by
    rw [hmiddle, abs_of_neg (by linarith)]
    ring
  have hxeven := hx.even _ y.isDouble_value (Ne.symm hne) (hright.trans hleft.symm)
  have hyeven := hy.even _ x.isDouble_value hne (hleft.trans hright.symm)
  obtain ⟨z, hz, hbehind, hbefore⟩ := exists_isDouble_between hxeven hyeven hlt
  have hnear := hx.nearest z hz
  have hcloser : |q - z| < (y.value - x.value) / 2 := by
    rw [abs_lt]
    constructor <;> linarith
  linarith

/-- The smaller number has no greater magnitude next to it: were they the other way round, both
numbers would be in the middle. -/
theorem IsNearest.value_le {q q' : ℚ} {x y : Magnitude} (hx : x.IsNearest q) (hy : y.IsNearest q')
    (hle : q ≤ q') : x.value ≤ y.value := by
  by_contra hlt
  have hbelow : y.value < x.value := not_le.mp hlt
  have hlow := hx.middle_le hbelow
  have hhigh := hy.le_middle hbelow
  obtain rfl : q = q' := le_antisymm hle (by linarith)
  exact hbelow.ne (congrArg value (hy.unique hx))

end Magnitude

namespace Binary64

/-- The double has the sign, and the magnitude is the one nearest to the number, or infinity from
the middle between the greatest double and the next power of two on. -/
inductive Rounds (negative : Bool) (q : ℚ) : Binary64 → Prop
  | finite {x : Magnitude} : q < 2 ^ 1024 - 2 ^ 970 → x.IsNearest q →
      Rounds negative q (.finite negative x)
  | infinite : 2 ^ 1024 - 2 ^ 970 ≤ q → Rounds negative q (.infinite negative)

/-- The order of doubles without a sign. -/
inductive AtMost : Binary64 → Binary64 → Prop
  | finite {x y : Magnitude} : x.value ≤ y.value → AtMost (.finite false x) (.finite false y)
  | top {x : Magnitude} : AtMost (.finite false x) (.infinite false)
  | infinite : AtMost (.infinite false) (.infinite false)

variable {num den : Nat}

theorem nearest_rounds (negative : Bool) (hden : 0 < den) :
    Rounds negative ((num : ℚ) / den) (nearest negative num den) := by
  have hiff : Magnitude.nearest? num den = none ↔ 2 ^ 1024 - 2 ^ 970 ≤ (num : ℚ) / den :=
    Magnitude.nearest?_eq_none_iff hden
  rw [nearest]
  cases hx : Magnitude.nearest? num den with
  | none => exact .infinite (hiff.mp hx)
  | some x =>
    rw [hx] at hiff
    have hbelow : (num : ℚ) / den < 2 ^ 1024 - 2 ^ 970 := not_le.mp (by simpa using hiff)
    exact .finite hbelow (Magnitude.isNearest_of_nearest? hden hx)

/-- There is one double that is the rounding of a number, with a sign. -/
theorem Rounds.unique {negative : Bool} {q : ℚ} {v w : Binary64} (hv : Rounds negative q v)
    (hw : Rounds negative q w) : v = w := by
  cases hv with
  | finite hbelow hx =>
    cases hw with
    | finite _ hy => rw [hx.unique hy]
    | infinite hlarge => exact absurd hlarge (not_le.mpr hbelow)
  | infinite hlarge =>
    cases hw with
    | finite hbelow _ => exact absurd hlarge (not_le.mpr hbelow)
    | infinite => rfl

theorem Rounds.atMost {q q' : ℚ} {v w : Binary64} (hv : Rounds false q v)
    (hw : Rounds false q' w) (hle : q ≤ q') : AtMost v w := by
  cases hw with
  | finite hbelow hy =>
    cases hv with
    | finite _ hx => exact .finite (hx.value_le hy hle)
    | infinite hlarge => exact absurd (hlarge.trans hle) (not_le.mpr hbelow)
  | infinite _ =>
    cases hv with
    | finite => exact .top
    | infinite => exact .infinite

end Binary64
end ExprLex
