import Mathlib.Algebra.Order.Ring.Nat
import ExprLex.Proofs.Printing

/-!
# Reading quoted text

What stands between the quotes can be read back character by character: a backslash begins an
escape that says itself how long it is, and any other character stands for itself. So no two texts
are quoted alike, whichever characters are taken to be printable. If no control character is, then
there is none in a quoted text.
-/
namespace ExprLex.Text

/-- The general category Cc. -/
def IsControl (c : Char) : Prop := c.toNat < 0x20 ∨ 0x7F ≤ c.toNat ∧ c.toNat ≤ 0x9F

instance : DecidablePred IsControl := fun _ => inferInstanceAs (Decidable (_ ∨ _ ∧ _))

def NoControl (text : List Char) : Prop := ∀ c ∈ text, ¬ IsControl c

instance : DecidablePred NoControl := fun text => List.decidableBAll (¬ IsControl ·) text

theorem noControl_append {a b : List Char} : NoControl (a ++ b) ↔ NoControl a ∧ NoControl b :=
  List.forall_mem_append

theorem noControl_cons {c : Char} {a : List Char} :
    NoControl (c :: a) ↔ ¬ IsControl c ∧ NoControl a := List.forall_mem_cons

theorem isPrintable_eq_false_of_isControl {c : Char} (h : IsControl c) : isPrintable c = false := by
  have hcodes : ∀ n < 0xA0, n < 0x20 ∨ 0x7F ≤ n → printableRanges.covers n = false := by
    decide +kernel
  have hcode : c.toNat < 0xA0 := by
    unfold IsControl at h
    omega
  exact hcodes c.toNat hcode (h.imp_right And.left)

theorem noControl_of_prints {text : List Char} (h : Prints text) : NoControl text := by
  intro c hc hcontrol
  have hfalse := isPrintable_eq_false_of_isControl hcontrol
  rw [h c hc] at hfalse
  cases hfalse

namespace Quoted

def hexValue (c : Char) : Nat := if c.isDigit then c.toNat - 48 else c.toNat - 87

def hexNumber (digits : List Char) : Nat := digits.foldl (fun n c => 16 * n + hexValue c) 0

/-- The character that is written by its number in `width` digits, and what is behind them. -/
def readCode (width : Nat) (text : List Char) : Char × List Char :=
  (Char.ofNat (hexNumber (text.take width)), text.drop width)

/-- The character of an escape, read from behind the backslash, and what is behind the escape. -/
def readEscape : List Char → Char × List Char
  | [] => ('\\', [])
  | 'n' :: rest => ('\n', rest)
  | 'r' :: rest => ('\r', rest)
  | 't' :: rest => ('\t', rest)
  | 'x' :: rest => readCode 2 rest
  | 'u' :: rest => readCode 4 rest
  | 'U' :: rest => readCode 8 rest
  | c :: rest => (c, rest)

/-- The first character of what stands between quotes, and what is written behind it. -/
def readFirst? : List Char → Option (Char × List Char)
  | [] => none
  | '\\' :: rest => some (readEscape rest)
  | c :: rest => some (c, rest)

theorem hexValue_hexDigit : ∀ k < 16, hexValue (hexDigit k) = k := by decide

theorem hex_length (width n : Nat) : (hex width n).length = width := by
  induction width generalizing n with
  | zero => rfl
  | succ width ih => rw [hex, List.length_append, ih, List.length_singleton]

theorem hexNumber_hex (width n : Nat) : hexNumber (hex width n) = n % 16 ^ width := by
  induction width generalizing n with
  | zero => simp [hex, hexNumber, Nat.mod_one]
  | succ width ih =>
    have hrest : hexNumber (hex width (n / 16)) = n / 16 % 16 ^ width := ih (n / 16)
    have hlast : hexValue (hexDigit (n % 16)) = n % 16 :=
      hexValue_hexDigit _ (Nat.mod_lt n (by decide))
    rw [hexNumber] at hrest ⊢
    rw [hex, List.foldl_append, hrest, List.foldl_cons, List.foldl_nil, hlast, Nat.pow_succ',
      Nat.mod_mul, Nat.add_comm]

theorem readCode_hex (width : Nat) {c : Char} (h : c.toNat < 16 ^ width) (rest : List Char) :
    readCode width (hex width c.toNat ++ rest) = (c, rest) := by
  have hlength := hex_length width c.toNat
  rw [readCode, List.take_left' hlength, List.drop_left' hlength, hexNumber_hex, Nat.mod_eq_of_lt h,
    Char.ofNat_toNat]

theorem readFirst?_escapeCode (c : Char) (rest : List Char) :
    readFirst? (escapeCode c.toNat ++ rest) = some (c, rest) := by
  rw [escapeCode]
  split
  · rename_i hbyte
    exact congrArg some (readCode_hex 2 hbyte rest)
  · split
    · rename_i hshort
      exact congrArg some (readCode_hex 4 hshort rest)
    · have hlong : c.toNat < 16 ^ 8 := c.val.toNat_lt
      exact congrArg some (readCode_hex 8 hlong rest)

theorem readFirst?_escapeWith (printable : Char → Bool) {quote : Char}
    (hquote : quote = '\'' ∨ quote = '"') (c : Char) (rest : List Char) :
    readFirst? (escapeWith printable quote c ++ rest) = some (c, rest) := by
  rw [escapeWith]
  split
  · rename_i h
    rcases h with rfl | rfl
    · rcases hquote with rfl | rfl <;> rfl
    · rfl
  · rename_i h
    split
    · subst c
      rfl
    · split
      · subst c
        rfl
      · split
        · subst c
          rfl
        · split
          · have hslash : c ≠ '\\' := fun hc => h (.inr hc)
            simp only [List.cons_append, List.nil_append, readFirst?]
          · exact readFirst?_escapeCode c rest

theorem escapes_injective (printable : Char → Bool) {quote : Char}
    (hquote : quote = '\'' ∨ quote = '"') {a b : List Char}
    (h : a.flatMap (escapeWith printable quote) = b.flatMap (escapeWith printable quote)) :
    a = b := by
  have hread : ∀ x text, readFirst? ((x :: text).flatMap (escapeWith printable quote)) =
      some (x, text.flatMap (escapeWith printable quote)) := fun x text => by
    rw [List.flatMap_cons, readFirst?_escapeWith printable hquote]
  induction a generalizing b with
  | nil =>
    cases b with
    | nil => rfl
    | cons y b =>
      have hfirst := hread y b
      rw [← h] at hfirst
      cases hfirst
  | cons x a ih =>
    have hfirst := hread x a
    rw [h] at hfirst
    cases b with
    | nil => cases hfirst
    | cons y b =>
      rw [hread, Option.some.injEq, Prod.mk.injEq] at hfirst
      rw [hfirst.1, ih hfirst.2.symm]

/-- No two texts are quoted alike. -/
theorem encodeWith_injective (printable : Char → Bool) :
    Function.Injective (encodeWith printable) := by
  intro a b h
  rw [encodeWith, encodeWith, List.cons.injEq] at h
  obtain ⟨hquote, hbody⟩ := h
  rw [hquote] at hbody
  exact escapes_injective printable (quoteFor_eq b) (List.append_cancel_right hbody)

theorem noControl_encodeWith {printable : Char → Bool}
    (hp : ∀ c, IsControl c → printable c = false) (text : List Char) :
    NoControl (encodeWith printable text) := by
  intro x hx hcontrol
  rcases mem_encodeWith hx with h | h
  · rw [isPrintable_eq_false_of_isControl hcontrol] at h
    cases h
  · rw [hp x hcontrol] at h
    cases h

end Quoted
end ExprLex.Text
