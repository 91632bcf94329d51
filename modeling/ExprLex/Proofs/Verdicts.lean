import ExprLex.Run

/-!
# Verdicts by rules

What a text outside quotes amounts to is told by rules that cover all texts and exclude each
other, so that the order in which they are tried does not matter. The text of quotes is never a
fault.
-/
namespace ExprLex.Verdict
open Text

inductive Stands : List Char → Verdict → Prop
  | nothing : Stands [] .nothing
  | number {text : List Char} : Numeral.isNumeral text = true → Numeral.hasDigit text = true →
      Stands text (.token (.number (Numeral.value text)))
  | digitless {text : List Char} : Numeral.isNumeral text = true →
      Numeral.hasDigit text = false → Stands text (.fault (.digitlessNumeral (String.ofList text)))
  | name {x : Char} {rest : List Char} : Numeral.isNumeral (x :: rest) = false →
      isLetter x = true → Stands (x :: rest) (.token (.name (String.ofList (x :: rest))))
  | symbol {x : Char} : Numeral.isNumeral [x] = false → isLetter x = false →
      Stands [x] (.token (.symbol x))
  | string {x y : Char} {rest : List Char} : Numeral.isNumeral (x :: y :: rest) = false →
      isLetter x = false →
      Stands (x :: y :: rest) (.token (.string (String.ofList (x :: y :: rest))))

theorem stands_ofBare (text : List Char) : Stands text (ofBare text) := by
  cases text with
  | nil => exact .nothing
  | cons x rest =>
    cases hnumeral : Numeral.isNumeral (x :: rest) with
    | true =>
      rw [ofBare, if_pos hnumeral, ofNumeral]
      cases hdigit : Numeral.hasDigit (x :: rest) with
      | true =>
        rw [Numeral.value?, if_pos hdigit]
        exact .number hnumeral hdigit
      | false =>
        rw [Numeral.value?, hdigit]
        exact .digitless hnumeral hdigit
    | false =>
      rw [ofBare, hnumeral, if_neg Bool.false_ne_true]
      cases hletter : isLetter x with
      | true => exact .name hnumeral hletter
      | false =>
        cases rest with
        | nil => exact .symbol hnumeral hletter
        | cons y rest => exact .string hnumeral hletter

theorem Stands.unique {text : List Char} {v w : Verdict} (h : Stands text v)
    (h' : Stands text w) : v = w := by
  have hnil : Numeral.isNumeral [] = false := rfl
  cases h <;> cases h' <;> simp_all

theorem stands_iff {text : List Char} {v : Verdict} : Stands text v ↔ ofBare text = v := by
  constructor
  · intro h
    exact (stands_ofBare text).unique h
  · rintro rfl
    exact stands_ofBare text

theorem ofQuoted_eq {text : List Char} (h : text ≠ []) :
    ofQuoted text = .token (.string (String.ofList text)) := by
  rw [ofQuoted, if_neg (mt List.isEmpty_iff.mp h)]

theorem ofQuoted_ne_fault (text : List Char) (f : Fault) : ofQuoted text ≠ .fault f := by
  cases text with
  | nil => exact Verdict.noConfusion
  | cons x rest => exact Verdict.noConfusion

end ExprLex.Verdict
