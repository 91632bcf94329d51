import ExprLex.Proofs.Classes
import ExprLex.Proofs.Offences
import ExprLex.Session.Call

/-!
# The grammar of numerals and the kinds of runs

A numeral is a sign, digits, a point and digits, where the sign and the point may be missing; a
reading from the front that remembers its place and whether it has met a point accepts just that.
The conditions on a run outside quotes, of which the grammar is the first, exclude each other and
leave nothing out, and so the token or the fault that a run amounts to does not depend on the order
in which they are tried.
-/
namespace ExprLex
open Text

namespace Numeral

/-- Written as the grammar says; nothing at all and a lone dash are so written too. -/
def IsWritten (text : List Char) : Prop :=
  ∃ sign whole point fraction : List Char, text = sign ++ whole ++ point ++ fraction ∧
    (sign = [] ∨ sign = ['-']) ∧ (∀ x ∈ whole, x.isDigit = true) ∧
    (point = [] ∨ point = ['.']) ∧ ∀ x ∈ fraction, x.isDigit = true

/-- Reads what is left of a text of the given length from the offset on. -/
def accepts (length offset : Nat) (pointSeen : Bool) : List Char → Bool
  | [] => length ≠ 0
  | x :: rest =>
    if x.isDigit then accepts length (offset + 1) pointSeen rest
    else if x = '.' ∧ pointSeen = false then accepts length (offset + 1) true rest
    else if x = '-' ∧ offset = 0 ∧ 1 < length then accepts length (offset + 1) pointSeen rest
    else false

theorem isWritten_text (p : Parts) : IsWritten p.text := by
  obtain ⟨negative, whole, fraction?, hdigits⟩ := p
  have hwhole : ∀ x ∈ whole, x.isDigit = true := fun x hx => hdigits x (by simp [hx])
  refine ⟨if negative then ['-'] else [], whole, if fraction?.isSome then ['.'] else [],
    fraction?.getD [], ?_, ?_, hwhole, ?_, fun x hx => hdigits x (by simp [hx])⟩
  · cases negative <;> cases fraction? <;> simp [Parts.text, Parts.unsigned]
  · cases negative <;> simp
  · cases fraction? <;> simp

theorem isWritten_iff {text : List Char} : IsWritten text ↔ ∃ p : Parts, p.text = text := by
  constructor
  · rintro ⟨sign, whole, point, fraction, rfl, hsign, hwhole, hpoint, hfraction⟩
    obtain ⟨negative, rfl⟩ : ∃ negative : Bool, sign = if negative then ['-'] else [] := by
      rcases hsign with rfl | rfl
      · exact ⟨false, rfl⟩
      · exact ⟨true, rfl⟩
    have hall : ∀ x ∈ whole ++ fraction, x.isDigit = true :=
      List.forall_mem_append.mpr ⟨hwhole, hfraction⟩
    rcases hpoint with rfl | rfl
    · have hdigits : ∀ x ∈ (whole ++ fraction) ++ (none : Option (List Char)).getD [],
          x.isDigit = true := by simpa using hall
      refine ⟨⟨negative, whole ++ fraction, none, hdigits⟩, ?_⟩
      cases negative <;> simp [Parts.text, Parts.unsigned]
    · refine ⟨⟨negative, whole, some fraction, hall⟩, ?_⟩
      cases negative <;> simp [Parts.text, Parts.unsigned]
  · rintro ⟨p, rfl⟩
    exact isWritten_text p

/-- The grammar of the texts that are taken for numerals. -/
theorem isNumeral_iff_isWritten (text : List Char) :
    isNumeral text = true ↔ IsWritten text ∧ text ≠ [] ∧ text ≠ ['-'] := by
  rw [isNumeral_iff, isWritten_iff]
  constructor
  · rintro ⟨hne, hlone, hparts⟩
    exact ⟨hparts, hne, hlone⟩
  · rintro ⟨hparts, hne, hlone⟩
    exact ⟨hne, hlone, hparts⟩

section Accepts

variable {length offset : Nat}

theorem accepts_digits (hlength : length ≠ 0) (text : List Char) :
    accepts length (offset + 1) true text = text.all Char.isDigit := by
  induction text generalizing offset with
  | nil => simp [accepts, hlength]
  | cons x rest ih =>
    cases hx : x.isDigit with
    | true => simp [accepts, hx, ih]
    | false => simp [accepts, hx]

/-- Behind the first character a dash is refused, and so is a second point. -/
theorem accepts_unsigned (hlength : length ≠ 0) (text : List Char) :
    accepts length (offset + 1) false text = isUnsigned text := by
  induction text generalizing offset with
  | nil => simp [accepts, isUnsigned, hlength]
  | cons x rest ih =>
    cases hx : x.isDigit with
    | true => rw [isUnsigned_digit hx, accepts, if_pos hx, ih]
    | false =>
      by_cases hpoint : x = '.'
      · subst hpoint
        rw [accepts, if_neg (by simp [hx]), if_pos ⟨rfl, rfl⟩, accepts_digits hlength, isUnsigned]
      · simp [accepts, isUnsigned, hx, hpoint]

/-- At the first character a dash is passed too, if anything follows. -/
theorem accepts_start (x : Char) (rest : List Char) :
    accepts (x :: rest).length 0 false (x :: rest) = isNumeral (x :: rest) := by
  have hlength : (x :: rest).length ≠ 0 := by simp
  by_cases hdash : x = '-'
  · subst hdash
    rw [isNumeral_dash, accepts, if_neg (by decide), if_neg (by decide), accepts_unsigned hlength]
    cases rest <;> simp
  · have hhead : (x :: rest).head? ≠ some '-' := by simpa using hdash
    rw [isNumeral_of_no_dash hhead]
    cases hx : x.isDigit with
    | true =>
      rw [accepts, if_pos hx, accepts_unsigned hlength, isUnsigned_digit hx]
      rfl
    | false =>
      by_cases hpoint : x = '.'
      · subst hpoint
        rw [accepts, if_neg (by simp [hx]), if_pos ⟨rfl, rfl⟩, accepts_digits hlength, isUnsigned]
        rfl
      · simp [accepts, isUnsigned, hx, hpoint, hdash]

theorem accepts_eq (text : List Char) : accepts text.length 0 false text = isNumeral text := by
  cases text with
  | nil => rfl
  | cons x rest => exact accepts_start x rest

end Accepts
end Numeral

/-- What a run outside quotes can be. -/
inductive BareKind
  | number
  | digitless
  | name
  | symbol
  | string

namespace BareKind

def IsNumber (run : List Char) : Prop := Numeral.IsWritten run ∧ ∃ x ∈ run, x.isDigit = true

def IsDigitless (run : List Char) : Prop := run = ['.'] ∨ run = ['-', '.']

def IsName (run : List Char) : Prop := ∃ x ∈ run.head?, isLetter x = true

def IsOther (run : List Char) : Prop := ¬ IsNumber run ∧ ¬ IsDigitless run ∧ ¬ IsName run

/-- The condition that a run meets. -/
def Fits (run : List Char) : BareKind → Prop
  | number => IsNumber run
  | digitless => IsDigitless run
  | name => IsName run
  | symbol => run.length = 1 ∧ IsOther run
  | string => run.length ≠ 1 ∧ IsOther run

/-- The answer to a run of this kind. -/
def IsAnswer (start : Position) (run : List Char) (result : Except Failure Answer) :
    BareKind → Prop
  | number => result = .ok (.token ⟨.number (Numeral.value run), start⟩)
  | digitless => ∃ f : Fault, f = .digitlessNumeral (String.ofList run) ∧
      f.mistake.code = "L003" ∧ result = .error (.fault ⟨f, start⟩)
  | name => result = .ok (.token ⟨.name (String.ofList run), start⟩)
  | symbol => ∃ x, run = [x] ∧ result = .ok (.token ⟨.symbol x, start⟩)
  | string => result = .ok (.token ⟨.string (String.ofList run), start⟩)

variable {run : List Char}

theorem isNumber_iff :
    IsNumber run ↔ Numeral.isNumeral run = true ∧ Numeral.hasDigit run = true := by
  rw [IsNumber, Numeral.isNumeral_iff_isWritten, Numeral.hasDigit, List.any_eq_true]
  constructor
  · rintro ⟨hwritten, x, hx, hdigit⟩
    refine ⟨⟨hwritten, List.ne_nil_of_mem hx, ?_⟩, x, hx, hdigit⟩
    rintro rfl
    obtain rfl := List.mem_singleton.mp hx
    cases hdigit
  · rintro ⟨⟨hwritten, -, -⟩, hdigit⟩
    exact ⟨hwritten, hdigit⟩

theorem isDigitless_iff :
    IsDigitless run ↔ Numeral.isNumeral run = true ∧ Numeral.hasDigit run = false :=
  Numeral.digitless_iff.symm

theorem IsNumber.not_isDigitless (h : IsNumber run) : ¬ IsDigitless run := by
  rw [isDigitless_iff, (isNumber_iff.mp h).2]
  simp

/-- No letter is in a numeral, and so no name is one, with digits or without. -/
theorem IsName.not_isNumeral (h : IsName run) : Numeral.isNumeral run = false := by
  obtain ⟨x, hx, hletter⟩ := h
  exact Numeral.not_isNumeral_of_mem (List.mem_of_mem_head? hx) (letter_not_opensNumeral hletter)

theorem IsName.not_isNumber (h : IsName run) : ¬ IsNumber run := by
  rw [isNumber_iff, h.not_isNumeral]
  simp

theorem IsName.not_isDigitless (h : IsName run) : ¬ IsDigitless run := by
  rw [isDigitless_iff, h.not_isNumeral]
  simp

theorem isOther_of_not_isNumeral {x : Char} {rest : List Char}
    (hnumeral : Numeral.isNumeral (x :: rest) = false) (hletter : isLetter x = false) :
    IsOther (x :: rest) := by
  rw [IsOther, isNumber_iff, isDigitless_iff, hnumeral]
  simp [IsName, hletter]

theorem Fits.unique {j k : BareKind} (hj : j.Fits run) (hk : k.Fits run) : j = k := by
  cases j with
  | number =>
    have hdigitless := IsNumber.not_isDigitless hj
    cases k with
    | number => rfl
    | digitless => exact absurd hk hdigitless
    | name => exact absurd hj (IsName.not_isNumber hk)
    | symbol => exact absurd hj hk.2.1
    | string => exact absurd hj hk.2.1
  | digitless =>
    cases k with
    | number => exact absurd hj (IsNumber.not_isDigitless hk)
    | digitless => rfl
    | name => exact absurd hj (IsName.not_isDigitless hk)
    | symbol => exact absurd hj hk.2.2.1
    | string => exact absurd hj hk.2.2.1
  | name =>
    cases k with
    | number => exact absurd hk (IsName.not_isNumber hj)
    | digitless => exact absurd hk (IsName.not_isDigitless hj)
    | name => rfl
    | symbol => exact absurd hj hk.2.2.2
    | string => exact absurd hj hk.2.2.2
  | symbol =>
    obtain ⟨hlength, hnumber, hdigitless, hname⟩ := hj
    cases k with
    | number => exact absurd hk hnumber
    | digitless => exact absurd hk hdigitless
    | name => exact absurd hk hname
    | symbol => rfl
    | string => exact absurd hlength hk.1
  | string =>
    obtain ⟨hlength, hnumber, hdigitless, hname⟩ := hj
    cases k with
    | number => exact absurd hk hnumber
    | digitless => exact absurd hk hdigitless
    | name => exact absurd hk hname
    | symbol => exact absurd hk.1 hlength
    | string => rfl

/-- Each kind is answered in a way of its own. -/
theorem IsAnswer.unique {start : Position} {result : Except Failure Answer} {j k : BareKind}
    (hj : j.IsAnswer start run result) (hk : k.IsAnswer start run result) : j = k := by
  cases j <;> cases k <;> simp only [IsAnswer] at hj hk <;> grind

/-- Every run has an answer of a kind that it fits. -/
theorem exists_isAnswer (start : Position) (x : Char) (rest : List Char) :
    ∃ k : BareKind, k.Fits (x :: rest) ∧
      k.IsAnswer start (x :: rest) (Session.classify start (x :: rest) false) := by
  have hstands := Verdict.stands_ofBare (x :: rest)
  simp only [Session.classify, Bool.false_eq_true, if_false]
  generalize Verdict.ofBare (x :: rest) = verdict at hstands ⊢
  cases hstands with
  | number hnumeral hdigit => exact ⟨number, isNumber_iff.mpr ⟨hnumeral, hdigit⟩, rfl⟩
  | digitless hnumeral hdigit =>
    exact ⟨digitless, isDigitless_iff.mpr ⟨hnumeral, hdigit⟩, _, rfl, rfl, rfl⟩
  | name hnumeral hletter => exact ⟨name, ⟨x, rfl, hletter⟩, rfl⟩
  | symbol hnumeral hletter =>
    exact ⟨symbol, ⟨rfl, isOther_of_not_isNumeral hnumeral hletter⟩, x, rfl, rfl⟩
  | string hnumeral hletter =>
    exact ⟨string, ⟨by simp, isOther_of_not_isNumeral hnumeral hletter⟩, rfl⟩

end BareKind

/-- On numerals a conversion gives what a scan makes of them. -/
theorem Session.numeralValue_of_isNumeral (start : Position) {text : List Char}
    (h : Numeral.isNumeral text = true) : numeralValue start text =
      match Numeral.value? text with
      | some v => .ok (.number v)
      | none => .error (.fault ⟨.digitlessNumeral (String.ofList text), start⟩) := by
  obtain ⟨-, -, p, rfl⟩ := Numeral.isNumeral_iff.mp h
  by_cases hdigits : p.digits = []
  · have hnone : Numeral.hasDigit p.text = false := by
      simpa [hdigits] using p.hasDigit_text
    simp [numeralValue, Numeral.value?, hnone]
  · have hsome : Numeral.hasDigit p.text = true := p.hasDigit_text.mpr hdigits
    simp [numeralValue, Numeral.value?, hsome, p.binary64_ofText?_text hdigits, p.value_text]

/-- A reading from the front accepts just the texts that are written as the grammar says, and of
the conditions on a run that is not empty just one is met, the one that the answer is of. -/
theorem classify_iff (start : Position) :
    (∀ run, Numeral.accepts run.length 0 false run = Numeral.isNumeral run ∧
      (Numeral.isNumeral run = true ↔ Numeral.IsWritten run ∧ run ≠ [] ∧ run ≠ ['-'])) ∧
    ∀ x rest, (∃! k : BareKind, k.Fits (x :: rest)) ∧
      ∀ k : BareKind,
        k.IsAnswer start (x :: rest) (Session.classify start (x :: rest) false) ↔
          k.Fits (x :: rest) := by
  refine ⟨fun run => ⟨Numeral.accepts_eq run, Numeral.isNumeral_iff_isWritten run⟩, ?_⟩
  intro x rest
  obtain ⟨k, hfits, hanswer⟩ := BareKind.exists_isAnswer start x rest
  refine ⟨⟨k, hfits, fun j hj => hj.unique hfits⟩, fun j => ⟨fun hj => ?_, fun hj => ?_⟩⟩
  · exact hj.unique hanswer ▸ hfits
  · exact hj.unique hfits ▸ hanswer

end ExprLex
