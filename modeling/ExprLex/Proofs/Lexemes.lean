import ExprLex.Proofs.NumeralValues
import ExprLex.Proofs.ReadBack
import ExprLex.Proofs.SymbolBoundary
import ExprLex.Proofs.TokenForms

/-!
# Numbers that scan back

The text of a number scans as this number, whichever symbols there are, if it is a plain decimal,
and that is how a finite double is written unless it needs an exponent. Texts with an exponent and
the texts of infinities are no numbers to a scan: the sign in them takes them apart if it is a
symbol, and otherwise they are one string or one name.
-/
namespace ExprLex
open Text
open Numeral (Parts)

namespace Numeral

/-- Plain decimal form: perhaps a dash, then digits, a point and digits. -/
def IsPlain (text : List Char) : Prop :=
  ∃ sign whole fraction : List Char, text = sign ++ whole ++ '.' :: fraction ∧
    (sign = [] ∨ sign = ['-']) ∧ whole ≠ [] ∧ fraction ≠ [] ∧
    ∀ x ∈ whole ++ fraction, x.isDigit = true

theorem isPlain_signed (negative : Bool) {whole fraction : List Char} (hwhole : whole ≠ [])
    (hfraction : fraction ≠ []) (hdigits : ∀ x ∈ whole ++ fraction, x.isDigit = true) :
    IsPlain (Binary64.signed negative (whole ++ '.' :: fraction)) := by
  refine ⟨if negative then ['-'] else [], whole, fraction, ?_, ?_, hwhole, hfraction, hdigits⟩ <;>
    cases negative <;> simp [Binary64.signed]

variable {text : List Char}

theorem IsPlain.exists_parts (h : IsPlain text) : ∃ p : Parts, p.text = text ∧ p.digits ≠ [] := by
  obtain ⟨sign, whole, fraction, rfl, hsign, hwhole, -, hdigits⟩ := h
  have hne : whole ++ fraction ≠ [] := List.append_ne_nil_of_left_ne_nil hwhole fraction
  rcases hsign with rfl | rfl
  · exact ⟨⟨false, whole, some fraction, hdigits⟩, rfl, hne⟩
  · exact ⟨⟨true, whole, some fraction, hdigits⟩, rfl, hne⟩

theorem IsPlain.chars (h : IsPlain text) : ∀ x ∈ text, Cursor.opensNumeral x = true := by
  obtain ⟨p, rfl, hdigits⟩ := h.exists_parts
  exact isNumeral_chars (Parts.isNumeral_text hdigits)

theorem not_isPlain_of_mem {x : Char} (hx : x ∈ text) (h : Cursor.opensNumeral x = false) :
    ¬ IsPlain text := by
  intro hplain
  rw [hplain.chars x hx] at h
  cases h

end Numeral

theorem Digits.positional_isPlain {d : Digits} (h : d.Proper) (negative : Bool) :
    Numeral.IsPlain (Binary64.signed negative d.positional) := by
  rw [positional]
  split
  · apply Numeral.isPlain_signed negative (List.cons_ne_nil '0' [])
    · exact List.append_ne_nil_of_right_ne_nil _ h.ne_nil
    · simp only [List.forall_mem_append]
      exact ⟨List.forall_mem_singleton.mpr rfl, zeros_isDigit, h.digits⟩
  · dsimp only
    split
    · apply Numeral.isPlain_signed negative
        (List.append_ne_nil_of_left_ne_nil h.ne_nil _) (List.cons_ne_nil '0' [])
      simp only [List.forall_mem_append]
      exact ⟨⟨h.digits, zeros_isDigit⟩, List.forall_mem_singleton.mpr rfl⟩
    · rename_i hlong
      apply Numeral.isPlain_signed negative
      · simp [h.ne_nil]
      · rw [ne_eq, List.drop_eq_nil_iff]
        exact hlong
      · rw [List.take_append_drop]
        exact h.digits

namespace Numeral

/-- Exponent form: a numeral, the mark of an exponent, its sign and its digits. -/
structure Scaled where
  front : Parts
  sign : Char
  power : List Char
  front_digits : front.digits ≠ []
  sign_cases : sign = '+' ∨ sign = '-'
  power_ne_nil : power ≠ []
  power_digits : ∀ x ∈ power, x.isDigit = true

namespace Scaled

/-- What stands before the sign of the exponent. -/
def mantissa (s : Scaled) : List Char := s.front.text ++ ['e']

def text (s : Scaled) : List Char := s.mantissa ++ s.sign :: s.power

/-- The digits of the exponent, as a numeral. -/
def exponent (s : Scaled) : Parts := ⟨false, s.power, none, by simpa using s.power_digits⟩

theorem exponent_digits (s : Scaled) : s.exponent.digits ≠ [] := by
  simpa [exponent, Parts.digits] using s.power_ne_nil

theorem mark_mem_mantissa (s : Scaled) : 'e' ∈ s.mantissa := by simp [mantissa]

theorem mark_mem_text (s : Scaled) : 'e' ∈ s.text := List.mem_append_left _ s.mark_mem_mantissa

end Scaled
end Numeral

theorem Digits.exponential_scaled {d : Digits} (h : d.Proper) (negative : Bool) (width : Nat) :
    ∃ s : Numeral.Scaled, s.text = Binary64.signed negative (d.exponential width) := by
  obtain ⟨p, rfl, hdigits, htext, -⟩ := exponential_parts h negative width
  obtain ⟨hne, hpower⟩ := zeros_toDigits (width - (Nat.toDigits 10 d.power.natAbs).length)
    d.power.natAbs
  have hsign : (if d.power < 0 then '-' else '+') = '+' ∨
      (if d.power < 0 then '-' else '+') = '-' := by
    split <;> simp
  refine ⟨⟨p, _, _, hdigits, hsign, hne, hpower⟩, ?_⟩
  rw [htext, Binary64.signed_append]
  simp [Numeral.Scaled.text, Numeral.Scaled.mantissa]

namespace Binary64

theorem finite_text_cases (negative : Bool) (x : Magnitude) :
    Numeral.IsPlain (finite negative x).text ∨
      ∃ s : Numeral.Scaled, s.text = (finite negative x).text := by
  have hproper := x.shortest_isNamed.proper
  rw [text, Digits.text]
  split
  · exact .inl (Digits.positional_isPlain hproper negative)
  · exact .inr (Digits.exponential_scaled hproper negative _)

/-- The plain decimals are the texts of finite doubles without an exponent. -/
theorem isPlain_text_iff (v : Binary64) :
    Numeral.IsPlain v.text ↔ (∃ negative x, v = .finite negative x) ∧ 'e' ∉ v.text := by
  cases v with
  | nan => simpa using Numeral.not_isPlain_of_mem (x := 'n') (by simp [text]) rfl
  | infinite negative =>
    have hmem : 'i' ∈ (infinite negative).text := by cases negative <;> simp [text, signed]
    simpa using Numeral.not_isPlain_of_mem hmem rfl
  | finite negative x =>
    constructor
    · intro hplain
      exact ⟨⟨negative, x, rfl⟩, fun hmark => Numeral.not_isPlain_of_mem hmark rfl hplain⟩
    · rintro ⟨-, hmark⟩
      refine (finite_text_cases negative x).resolve_right ?_
      rintro ⟨s, hs⟩
      exact hmark (hs ▸ s.mark_mem_text)

end Binary64

/-- What a scan under the symbols makes of a text that names a number and is no plain decimal. -/
inductive FallsInto (symbols : SymbolSet) : List Char → List Token → Prop
  | infinity : FallsInto symbols ['i', 'n', 'f'] [.name "inf"]
  | minusInfinity : '-' ∉ symbols → FallsInto symbols ['-', 'i', 'n', 'f'] [.string "-inf"]
  | minusApart : '-' ∈ symbols →
      FallsInto symbols ['-', 'i', 'n', 'f'] [.symbol '-', .name "inf"]
  | scaled (s : Numeral.Scaled) : s.sign ∉ symbols →
      FallsInto symbols s.text [.string (String.ofList s.text)]
  | scaledApart (s : Numeral.Scaled) : s.sign ∈ symbols → FallsInto symbols s.text
      [.string (String.ofList s.mantissa), .symbol s.sign,
        .number s.exponent.decimal.toBinary64]

theorem FallsInto.ne_number {symbols : SymbolSet} {text : List Char} {tokens : List Token}
    (h : FallsInto symbols text tokens) (v : Binary64) : tokens ≠ [.number v] := by
  cases h <;> simp

theorem Binary64.exists_fallsInto {v : Binary64} (hnan : v ≠ .nan)
    (hplain : ¬ Numeral.IsPlain v.text) (symbols : SymbolSet) :
    ∃ tokens, FallsInto symbols v.text tokens := by
  cases v with
  | nan => exact absurd rfl hnan
  | infinite negative =>
    cases negative with
    | false => exact ⟨_, .infinity⟩
    | true =>
      by_cases hdash : '-' ∈ symbols
      · exact ⟨_, .minusApart hdash⟩
      · exact ⟨_, .minusInfinity hdash⟩
  | finite negative x =>
    obtain ⟨s, hs⟩ := (finite_text_cases negative x).resolve_left hplain
    rw [← hs]
    by_cases hsign : s.sign ∈ symbols
    · exact ⟨_, .scaledApart s hsign⟩
    · exact ⟨_, .scaled s hsign⟩

namespace SymbolSet.IsWord

variable {symbols : SymbolSet} {text more : List Char}

theorem append (h : symbols.IsWord text) (hmore : ∀ x ∈ more, symbols.isPlain x = true) :
    symbols.IsWord (text ++ more) := by
  obtain ⟨hne, hplain, hopens⟩ := h
  refine ⟨List.append_ne_nil_of_left_ne_nil hne more, fun x hx => ?_, fun hmem hhead => ?_⟩
  · rw [List.dropWhile_append] at hx
    split at hx
    · exact hmore x ((List.dropWhile_sublist _).subset hx)
    · rcases List.mem_append.mp hx with hx | hx
      · exact hplain x hx
      · exact hmore x hx
  · rw [List.head?_append_of_ne_nil _ hne] at hhead
    have hsecond := hopens hmem hhead
    obtain ⟨x, rest, rfl⟩ := List.exists_cons_of_ne_nil hne
    cases rest with
    | nil => cases hsecond
    | cons y rest => exact hsecond

theorem runsFrom_eq (h : symbols.IsWord text) (hquote : text.head? ≠ some '"') (start : Position) :
    runsFrom symbols true start text = [⟨start, .bare, text⟩] := by
  have hstop : Piece.Stops symbols text [] := nofun
  have hfirst := Piece.first_word_of_stops h hquote hstop
  have hwritten : (⟨.bare, text, Piece.closingBlank []⟩ : Piece).written = text :=
    List.append_nil text
  rw [List.append_nil] at hfirst
  rw [runsFrom_piece h.1 h.head?_ne_space, hfirst, hwritten, List.drop_length, runsFrom_nil]
  rfl

/-- A word up to a symbol and the symbol are a run each. -/
theorem runsFrom_symbol_append {x : Char} (h : symbols.IsWord text) (hquote : text.head? ≠ some '"')
    (hend : symbols.EndsPlain text) (hx : x ∈ symbols) (start : Position) :
    runsFrom symbols true start (text ++ x :: more) =
      ⟨start, .bare, text⟩ :: (Item.symbol x).run (start.after text) ::
        runsFrom symbols true ((start.after text).next x) more := by
  have hstop : Piece.Stops symbols text (x :: more) := SymbolSet.stops hx fun _ => hend
  have hfirst := Piece.first_word_of_stops h hquote hstop
  have hclosing : Piece.closingBlank (x :: more) = [] := by
    simp [Piece.closingBlank, (not_delimiter_iff.mp (symbols.admissible x hx).1).1]
  have hwritten : (⟨.bare, text, []⟩ : Piece).written = text := List.append_nil text
  have hhead : (text ++ x :: more).head? ≠ some ' ' := by
    rw [List.head?_append_of_ne_nil _ h.1]
    exact h.head?_ne_space
  rw [runsFrom_piece (List.append_ne_nil_of_left_ne_nil h.1 _) hhead, hfirst, hclosing, hwritten,
    List.drop_left, SymbolSet.freshAfter_of_endsPlain hend, runsFrom_symbol hx fun _ => rfl]
  rfl

end SymbolSet.IsWord

/-- Runs outside quotes that are tokens leave nothing else. -/
theorem Findings.ofRuns_tokens {strict : Bool} {rs : List Run} {tokens : List Token}
    (h : List.Forall₂ (fun r t => r.form = .bare ∧ Verdict.ofBare r.text = .token t) rs tokens) :
    ∃ placed, ofRuns strict rs = ⟨placed, [], none⟩ ∧ placed.map Placed.item = tokens := by
  induction h with
  | nil => exact ⟨[], rfl, rfl⟩
  | cons hr hrest ih =>
    rename_i r t rs tokens
    obtain ⟨hform, hverdict⟩ := hr
    obtain ⟨placed, hfound, hitems⟩ := ih
    have houtcome : r.outcome? strict = some (.token ⟨t, r.start⟩) := by
      simp [Run.outcome?, Run.verdict, hform, hverdict]
    have hnotice : r.notice? strict = none := by simp [Run.notice?, Run.warning?, hform]
    have hone : ofRun strict r = ⟨[⟨t, r.start⟩], [], none⟩ := by
      simp [ofRun, Run.token?, Run.fault?, houtcome, hnotice, Outcome.token?, Outcome.fault?]
    refine ⟨⟨t, r.start⟩ :: placed, ?_, congrArg (List.cons t) hitems⟩
    rw [ofRuns_cons, hone, hfound, followedBy_of_no_fault rfl]
    rfl

namespace Numeral.Scaled

variable {symbols : SymbolSet} (s : Scaled)

theorem mantissa_isWord (symbols : SymbolSet) : symbols.IsWord s.mantissa := by
  apply (Item.numeral_isWord s.front_digits).append
  exact List.forall_mem_singleton.mpr (Piece.isPlain_of_isWord rfl)

theorem mantissa_endsPlain (symbols : SymbolSet) : symbols.EndsPlain s.mantissa :=
  ⟨'e', by simp [mantissa], Piece.isPlain_of_isWord rfl⟩

theorem text_isWord (h : s.sign ∉ symbols) : symbols.IsWord s.text := by
  apply (s.mantissa_isWord symbols).append
  have hblank : isBlank s.sign = false := by rcases s.sign_cases with hs | hs <;> rw [hs] <;> rfl
  refine List.forall_mem_cons.mpr ⟨Piece.isPlain_iff.mpr ⟨hblank, h⟩, fun x hx => ?_⟩
  apply Piece.isPlain_of_isWord
  simp [isWord, s.power_digits x hx]

theorem front_cons : ∃ x rest, s.front.text = x :: rest ∧ Cursor.opensNumeral x = true := by
  have hnumeral := Parts.isNumeral_text s.front_digits
  obtain ⟨x, rest, hx⟩ := List.exists_cons_of_ne_nil (isNumeral_iff.mp hnumeral).1
  exact ⟨x, rest, hx, isNumeral_chars hnumeral x (by simp [hx])⟩

theorem mantissa_append_head? (more : List Char) : (s.mantissa ++ more).head? ≠ some '"' := by
  obtain ⟨x, rest, hx, hopens⟩ := s.front_cons
  have hquote := (not_delimiter_iff.mp (opensNumeral_not_delimiter hopens)).2
  simpa [mantissa, hx] using hquote

/-- The text begins like a numeral, so it is no name; with the mark in it, it is no numeral. -/
theorem ofBare_mantissa_append (more : List Char) : Verdict.ofBare (s.mantissa ++ more) =
    .token (.string (String.ofList (s.mantissa ++ more))) := by
  obtain ⟨x, rest, hx, hopens⟩ := s.front_cons
  have hletter : isLetter x = false := by
    rw [Bool.eq_false_iff]
    intro hletter
    rw [letter_not_opensNumeral hletter] at hopens
    cases hopens
  have hmark : 'e' ∈ s.mantissa ++ more := List.mem_append_left _ s.mark_mem_mantissa
  have hnumeral : isNumeral (s.mantissa ++ more) = false := not_isNumeral_of_mem hmark rfl
  obtain ⟨y, tail, hy⟩ : ∃ y tail, rest ++ 'e' :: more = y :: tail :=
    List.exists_cons_of_ne_nil (List.append_ne_nil_of_right_ne_nil _ (List.cons_ne_nil _ _))
  have hsplit : s.mantissa ++ more = x :: y :: tail := by simp [mantissa, hx, hy]
  rw [hsplit] at hnumeral ⊢
  exact Verdict.stands_iff.mp (.string hnumeral hletter)

end Numeral.Scaled

/-- A scan of the text finds these tokens and nothing else. -/
def FindsOnly (settings : Settings) (text : List Char) (tokens : List Token) : Prop :=
  ∃ placed, (scan settings text).findings = ⟨placed, [], none⟩ ∧ placed.map Placed.item = tokens

theorem FallsInto.findsOnly {settings : Settings} {text : List Char} {tokens : List Token}
    (h : FallsInto settings.symbols text tokens) : FindsOnly settings text tokens := by
  -- `decide` alone might go through all characters that there are
  have hletters : ∀ x ∈ ['i', 'n', 'f'], isWord x = true := List.all_eq_true.mp (by decide)
  have hinf : settings.symbols.IsWord ['i', 'n', 'f'] := .of_isWord (by simp) hletters
  have hname : Verdict.ofBare ['i', 'n', 'f'] = .token (.name "inf") := by decide
  rw [FindsOnly, scan_findings]
  apply Findings.ofRuns_tokens
  cases h with
  | infinity =>
    rw [hinf.runsFrom_eq (by simp)]
    exact .cons ⟨rfl, hname⟩ .nil
  | minusInfinity hdash =>
    have hword : settings.symbols.IsWord ['-', 'i', 'n', 'f'] := by
      apply Item.isWord_of_plain (List.cons_ne_nil _ _)
      exact List.forall_mem_cons.mpr ⟨Piece.isPlain_iff.mpr ⟨rfl, hdash⟩,
        fun x hx => Piece.isPlain_of_isWord (hletters x hx)⟩
    rw [hword.runsFrom_eq (by simp)]
    exact .cons ⟨rfl, by decide⟩ .nil
  | minusApart hdash =>
    rw [runsFrom_lone hdash (fun _ => .inr rfl), hinf.runsFrom_eq (by simp)]
    exact .cons ⟨rfl, by decide⟩ (.cons ⟨rfl, hname⟩ .nil)
  | scaled s hsign =>
    rw [(s.text_isWord hsign).runsFrom_eq (s.mantissa_append_head? _)]
    exact .cons ⟨rfl, s.ofBare_mantissa_append _⟩ .nil
  | scaledApart s hsign =>
    have hhead := s.mantissa_append_head? []
    have hstring := s.ofBare_mantissa_append []
    rw [List.append_nil] at hhead hstring
    have hfits : (Item.symbol s.sign).Fits settings.symbols := settings.symbols.admissible _ hsign
    have hsymbol : Verdict.ofBare [s.sign] = .token (.symbol s.sign) :=
      Item.verdict_item hfits false .start
    have hnumber : Verdict.ofBare s.power = .token (.number s.exponent.decimal.toBinary64) :=
      Numeral.Parts.readsAs s.exponent_digits .start false
    have hpower : settings.symbols.IsWord s.power := Item.numeral_isWord s.exponent_digits
    rw [Numeral.Scaled.text, (s.mantissa_isWord _).runsFrom_symbol_append hhead
      (s.mantissa_endsPlain _) hsign,
      hpower.runsFrom_eq (Numeral.Parts.head?_ne_quote s.exponent_digits)]
    exact .cons ⟨rfl, hstring⟩ (.cons ⟨rfl, hsymbol⟩ (.cons ⟨rfl, hnumber⟩ .nil))

theorem Run.number_ne_nan {strict : Bool} {r : Run} {v : Binary64}
    (h : r.verdict strict = .token (.number v)) : v ≠ .nan := by
  by_cases hform : r.form = .bare
  · rw [verdict, hform] at h
    generalize r.text = text at h
    cases Verdict.stands_iff.mpr h
    rw [Numeral.value, Decimal.toBinary64, Binary64.nearest]
    generalize Magnitude.nearest? _ _ = x
    cases x <;> simp
  · cases (string_of_quotes hform h).2

theorem Session.number_ne_nan {s : Session} {t : Placed Token} {v : Binary64}
    (ht : Outcome.token t ∈ s.outcomes.1) (hv : t.item = .number v) : v ≠ .nan := by
  rw [s.outcomes_eq.1] at ht
  obtain ⟨r, -, hr⟩ := List.mem_filterMap.mp ht
  have hverdict : r.verdict s.settings.strict = .token t.item := Run.verdict_of_outcome? hr
  rw [hv] at hverdict
  exact Run.number_ne_nan hverdict

theorem Binary64.staysWhole_of_isPlain (v : Binary64) (h : Numeral.IsPlain v.text)
    (settings : Settings) : StaysWhole settings v.text (.token ⟨.number v, .start⟩) := by
  obtain ⟨p, hp, hdigits⟩ := h.exists_parts
  have hvalue : some v = some p.decimal.toBinary64 := by
    rw [← v.ofText?_text, ← hp, p.binary64_ofText?_text hdigits]
  rw [← hp, Option.some.inj hvalue]
  exact staysWhole_numeral settings hdigits

/-- A number that a text brings up is written as a plain decimal exactly if it is finite and its
text has no exponent. This is also exactly when, under whichever symbols, the text scans as the
number and nothing else; a text that is no plain decimal falls into other tokens. -/
theorem numbers_scan_back (settings : Settings) (text : List Char) (t : Placed Token) (v : Binary64)
    (ht : Outcome.token t ∈ (Session.ofText settings text).outcomes.1) (hv : t.item = .number v) :
    let lexeme := t.item.lexeme.toList
    (Numeral.IsPlain lexeme ↔ (∃ negative x, v = .finite negative x) ∧ 'e' ∉ lexeme) ∧
    ∀ other : Settings,
      ((scan other lexeme).tokens.map Placed.item = [.number v] ↔ Numeral.IsPlain lexeme) ∧
      (Numeral.IsPlain lexeme → StaysWhole other lexeme (.token ⟨.number v, .start⟩)) ∧
      (¬ Numeral.IsPlain lexeme → ∃ tokens, FallsInto other.symbols lexeme tokens ∧
        FindsOnly other lexeme tokens) := by
  intro lexeme
  have hlexeme : lexeme = v.text := by
    simp only [lexeme, hv, Token.lexeme, String.toList_ofList]
  have hnan := Session.number_ne_nan ht hv
  rw [hlexeme]
  refine ⟨v.isPlain_text_iff, fun other => ⟨?_, fun h => v.staysWhole_of_isPlain h other, ?_⟩⟩
  · constructor
    · intro hback
      by_contra hplain
      obtain ⟨tokens, htokens⟩ := v.exists_fallsInto hnan hplain other.symbols
      obtain ⟨placed, hfound, hitems⟩ := htokens.findsOnly
      have hplaced : (scan other v.text).tokens = placed := congrArg Findings.tokens hfound
      rw [hplaced, hitems] at hback
      exact htokens.ne_number v hback
    · intro hplain
      have hfound := (v.staysWhole_of_isPlain hplain other).findings
      have hplaced : (scan other v.text).tokens = [⟨.number v, .start⟩] :=
        congrArg Findings.tokens hfound
      rw [hplaced]
      rfl
  · intro hplain
    obtain ⟨tokens, htokens⟩ := v.exists_fallsInto hnan hplain other.symbols
    exact ⟨tokens, htokens, htokens.findsOnly⟩

/-- A zero with a sign, and a number that needs an exponent. -/
theorem numbers_scan_back_signed :
    let s := Session.ofText .standard "-0=-.00001".toList
    let zero := Numeral.value "-0".toList
    let small := Numeral.value "-.00001".toList
    let t : Placed Token := ⟨.number zero, .start⟩
    let u : Placed Token := ⟨.number small, ⟨3, 1, 4⟩⟩
    Outcome.token t ∈ s.outcomes.1 ∧ Outcome.token u ∈ s.outcomes.1 ∧
    t.item.lexeme = "-0.0" ∧ u.item.lexeme = "-1e-05" ∧
    ∀ other : Settings,
      StaysWhole other t.item.lexeme.toList (.token ⟨.number zero, .start⟩) ∧
      (scan other u.item.lexeme.toList).tokens.map Placed.item ≠ [.number small] ∧
      ∃ tokens, FallsInto other.symbols u.item.lexeme.toList tokens ∧
        FindsOnly other u.item.lexeme.toList tokens := by
  intro s zero small t u
  have ht : Outcome.token t ∈ s.outcomes.1 := by decide +kernel
  have hu : Outcome.token u ∈ s.outcomes.1 := by decide +kernel
  have hzero : t.item.lexeme = "-0.0" := by decide +kernel
  have hsmall : u.item.lexeme = "-1e-05" := by decide +kernel
  obtain ⟨hplain, hscans⟩ := numbers_scan_back .standard _ t zero ht rfl
  obtain ⟨hscaled, hfalls⟩ := numbers_scan_back .standard _ u small hu rfl
  have hfinite : ∃ negative x, zero = .finite negative x := ⟨true, .zero, by decide +kernel⟩
  have hwritten : Numeral.IsPlain t.item.lexeme.toList :=
    hplain.mpr ⟨hfinite, by rw [hzero]; decide⟩
  have hnot : ¬ Numeral.IsPlain u.item.lexeme.toList :=
    fun h => (hscaled.mp h).2 (by rw [hsmall]; decide)
  refine ⟨ht, hu, hzero, hsmall, fun other => ?_⟩
  obtain ⟨-, hwhole, -⟩ := hscans other
  obtain ⟨hback, -, hapart⟩ := hfalls other
  exact ⟨hwhole hwritten, fun h => hnot (hback.mp h), hapart hnot⟩

end ExprLex
