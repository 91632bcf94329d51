import ExprLex.Proofs.Faults
import ExprLex.Proofs.RoundTrip
import ExprLex.Proofs.SymbolEntries
import ExprLex.Proofs.Taking

/-!
# Words stay whole

A word is made of letters, digits and points. None of these can be a symbol, so whichever symbols
there are, a word by itself is read in one go and brings up one outcome, which its characters tell.
A word that is written like a number may have a dash in front, and is then read in one go too: the
dash is a sign if it is a symbol, and a character like any other if it is none.
-/
namespace ExprLex
open Text

/-- The word is written like a number without a sign. -/
structure IsNumericWord (w : List Char) : Prop where
  points : w.count '.' ≤ 1
  digit : ∃ x ∈ w, x.isDigit = true
  no_letter : ∀ x ∈ w, isLetter x = false

/-- What comes up from a word, by the characters that it is made of. -/
structure WordOutcome (w : List Char) (o : Outcome) : Prop where
  name : (∃ x ∈ w.head?, isLetter x = true) → o = .token ⟨.name (String.ofList w), .start⟩
  number : IsNumericWord w →
    ∃ v, Binary64.ofText? w = some v ∧ o = .token ⟨.number v, .start⟩
  fault : w = ['.'] → ∃ f : Fault, f.mistake.code = "L003" ∧ o = .fault ⟨f, .start⟩
  string : ¬ (∃ x ∈ w.head?, isLetter x = true) → ¬ IsNumericWord w → w ≠ ['.'] →
    o = .token ⟨.string (String.ofList w), .start⟩

/-- The outcome is the only one of the text, it comes up at the first pull, which reads the text to
its end, and there is no warning. -/
structure StaysWhole (settings : Settings) (text : List Char) (o : Outcome) : Prop where
  start : o.start = .start
  next : ∃ after, (Session.ofText settings text).next = (some o, after) ∧
    after.cursor.position.offset = text.length
  outcomes : (Session.ofText settings text).outcomes.1 = [o]
  findings : (scan settings text).findings = ⟨o.token?.toList, [], o.fault?⟩

theorem word_not_delimiter {x : Char} (h : isWord x = true) : isDelimiter x = false := by
  cases hletter : isLetter x with
  | true => exact letter_not_delimiter hletter
  | false =>
    apply opensNumeral_not_delimiter
    rw [isWord, hletter, Bool.false_or] at h
    rw [Cursor.opensNumeral, h, Bool.true_or]

theorem Piece.isPlain_of_isWord {symbols : SymbolSet} {x : Char} (h : isWord x = true) :
    symbols.isPlain x = true :=
  isPlain_iff.mpr ⟨(not_delimiter_iff.mp (word_not_delimiter h)).1, SymbolSet.not_mem_of_word h⟩

theorem Numeral.isUnsigned_iff {text : List Char} : isUnsigned text = true ↔
    (∀ x ∈ text, x.isDigit = true ∨ x = '.') ∧ text.count '.' ≤ 1 := by
  fun_induction isUnsigned text with
  | case1 => simp
  | case2 rest =>
    have hcount : ('.' :: rest).count '.' ≤ 1 ↔ '.' ∉ rest := by
      rw [List.count_cons_self, ← List.count_eq_zero]
      omega
    rw [hcount, List.all_eq_true, List.forall_mem_cons]
    constructor
    · intro hdigits
      refine ⟨⟨.inr rfl, fun x hx => .inl (hdigits x hx)⟩, fun hpoint => ?_⟩
      cases hdigits '.' hpoint
    · rintro ⟨⟨-, hchars⟩, hpoint⟩ x hx
      refine (hchars x hx).resolve_right ?_
      rintro rfl
      exact hpoint hx
  | case3 x rest hpoint ih =>
    have hx : x ≠ '.' := fun e => hpoint e
    rw [Bool.and_eq_true, ih, List.forall_mem_cons, List.count_cons_of_ne hx, or_iff_left hx,
      and_assoc]

theorem ofBare_word_name {w : List Char} (h : ∃ x ∈ w.head?, isLetter x = true) :
    Verdict.ofBare w = .token (.name (String.ofList w)) := by
  obtain ⟨x, hx, hletter⟩ := h
  obtain ⟨rest, rfl⟩ := List.head?_eq_some_iff.mp hx
  have hnumeral : Numeral.isNumeral (x :: rest) = false :=
    Numeral.not_isNumeral_of_mem List.mem_cons_self (letter_not_opensNumeral hletter)
  exact Verdict.stands_iff.mp (.name hnumeral hletter)

section

variable {w : List Char} (hw : ∀ x ∈ w, isWord x = true)
include hw

theorem isNumericWord_iff :
    IsNumericWord w ↔ Numeral.isUnsigned w = true ∧ Numeral.hasDigit w = true := by
  rw [Numeral.isUnsigned_iff, Numeral.hasDigit, List.any_eq_true]
  constructor
  · intro h
    refine ⟨⟨fun x hx => ?_, h.points⟩, h.digit⟩
    simpa [isWord, h.no_letter x hx] using hw x hx
  · rintro ⟨⟨hchars, hpoints⟩, hdigit⟩
    refine ⟨hpoints, hdigit, fun x hx => ?_⟩
    have hopens : Cursor.opensNumeral x = true := by
      rcases hchars x hx with hx | rfl
      · simp [Cursor.opensNumeral, hx]
      · rfl
    rw [Bool.eq_false_iff]
    intro hletter
    rw [letter_not_opensNumeral hletter] at hopens
    cases hopens

theorem isNumeral_word (hne : w ≠ []) : Numeral.isNumeral w = Numeral.isUnsigned w := by
  have hhead : w.head? ≠ some '-' := by
    intro hdash
    have hword := hw '-' (List.mem_of_mem_head? hdash)
    revert hword
    decide
  rw [Numeral.isNumeral_of_no_dash hhead, List.isEmpty_eq_false_iff.mpr hne]
  rfl

/-- A word that is written like a number has the parts of a numeral, with either sign. -/
theorem IsNumericWord.exists_parts (h : IsNumericWord w) (negative : Bool) :
    ∃ p : Numeral.Parts, p.negative = negative ∧ p.unsigned = w ∧ p.digits ≠ [] := by
  obtain ⟨hunsigned, hdigit⟩ := (isNumericWord_iff hw).mp h
  obtain ⟨p, hnegative, rfl⟩ := Numeral.exists_parts hunsigned negative
  refine ⟨p, hnegative, rfl, p.hasDigit_text.mp ?_⟩
  cases negative with
  | false => rwa [Numeral.Parts.text, hnegative]
  | true => rw [Numeral.Parts.text, hnegative]; exact hdigit

theorem ofBare_word_number (h : IsNumericWord w) :
    ∃ v, Binary64.ofText? w = some v ∧ Verdict.ofBare w = .token (.number v) := by
  obtain ⟨p, hnegative, hunsigned, hdigits⟩ := h.exists_parts hw false
  obtain rfl : p.text = w := by
    rw [Numeral.Parts.text, hnegative, hunsigned]
    rfl
  refine ⟨_, p.binary64_ofText?_text hdigits, ?_⟩
  rw [← p.value_text]
  exact Verdict.stands_iff.mp
    (.number (Numeral.Parts.isNumeral_text hdigits) (p.hasDigit_text.mpr hdigits))

theorem ofBare_word_string (hne : w ≠ []) (hname : ¬ ∃ x ∈ w.head?, isLetter x = true)
    (hnumber : ¬ IsNumericWord w) (hpoint : w ≠ ['.']) :
    Verdict.ofBare w = .token (.string (String.ofList w)) := by
  have hnumeral : Numeral.isNumeral w = false := by
    rw [Bool.eq_false_iff]
    intro hnumeral
    cases hdigit : Numeral.hasDigit w with
    | true => exact hnumber ((isNumericWord_iff hw).mpr ⟨isNumeral_word hw hne ▸ hnumeral, hdigit⟩)
    | false =>
      rcases Numeral.digitless_iff.mp ⟨hnumeral, hdigit⟩ with rfl | rfl
      · exact hpoint rfl
      · cases hw '-' List.mem_cons_self
  obtain ⟨x, rest, rfl⟩ := List.exists_cons_of_ne_nil hne
  have hletter : isLetter x = false := by
    rw [Bool.eq_false_iff]
    exact fun hx => hname ⟨x, rfl, hx⟩
  cases rest with
  | cons y rest => exact Verdict.stands_iff.mp (.string hnumeral hletter)
  | nil =>
    -- a single character that is no letter is a digit or a point, and so a numeral
    have hword := hw x List.mem_cons_self
    rw [Numeral.isNumeral_singleton] at hnumeral
    rw [isWord, hletter, Bool.false_or, hnumeral] at hword
    cases hword

end

namespace SymbolSet.IsWord

variable {symbols : SymbolSet} {text : List Char}

theorem of_isWord (hne : text ≠ []) (h : ∀ x ∈ text, isWord x = true) : symbols.IsWord text := by
  apply Item.isWord_of_plain hne
  intro x hx
  exact Piece.isPlain_of_isWord (h x hx)

theorem head?_ne_space (h : symbols.IsWord text) : text.head? ≠ some ' ' := by
  obtain ⟨-, hplain, -⟩ := h
  intro hspace
  obtain ⟨rest, rfl⟩ := List.head?_eq_some_iff.mp hspace
  have hspaces := hplain ' ' (by simp)
  exact absurd (Piece.isPlain_iff.mp hspaces).1 (by decide)

end SymbolSet.IsWord

section Whole

variable {text : List Char}

/-- A text that is one run is read in one go. -/
theorem Cursor.readRun?_ofText {symbols : SymbolSet} (hword : symbols.IsWord text)
    (hquote : text.head? ≠ some '"') :
    (ofText text).readRun? symbols = some (⟨.start, .bare, text⟩, (ofText text).toEnd) := by
  have hskip : (ofText text).skipSpaces = ofText text := by
    obtain ⟨x, rest, rfl⟩ := List.exists_cons_of_ne_nil hword.1
    have hx : x ≠ ' ' := by simpa using hword.head?_ne_space
    simp [skipSpaces, ofText, hx, advanceBy]
  have hfirst : Piece.first symbols true text = ⟨.bare, text, []⟩ := by
    have hnone : ∀ x ∈ ([] : List Char).head?, x = ' ' := by simp
    simpa using Piece.first_word hword hquote hnone
  have hfresh : (ofText text).fresh symbols = true := rfl
  have hahead : (ofText text).ahead = text := rfl
  rw [readRun?, hskip, runHere?_eq hahead hword.1, hfresh, hfirst]
  simp [Piece.run, Piece.written, toEnd, ofText]

theorem staysWhole_of_isWord {settings : Settings} {o : Outcome}
    (hword : settings.symbols.IsWord text) (hquote : text.head? ≠ some '"')
    (ho : (⟨.start, .bare, text⟩ : Run).outcome? settings.strict = some o) :
    StaysWhole settings text o := by
  have hread : (Session.ofText settings text).cursor.readRun? settings.symbols = _ :=
    Cursor.readRun?_ofText hword hquote
  have hnext := Session.next_of_readRun? hread
  have hstrict : (Session.ofText settings text).settings.strict = settings.strict := rfl
  rw [hstrict, ho] at hnext
  have hend := Session.judge_cursor (Session.ofText settings text) ⟨.start, .bare, text⟩
    (Cursor.ofText text).toEnd
  have hahead := congrArg Cursor.ahead hend
  rw [Cursor.toEnd_ahead] at hahead
  refine ⟨Run.outcome?_start ho, ⟨_, hnext, ?_⟩, ?_, ?_⟩
  · rw [hend, Cursor.ofText_toEnd, Position.after_offset]
    exact Nat.zero_add _
  · rw [Session.outcomes_of_next_some hnext, Session.outcomes_of_end hahead]
  · have hruns : runsFrom settings.symbols true Position.start text = [⟨.start, .bare, text⟩] := by
      have hcons := (Cursor.readRun?_some hread).1
      rw [Cursor.runs, Cursor.runs, Cursor.toEnd_ahead, runsFrom_nil] at hcons
      exact hcons
    have hnotice : (⟨.start, .bare, text⟩ : Run).notice? settings.strict = none := rfl
    rw [scan_findings, hruns, Findings.ofRuns_cons, Findings.ofRuns_nil, Findings.followedBy_empty]
    simp [Findings.ofRun, Run.token?, Run.fault?, ho, hnotice]

/-- A numeral is a number whichever symbols there are, with a sign or without one. -/
theorem staysWhole_numeral (settings : Settings) {p : Numeral.Parts} (h : p.digits ≠ []) :
    StaysWhole settings p.text (.token ⟨.number p.decimal.toBinary64, .start⟩) := by
  have hfits : (Item.numeral p).Fits settings.symbols := h
  have hverdict := Item.verdict_item hfits settings.strict .start
  apply staysWhole_of_isWord (Item.numeral_isWord h) (Numeral.Parts.head?_ne_quote h)
  rw [Run.outcome?]
  exact hverdict ▸ rfl

theorem staysWhole_word (settings : Settings) {w : List Char} (hne : w ≠ [])
    (hw : ∀ x ∈ w, isWord x = true) : ∃ o, StaysWhole settings w o ∧ WordOutcome w o := by
  have hquote : w.head? ≠ some '"' := by
    intro hhead
    cases hw '"' (List.mem_of_mem_head? hhead)
  have hverdict : (⟨.start, .bare, w⟩ : Run).verdict settings.strict = Verdict.ofBare w := rfl
  obtain ⟨o, ho⟩ : ∃ o, (⟨.start, .bare, w⟩ : Run).outcome? settings.strict = some o := by
    have hsomething := Verdict.ofBare_ne_nothing hne
    rw [Run.outcome?, hverdict]
    cases hw : Verdict.ofBare w with
    | nothing => exact absurd hw hsomething
    | token t => exact ⟨_, rfl⟩
    | fault f => exact ⟨_, rfl⟩
  refine ⟨o, staysWhole_of_isWord (.of_isWord hne hw) hquote ho, ?_⟩
  rw [Run.outcome?, hverdict] at ho
  constructor
  · intro hname
    rw [ofBare_word_name hname] at ho
    exact (Option.some.inj ho).symm
  · intro hnumber
    obtain ⟨v, hv, hverdict⟩ := ofBare_word_number hw hnumber
    rw [hverdict] at ho
    exact ⟨v, hv, (Option.some.inj ho).symm⟩
  · rintro rfl
    exact ⟨.digitlessNumeral (String.ofList ['.']), rfl, (Option.some.inj ho).symm⟩
  · intro hname hnumber hpoint
    rw [ofBare_word_string hw hne hname hnumber hpoint] at ho
    exact (Option.some.inj ho).symm

end Whole

/-- Texts are accepted as symbols exactly if each is a character that may be one, and the set is
decided by which texts there are. Under all symbols a text of letters, digits and points brings up
one outcome, which takes up the whole text, and so does a dash with digits behind it and perhaps a
point among them. -/
theorem words_stay_whole :
    (∀ entries : List String,
      ((∃ s, SymbolSet.ofOffer (.candidates (entries.map .text)) = .ok s) ↔
        ∀ t ∈ entries, SymbolSet.IsEntry t) ∧
      ∀ s, SymbolSet.ofOffer (.candidates (entries.map .text)) = .ok s →
        (∀ x, x ∈ s ↔ String.ofList [x] ∈ entries) ∧
        ∀ others : List String, (∀ t, t ∈ others ↔ t ∈ entries) →
          SymbolSet.ofOffer (.candidates (others.map .text)) = .ok s) ∧
    ∀ (settings : Settings) (w : List Char), w ≠ [] →
      (∀ x ∈ w, isLetter x = true ∨ x.isDigit = true ∨ x = '.') →
      (∃ o, StaysWhole settings w o ∧ WordOutcome w o) ∧
      (IsNumericWord w → ∃ v, Binary64.ofText? ('-' :: w) = some v ∧
        StaysWhole settings ('-' :: w) (.token ⟨.number v, .start⟩)) := by
  refine ⟨fun entries => ⟨SymbolSet.exists_ofOffer_iff, fun s hs => ?_⟩, ?_⟩
  · obtain ⟨hentries, hmem⟩ := SymbolSet.ofOffer_eq_ok_iff.mp hs
    refine ⟨hmem, fun others hothers => ?_⟩
    simp only [SymbolSet.ofOffer_eq_ok_iff, hothers]
    exact ⟨hentries, hmem⟩
  · intro settings w hne hchars
    have hw : ∀ x ∈ w, isWord x = true := by
      intro x hx
      simpa [isWord, or_assoc] using hchars x hx
    refine ⟨staysWhole_word settings hne hw, fun hnumber => ?_⟩
    obtain ⟨p, hnegative, hunsigned, hdigits⟩ := hnumber.exists_parts hw true
    have htext : p.text = '-' :: w := by
      rw [Numeral.Parts.text, hnegative, hunsigned]
      rfl
    have hvalue := p.binary64_ofText?_text hdigits
    have hwhole := staysWhole_numeral settings hdigits
    rw [htext] at hvalue hwhole
    exact ⟨_, hvalue, hwhole⟩

theorem words_stay_whole_signed :
    let entries := ["-", "+", "-"]
    let others := ["+", "-"]
    let s := (SymbolSet.empty.insert '-' (by decide)).insert '+' (by decide)
    let w := ['0', '.', '5', '0']
    SymbolSet.ofOffer (.candidates (entries.map .text)) = .ok s ∧
      (∀ t, t ∈ others ↔ t ∈ entries) ∧
      SymbolSet.ofOffer (.candidates (others.map .text)) = .ok s ∧
      w ≠ [] ∧ (∀ x ∈ w, isLetter x = true ∨ x.isDigit = true ∨ x = '.') ∧ IsNumericWord w ∧
      ∃ v, Binary64.ofText? ('-' :: w) = some v ∧
        StaysWhole { symbols := s, strict := true } ('-' :: w) (.token ⟨.number v, .start⟩) := by
  intro entries others s w
  have hentries : SymbolSet.ofOffer (.candidates (entries.map .text)) = .ok s := by rfl
  have hothers : ∀ t, t ∈ others ↔ t ∈ entries := by
    intro t
    simp [entries, others]
    tauto
  have hne : w ≠ [] := by decide
  have hchars : ∀ x ∈ w, isLetter x = true ∨ x.isDigit = true ∨ x = '.' := by simp [w]
  have hletter : ∀ x ∈ w, isLetter x = false := by
    simp only [w, List.forall_mem_cons, List.not_mem_nil, false_imp_iff, implies_true, and_true]
    decide
  have hnumber : IsNumericWord w := ⟨by decide, by simp [w], hletter⟩
  obtain ⟨hsets, hwords⟩ := words_stay_whole
  exact ⟨hentries, hothers, ((hsets entries).2 s hentries).2 others hothers, hne, hchars, hnumber,
    (hwords { symbols := s, strict := true } w hne hchars).2 hnumber⟩

end ExprLex
