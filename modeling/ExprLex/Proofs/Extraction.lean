import ExprLex.Proofs.Piece

/-!
# A cursor reads pieces

The run that a cursor reads character by character is the first piece of the text ahead, and the
cursor ends up right behind that piece.
-/
namespace ExprLex
open Text

variable {symbols : SymbolSet} {sofar : List Char} {c : Cursor}

namespace Cursor

theorem readBareAfter_end (h : c.ahead = []) :
    c.readBareAfter symbols sofar = (sofar.reverse, c) := by
  rw [readBareAfter]
  split <;> simp_all

theorem readBareAfter_blank {x : Char} {rest : List Char} (h : c.ahead = x :: rest)
    (hx : isBlank x = true) : c.readBareAfter symbols sofar = (sofar.reverse, c.advance) := by
  rw [readBareAfter]
  split <;> simp_all

theorem readBareAfter_plain {x : Char} {rest : List Char} (h : c.ahead = x :: rest)
    (hx : symbols.isPlain x = true) :
    c.readBareAfter symbols sofar = c.advance.readBareAfter symbols (x :: sofar) := by
  obtain ⟨hb, hs⟩ := Piece.isPlain_iff.mp hx
  rw [readBareAfter]
  split <;> simp_all

theorem readBareAfter_symbol {x : Char} {rest : List Char} (h : c.ahead = x :: rest)
    (hb : isBlank x = false) (hx : x ∈ symbols) :
    c.readBareAfter symbols sofar =
      if x = '-' && c.continuesSign symbols sofar.head? then
        c.advance.readBareAfter symbols (x :: sofar)
      else if sofar.isEmpty then ([x], c.advance)
      else (sofar.reverse, c) := by
  rw [readBareAfter]
  split <;> simp_all

theorem readBareAfter_plains {text : List Char} (h : c.ahead = text) (hs : sofar ≠ [])
    (hd : '-' ∈ symbols → sofar.head? = some '-' → text.head? ≠ some '-') :
    c.readBareAfter symbols sofar = (sofar.reverse ++ text.takeWhile symbols.isPlain,
      c.advanceBy (text.takeWhile symbols.isPlain ++
        Piece.closingBlank (text.drop (text.takeWhile symbols.isPlain).length)).length) := by
  induction text generalizing sofar c with
  | nil => simp [readBareAfter_end h, Piece.closingBlank, advanceBy]
  | cons x rest ih =>
    cases hx : symbols.isPlain x with
    | true =>
      have hahead : c.advance.ahead = rest := by simp [h]
      have hdash : '-' ∈ symbols → (x :: sofar).head? = some '-' → rest.head? ≠ some '-' := by
        intro hmem hhead
        simp only [List.head?_cons, Option.some.injEq] at hhead
        exact absurd (hhead ▸ hmem) (Piece.isPlain_iff.mp hx).2
      rw [readBareAfter_plain h hx, ih hahead (by simp) hdash]
      simp [hx, advanceBy]
    | false =>
      cases hb : isBlank x with
      | true => simp [readBareAfter_blank h hb, hx, Piece.closingBlank, hb, advanceBy]
      | false =>
        have hmem : x ∈ symbols := by
          by_contra hne
          simp [Piece.isPlain_iff.mpr ⟨hb, hne⟩] at hx
        have hsign : (x = '-' && c.continuesSign symbols sofar.head?) = false := by
          obtain ⟨y, ys, rfl⟩ := List.exists_cons_of_ne_nil hs
          by_contra hcon
          simp only [continuesSign, List.head?_cons, Bool.not_eq_false, Bool.and_eq_true,
            decide_eq_true_eq] at hcon
          obtain ⟨rfl, rfl⟩ := hcon
          exact hd hmem rfl rfl
        rw [readBareAfter_symbol h hb hmem, hsign]
        simp [hx, hs, Piece.closingBlank, hb, advanceBy]

theorem readBareAfter_dashes {text : List Char} (h : c.ahead = text) (hmem : '-' ∈ symbols)
    (hs : sofar.head? = some '-') :
    let run := text.takeWhile (· = '-') ++
      (text.drop (text.takeWhile (· = '-')).length).takeWhile symbols.isPlain
    c.readBareAfter symbols sofar = (sofar.reverse ++ run,
      c.advanceBy (run ++ Piece.closingBlank (text.drop run.length)).length) := by
  induction text generalizing sofar c with
  | nil => simp [readBareAfter_end h, Piece.closingBlank, advanceBy]
  | cons x rest ih =>
    by_cases hx : x = '-'
    · subst hx
      have hahead : c.advance.ahead = rest := by simp [h]
      have hcont : ('-' = '-' && c.continuesSign symbols sofar.head?) = true := by
        simp [hs, continuesSign]
      rw [readBareAfter_symbol h (by decide) hmem, hcont, if_pos rfl, ih hahead rfl]
      simp [advanceBy]
    · have hne : sofar ≠ [] := by rintro rfl; simp at hs
      have hdash : '-' ∈ symbols → sofar.head? = some '-' → (x :: rest).head? ≠ some '-' :=
        fun _ _ => by simpa using hx
      simpa [hx] using readBareAfter_plains h hne hdash

theorem readBare_eq {text : List Char} (h : c.ahead = text) :
    c.readBare symbols = ((Piece.bare symbols (c.fresh symbols) text).text,
      c.advanceBy (Piece.bare symbols (c.fresh symbols) text).written.length) := by
  simp only [readBare]
  rw [Piece.bare_written]
  cases text with
  | nil =>
    rw [readBareAfter_end h]
    simp [Piece.bare, Piece.block, Piece.sign, Piece.closingBlank, advanceBy]
  | cons x rest =>
    have hahead : c.advance.ahead = rest := by simp [h]
    cases hb : isBlank x with
    | true =>
      rw [readBareAfter_blank h hb, Piece.bare_of_block_nil (Piece.block_blank hb)]
      simp [hb, advanceBy]
    | false =>
      by_cases hmem : x ∈ symbols
      · have hpeek : c.peek 1 = (x :: rest).getD 1 '\x00' := by rw [peek, h]
        rw [readBareAfter_symbol h hb hmem]
        by_cases hsign : x = '-' ∧ c.continuesSign symbols none = true
        · obtain ⟨rfl, hcont⟩ := hsign
          obtain ⟨hfresh, hopens⟩ := Bool.and_eq_true_iff.mp hcont
          rw [hpeek] at hopens
          have hblock := Piece.block_sign hmem hopens
          have hsofar : ['-'].head? = some '-' := rfl
          have hread := readBareAfter_dashes hahead hmem hsofar
          rw [hfresh, Piece.bare_of_block (by simp [hblock]), hblock]
          simp only [List.head?_nil, hcont, decide_true, Bool.and_true, if_pos, hread]
          simp [advanceBy]
        · have hstop : x = '-' → c.fresh symbols = false ∨
              opensNumeral ((x :: rest).getD 1 '\x00') = false := by
            intro hx
            have hcont : (c.fresh symbols && opensNumeral (c.peek 1)) = false :=
              Bool.eq_false_iff.mpr fun e => hsign ⟨hx, e⟩
            rw [hpeek] at hcont
            exact Bool.and_eq_false_iff.mp hcont
          have hfalse : (x = '-' && c.continuesSign symbols none) = false := by
            simpa using hsign
          rw [Piece.bare_of_block_nil (Piece.block_symbol hmem hstop)]
          simp [hfalse, hb, advanceBy]
      · have hplain : symbols.isPlain x = true := Piece.isPlain_iff.mpr ⟨hb, hmem⟩
        have hdash : '-' ∈ symbols → [x].head? = some '-' → rest.head? ≠ some '-' := by
          intro hd hx
          simp only [List.head?_cons, Option.some.injEq] at hx
          exact absurd (hx ▸ hd) hmem
        have hblock : Piece.block symbols (c.fresh symbols) (x :: rest) =
            x :: rest.takeWhile symbols.isPlain := Piece.block_plain hplain
        rw [readBareAfter_plain h hplain, Piece.bare_of_block (by simp [hblock]), hblock,
          readBareAfter_plains hahead (by simp) hdash]
        simp [advanceBy]

theorem advance_eq_take (c : Cursor) : c.advance = c.advanceBy (c.ahead.take 1).length := by
  cases h : c.ahead with
  | nil => simp [advance_of_end h, advanceBy]
  | cons x rest => simp [advanceBy]

theorem readQuoted_eq {text : List Char} (h : c.ahead = text) :
    c.readQuoted = ((Piece.quoted text).text, decide ((Piece.quoted text).form = .closed),
      c.advanceBy ((Piece.quoted text).text ++ (Piece.quoted text).closing).length) := by
  have hform : decide ((Piece.quoted text).form = .closed) =
      decide ((text.drop (text.takeWhile inQuotes).length).head? = some '"') := by
    simp only [Piece.quoted]
    split <;> simp_all
  rw [hform, List.length_append, advanceBy_add]
  simp only [readQuoted, h, Piece.quoted]
  rw [advance_eq_take, advanceBy_ahead, h]

end Cursor

def Piece.run (k : Piece) (start : Position) : Run := ⟨start, k.form, k.text⟩

namespace Cursor

theorem quotedRun_eq {text : List Char} (h : c.ahead = text) (start : Position) :
    c.quotedRun start = ((Piece.quoted text).run start,
      c.advanceBy ((Piece.quoted text).text ++ (Piece.quoted text).closing).length) := by
  have hform : (if (Piece.quoted text).form = .closed then Run.Form.closed else .unclosed) =
      (Piece.quoted text).form := by
    cases hf : (Piece.quoted text).form with
    | bare => exact absurd hf (Piece.quoted_form_ne_bare text)
    | closed => rfl
    | unclosed => rfl
  simp only [quotedRun, readQuoted_eq h, decide_eq_true_eq, hform]
  rfl

theorem bareRun_eq {text : List Char} (h : c.ahead = text) :
    c.bareRun symbols = ((Piece.bare symbols (c.fresh symbols) text).run c.position,
      c.advanceBy (Piece.bare symbols (c.fresh symbols) text).written.length) := by
  simp only [bareRun, readBare_eq h, Piece.run, Piece.bare_form]

theorem runHere?_eq {text : List Char} (h : c.ahead = text) (hne : text ≠ []) :
    c.runHere? symbols = some ((Piece.first symbols (c.fresh symbols) text).run c.position,
      c.advanceBy (Piece.first symbols (c.fresh symbols) text).written.length) := by
  obtain ⟨x, rest, rfl⟩ := List.exists_cons_of_ne_nil hne
  by_cases hx : x = '"'
  · subst hx
    have hahead : c.advance.ahead = rest := by simp [h]
    simp only [runHere?, h, if_pos, quotedRun_eq hahead, Piece.first_quote, Piece.quoted_written]
    rw [List.length_cons, advanceBy]
  · have hhead : (x :: rest).head? ≠ some '"' := by simpa using hx
    simp only [runHere?, h, if_neg hx, bareRun_eq h, Piece.first_bare _ _ hhead]

theorem runHere?_end (h : c.ahead = []) : c.runHere? symbols = none := by simp [runHere?, h]

end Cursor
end ExprLex
