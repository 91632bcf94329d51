import ExprLex.Proofs.Bookkeeping
import ExprLex.Proofs.SymbolBoundary

/-!
# What stands right before a dash

A dash may be a sign or a subtraction, and one character of look-behind decides. That character
tells what was read before: it is neither blank nor a symbol exactly if the run before ends right at
the dash and is something that can be subtracted from. So a dash begins a longer run exactly if no
operand touches it from the left and a digit, a point or a dash follows, and is a symbol otherwise.
-/
namespace ExprLex
open Text

namespace Run

/-- The offset behind the last character of a run. The closing quote belongs to the run, a blank
that is consumed to end it does not. -/
def stop (r : Run) : Nat :=
  match r.form with
  | .bare => r.start.offset + r.text.length
  | .closed => r.start.offset + r.text.length + 2
  | .unclosed => r.start.offset + r.text.length + 1

def IsSymbol (symbols : SymbolSet) (strict : Bool) (r : Run) : Prop :=
  ∃ x ∈ symbols, r.verdict strict = .token (.symbol x)

/-- What a dash can subtract from: a string that is closed, also an empty one, and outside quotes a
name, a number, a string, a single character that is not one of the symbols, and a numeral without
digits. -/
def IsOperand (symbols : SymbolSet) (r : Run) : Prop :=
  match r.form with
  | .closed => True
  | .unclosed => False
  | .bare =>
    match Verdict.ofBare r.text with
    | .nothing => False
    | .token (.symbol x) => x ∉ symbols
    | .token _ => True
    | .fault _ => True

variable {symbols : SymbolSet} {r : Run}

theorem IsOperand.not_isSymbol (h : r.IsOperand symbols) (strict : Bool) :
    ¬ r.IsSymbol symbols strict := by
  rintro ⟨x, hx, hverdict⟩
  rw [verdict] at hverdict
  rw [IsOperand] at h
  cases hform : r.form with
  | bare =>
    simp only [hform] at h hverdict
    rw [hverdict] at h
    exact h hx
  | closed =>
    simp only [hform, Verdict.ofQuoted] at hverdict
    split at hverdict <;> cases hverdict
  | unclosed =>
    rw [hform] at h
    exact h

theorem isOperand_of_endsPlain (hform : r.form = .bare) (h : symbols.EndsPlain r.text) :
    r.IsOperand symbols := by
  rw [IsOperand, hform]
  dsimp only
  have hstands := Verdict.stands_ofBare r.text
  cases hverdict : Verdict.ofBare r.text with
  | nothing =>
    rw [hverdict] at hstands
    generalize r.text = text at hstands h
    cases hstands
    obtain ⟨y, hy, -⟩ := h
    cases hy
  | fault f => trivial
  | token t =>
    cases t with
    | name | number | string => trivial
    | symbol x =>
      rw [hverdict] at hstands
      generalize r.text = text at hstands h
      cases hstands
      obtain ⟨y, hy, hplain⟩ := h
      obtain rfl : x = y := by simpa using hy
      exact (Piece.isPlain_iff.mp hplain).2

end Run

/-- The flag at an offset tells what the last run is: an operand ends right there, or else the run
is a symbol or ends earlier, if there is one. -/
def FreshTells (symbols : SymbolSet) (strict : Bool) (last : Option Run) (fresh : Bool)
    (offset : Nat) : Prop :=
  fresh = false ∧ (∃ r ∈ last, r.stop = offset ∧ r.IsOperand symbols) ∨
    fresh = true ∧ ∀ r ∈ last, r.stop < offset ∨ r.IsSymbol symbols strict

namespace Piece

variable {symbols : SymbolSet} {fresh : Bool} {text rest : List Char}

/-- Where a dash comes next, it is not the sign that has just been read: that takes all dashes. -/
theorem block_endsPlain (hne : block symbols fresh text ≠ [])
    (hrest : (text.drop (block symbols fresh text).length).head? = some '-') :
    symbols.EndsPlain (block symbols fresh text) := by
  rw [block] at hne hrest ⊢
  generalize hplains : (text.drop (sign symbols fresh text).length).takeWhile symbols.isPlain =
    plains at hne hrest ⊢
  rcases List.eq_nil_or_concat plains with rfl | ⟨front, y, rfl⟩
  · rw [List.append_nil] at hne hrest
    rw [sign] at hne hrest
    split at hne
    · have hdash := List.head?_dropWhile_not (· = '-') text
      rw [← drop_length_takeWhile] at hdash
      rw [if_pos ‹_›] at hrest
      rw [hrest] at hdash
      cases hdash
    · exact absurd rfl hne
  · refine ⟨y, by simp [List.concat_eq_append, ← List.append_assoc], ?_⟩
    apply List.mem_takeWhile_imp (l := text.drop (sign symbols fresh text).length)
    rw [hplains]
    simp

theorem stop_of_closed {tail : List Char} (h : (quoted tail).form = .closed) (start : Position) :
    ((quoted tail).run start).stop = start.offset + (quoted tail).written.length := by
  obtain ⟨-, -, ⟨-, hclosing⟩ | ⟨hform, -⟩⟩ := quoted_shape tail
  · simp only [quoted_written, Run.stop, run, h, hclosing, List.length_cons, List.length_append,
      List.length_nil]
    omega
  · rw [h] at hform
    cases hform

theorem stop_of_unclosed {tail : List Char} (h : (quoted tail).form = .unclosed)
    (start : Position) : ((quoted tail).run start).stop + (quoted tail).closing.length =
      start.offset + (quoted tail).written.length := by
  simp only [quoted_written, Run.stop, run, h, List.length_cons, List.length_append]
  omega

theorem stop_le (symbols : SymbolSet) (fresh : Bool) (start : Position) (text : List Char) :
    ((first symbols fresh text).run start).stop ≤
      start.offset + (first symbols fresh text).written.length := by
  by_cases hquote : text.head? = some '"'
  · obtain ⟨tail, rfl⟩ := List.head?_eq_some_iff.mp hquote
    rw [first_quote]
    cases hform : (quoted tail).form with
    | bare => exact absurd hform (quoted_form_ne_bare tail)
    | closed => exact (stop_of_closed hform start).le
    | unclosed => exact Nat.le.intro (stop_of_unclosed hform start)
  · simp [first_bare symbols fresh hquote, bare_written, Run.stop, run, bare_form]

theorem freshTells_quoted {tail : List Char}
    (hrest : tail.drop ((quoted tail).text ++ (quoted tail).closing).length ≠ [])
    (start : Position) (strict : Bool) :
    FreshTells symbols strict (some ((quoted tail).run start))
      (freshAfter symbols fresh (quoted tail).written)
      (start.offset + (quoted tail).written.length) := by
  obtain ⟨rest, hsplit, hends⟩ := quoted_shape tail
  have hwritten := quoted_written tail
  rcases hends with ⟨hform, hclosing⟩ | ⟨hform, hclosing | ⟨hclosing, rfl⟩⟩ <;>
    rw [hclosing] at hwritten
  · have hquote : '"' ∉ symbols := by
      intro hmem
      cases (symbols.admissible '"' hmem).1
    refine .inl ⟨?_, _, rfl, stop_of_closed hform start, ?_⟩
    · rw [hwritten, ← List.cons_append, freshAfter_concat]
      simpa using ⟨rfl, hquote⟩
    · simp [Run.IsOperand, run, hform]
  · refine .inr ⟨?_, ?_⟩
    · rw [hwritten, ← List.cons_append, freshAfter_concat]
      rfl
    · rintro r ⟨⟩
      have hstop := stop_of_unclosed hform start
      rw [hclosing] at hstop
      exact .inl (Nat.lt_of_succ_le hstop.le)
  · -- the quotes take up all the text, so that nothing could follow
    rw [hclosing, List.append_nil, List.append_nil] at hsplit
    rw [hclosing, List.append_nil, hsplit, List.drop_length] at hrest
    exact absurd rfl hrest

theorem freshTells_blank (text : List Char) {x : Char} (hx : isBlank x = true) (start : Position)
    (strict : Bool) :
    FreshTells symbols strict (some ⟨start, .bare, text⟩) (freshAfter symbols fresh (text ++ [x]))
      (start.offset + (text ++ [x]).length) := by
  refine .inr ⟨by simp [hx], ?_⟩
  rintro r ⟨⟩
  left
  simp [Run.stop]

theorem freshTells_of_block_nil (hne : text ≠ []) (hblock : block symbols fresh text = [])
    (start : Position) (strict : Bool) :
    FreshTells symbols strict (some ((bare symbols fresh text).run start))
      (freshAfter symbols fresh (bare symbols fresh text).written)
      (start.offset + (bare symbols fresh text).written.length) := by
  obtain ⟨x, tail, rfl⟩ := List.exists_cons_of_ne_nil hne
  rw [bare_of_block_nil hblock]
  cases hx : isBlank x with
  | true => exact freshTells_blank [] hx start strict
  | false =>
    have hmem : x ∈ symbols := by
      by_contra hnot
      rw [block_plain (isPlain_iff.mpr ⟨hx, hnot⟩)] at hblock
      cases hblock
    have hfits : (Item.symbol x).Fits symbols := symbols.admissible x hmem
    refine .inr ⟨by simp [written, freshAfter, hmem], ?_⟩
    rintro r ⟨⟩
    exact .inr ⟨x, hmem, Item.verdict_item hfits strict start⟩

theorem freshTells_of_block (hblock : block symbols fresh text ≠ [])
    (hrest : text.drop (bare symbols fresh text).written.length = '-' :: rest)
    (start : Position) (strict : Bool) :
    FreshTells symbols strict (some ((bare symbols fresh text).run start))
      (freshAfter symbols fresh (bare symbols fresh text).written)
      (start.offset + (bare symbols fresh text).written.length) := by
  rw [bare_of_block hblock] at hrest ⊢
  cases hdrop : text.drop (block symbols fresh text).length with
  | nil =>
    rw [hdrop] at hrest
    simp [written, closingBlank, hdrop] at hrest
  | cons y more =>
    cases hy : isBlank y with
    | true =>
      have hclosing : closingBlank (y :: more) = [y] := by simp [closingBlank, hy]
      rw [hclosing]
      exact freshTells_blank _ hy start strict
    | false =>
      have hclosing : closingBlank (y :: more) = [] := by simp [closingBlank, hy]
      simp only [hdrop, hclosing, written, List.append_nil] at hrest ⊢
      have hdash : (text.drop (block symbols fresh text).length).head? = some '-' := by
        rw [hdrop, hrest]
        rfl
      have hplain := block_endsPlain hblock hdash
      exact .inl ⟨SymbolSet.freshAfter_of_endsPlain hplain fresh, _, rfl, rfl,
        Run.isOperand_of_endsPlain rfl hplain⟩

theorem freshTells_first (hne : text ≠ [])
    (hrest : text.drop (first symbols fresh text).written.length = '-' :: rest)
    (start : Position) (strict : Bool) :
    FreshTells symbols strict (some ((first symbols fresh text).run start))
      (freshAfter symbols fresh (first symbols fresh text).written)
      (start.offset + (first symbols fresh text).written.length) := by
  by_cases hquote : text.head? = some '"'
  · obtain ⟨tail, rfl⟩ := List.head?_eq_some_iff.mp hquote
    rw [first_quote] at hrest ⊢
    rw [quoted_written, List.length_cons, List.drop_succ_cons] at hrest
    exact freshTells_quoted (hrest ▸ List.cons_ne_nil _ _) start strict
  · rw [first_bare symbols fresh hquote] at hrest ⊢
    by_cases hblock : block symbols fresh text = []
    · exact freshTells_of_block_nil hne hblock start strict
    · exact freshTells_of_block hblock hrest start strict

end Piece

namespace Cursor

variable {symbols : SymbolSet} {c after : Cursor} {r : Run}

theorem stop_le_of_readRun? (h : c.readRun? symbols = some (r, after)) :
    r.stop ≤ after.position.offset := by
  obtain ⟨-, rfl, rfl⟩ := readRun?_piece h
  have hsplit := Piece.first_written_append symbols (c.skipSpaces.fresh symbols) c.skipSpaces.ahead
  rw [advanceBy_of_ahead hsplit.symm, Position.after_offset]
  exact Piece.stop_le _ _ _ _

theorem freshTells_readRun? {rest : List Char} (h : c.readRun? symbols = some (r, after))
    (hdash : after.ahead = '-' :: rest) (strict : Bool) :
    FreshTells symbols strict (some r) (after.fresh symbols) after.position.offset := by
  obtain ⟨hne, rfl, rfl⟩ := readRun?_piece h
  have hsplit := Piece.first_written_append symbols (c.skipSpaces.fresh symbols) c.skipSpaces.ahead
  rw [advanceBy_ahead] at hdash
  rw [fresh_advanceBy hsplit.symm, advanceBy_of_ahead hsplit.symm, Position.after_offset]
  exact Piece.freshTells_first hne hdash _ strict

/-- Spaces leave nothing to subtract from, and what stands before them does not touch the dash. -/
theorem freshTells_skipSpaces {last : Option Run} {strict : Bool}
    (hstop : ∀ r ∈ last, r.stop ≤ c.position.offset)
    (hhere : c.skipSpaces = c →
      FreshTells symbols strict last (c.fresh symbols) c.position.offset) :
    FreshTells symbols strict last (c.skipSpaces.fresh symbols) c.skipSpaces.position.offset := by
  have hsplit : c.ahead = c.ahead.takeWhile (· = ' ') ++ c.ahead.dropWhile (· = ' ') :=
    List.takeWhile_append_dropWhile.symm
  have hskip : c.skipSpaces = c.advanceBy (c.ahead.takeWhile (· = ' ')).length := rfl
  rcases List.eq_nil_or_concat (c.ahead.takeWhile (· = ' ')) with hnil | ⟨front, x, hspaces⟩
  · have hstay : c.skipSpaces = c := by
      rw [hskip, hnil]
      rfl
    rw [hstay]
    exact hhere hstay
  · have hx : x = ' ' := by
      have hmem : x ∈ c.ahead.takeWhile (· = ' ') := by simp [hspaces]
      simpa using List.mem_takeWhile_imp hmem
    rw [hskip, fresh_advanceBy hsplit, advanceBy_of_ahead hsplit, Position.after_offset, hspaces,
      List.concat_eq_append, freshAfter_concat, hx]
    refine .inr ⟨rfl, fun r hr => .inl ?_⟩
    have := hstop r hr
    rw [List.length_append, List.length_singleton]
    omega

end Cursor

namespace Session

/-- The runs that have been read from a session on, oldest first, and the session that this has
led to: before the next run, or at the end. -/
inductive Trail (s : Session) : List Run → Session → Prop
  | start : Trail s [] s
  | run {read : List Run} {mid : Session} {r : Run} {after : Cursor} : Trail s read mid →
      mid.cursor.readRun? mid.settings.symbols = some (r, after) →
      Trail s (read ++ [r]) (mid.judge r after)
  | finish {read : List Run} {mid : Session} : Trail s read mid →
      mid.cursor.readRun? mid.settings.symbols = none →
      Trail s read (mid.moveTo mid.cursor.skipSpaces)

variable {s now : Session} {read : List Run}

theorem Trail.settings (h : s.Trail read now) : now.settings = s.settings := by
  induction h with
  | start => rfl
  | run _ _ ih => rw [judge_settings, ih]
  | finish _ _ ih => exact ih

theorem Trail.next (h : s.Trail read now) : ∃ more, s.Trail (read ++ more) now.next.2 := by
  induction now using next_induct generalizing read with
  | exhausted now hread hnext =>
    rw [hnext, ← (Cursor.readRun?_none hread).2]
    exact ⟨[], by simpa using h.finish hread⟩
  | idle now r after hread ho hnext ih =>
    obtain ⟨more, hmore⟩ := ih (h.run hread)
    rw [hnext]
    exact ⟨r :: more, by simpa using hmore⟩
  | found now r after o hread ho hnext =>
    rw [hnext]
    exact ⟨[r], h.run hread⟩

theorem Trail.pulls (h : s.Trail read now) (n : Nat) :
    ∃ more, s.Trail (read ++ more) (now.afterCalls (List.replicate n .next)) := by
  induction n generalizing read now with
  | zero => exact ⟨[], by simpa [afterCalls] using h⟩
  | succ n ih =>
    obtain ⟨first, hfirst⟩ := h.next
    obtain ⟨more, hmore⟩ := ih hfirst
    refine ⟨first ++ more, ?_⟩
    rw [List.replicate_succ, afterCalls_cons, answer, answerNext_eq, ← List.append_assoc]
    exact hmore

/-- The last run reaches up to the cursor at most, and where a dash follows, the cursor can tell
what this run is. -/
structure Recalls (read : List Run) (now : Session) : Prop where
  stop : ∀ r ∈ read.getLast?, r.stop ≤ now.cursor.position.offset
  dash : ∀ rest, now.cursor.ahead = '-' :: rest →
    FreshTells now.settings.symbols now.settings.strict read.getLast?
      (now.cursor.fresh now.settings.symbols) now.cursor.position.offset

theorem ofText_recalls (settings : Settings) (text : List Char) :
    Recalls [] (ofText settings text) :=
  ⟨nofun, fun _ _ => .inr ⟨rfl, nofun⟩⟩

theorem judge_recalls {r : Run} {after : Cursor}
    (h : now.cursor.readRun? now.settings.symbols = some (r, after)) :
    Recalls (read ++ [r]) (now.judge r after) := by
  refine ⟨?_, fun rest hdash => ?_⟩
  · rw [List.getLast?_concat, judge_cursor]
    rintro _ ⟨⟩
    exact Cursor.stop_le_of_readRun? h
  · rw [judge_cursor] at hdash
    rw [List.getLast?_concat, judge_settings, judge_cursor]
    exact Cursor.freshTells_readRun? h hdash now.settings.strict

theorem finish_recalls (h : Recalls read now)
    (hend : now.cursor.readRun? now.settings.symbols = none) :
    Recalls read (now.moveTo now.cursor.skipSpaces) := by
  have hstop := (Cursor.readRun?_none hend).2
  refine ⟨fun r hr => (h.stop r hr).trans ?_, fun rest hdash => ?_⟩
  · have hsplit : now.cursor.ahead = now.cursor.ahead ++ [] := (List.append_nil _).symm
    rw [moveTo, hstop, Cursor.toEnd, Cursor.advanceBy_of_ahead hsplit]
    simp [Position.after_offset]
  · simp [moveTo, hstop, Cursor.toEnd_ahead] at hdash

theorem Trail.recalls (h : s.Trail read now) (hstart : Recalls [] s) : Recalls read now := by
  induction h with
  | start => exact hstart
  | run _ hread _ => exact judge_recalls hread
  | finish _ hend ih => exact finish_recalls ih hend

end Session

theorem Cursor.opensNumeral_second (x : Char) (rest : List Char) :
    opensNumeral ((x :: rest).getD 1 '\x00') = true ↔ ∃ y ∈ rest.head?, opensNumeral y = true := by
  cases rest with
  | nil => exact iff_of_false (Bool.eq_false_iff.mp rfl) (by simp)
  | cons y rest => simp

/-- A dash that may be a sign does not stay alone before a digit, a point or a dash. -/
theorem Piece.first_sign {symbols : SymbolSet} {x : Char} (hdash : '-' ∈ symbols)
    (hx : Cursor.opensNumeral x = true) (rest : List Char) :
    ∃ tail ≠ [], ∃ closing,
      first symbols true ('-' :: x :: rest) = ⟨.bare, '-' :: tail, closing⟩ := by
  have hopens : Cursor.opensNumeral (('-' :: x :: rest).getD 1 '\x00') = true := hx
  have hblock := block_sign hdash hopens
  have hhead : ('-' :: x :: rest).head? ≠ some '"' := by simp
  rw [first_bare _ _ hhead, bare_of_block (hblock ▸ List.cons_ne_nil _ _), hblock]
  refine ⟨_, ?_, _, rfl⟩
  by_cases hsign : x = '-'
  · simp [hsign]
  · have hplain : symbols.isPlain x = true := by
      have hword : isWord x = true := by
        simp only [Cursor.opensNumeral, hsign, decide_false, Bool.or_false] at hx
        rw [isWord, Bool.or_assoc, hx, Bool.or_true]
      exact isPlain_iff.mpr ⟨(not_delimiter_iff.mp (opensNumeral_not_delimiter hx)).1,
        SymbolSet.not_mem_of_word hword⟩
    simp [hsign, hplain]

namespace Session

/-- An operand touches the position from the left: the last run ends right there and can be
subtracted from. -/
def Touches (symbols : SymbolSet) (read : List Run) (p : Position) : Prop :=
  ∃ r ∈ read.getLast?, r.stop = p.offset ∧ r.IsOperand symbols

theorem Recalls.fresh_iff {now : Session} {read : List Run} {rest : List Char}
    (h : Recalls read now) (hdash : now.cursor.skipSpaces.ahead = '-' :: rest) :
    let symbols := now.settings.symbols
    let here := now.cursor.skipSpaces
    (here.fresh symbols = false ↔ Touches symbols read here.position) ∧
      (Touches symbols read here.position ↔ ∃ r ∈ read.getLast?,
        r.stop = here.position.offset ∧ ¬ r.IsSymbol symbols now.settings.strict) := by
  intro symbols here
  have htells : FreshTells symbols now.settings.strict read.getLast? (here.fresh symbols)
      here.position.offset :=
    Cursor.freshTells_skipSpaces h.stop fun hstay => h.dash rest (hstay ▸ hdash)
  rcases htells with ⟨hfresh, r, hr, hstop, hoperand⟩ | ⟨hfresh, hlast⟩
  · have htouches : Touches symbols read here.position := ⟨r, hr, hstop, hoperand⟩
    exact ⟨iff_of_true hfresh htouches,
      iff_of_true htouches ⟨r, hr, hstop, hoperand.not_isSymbol _⟩⟩
  · have hother : ¬ ∃ r ∈ read.getLast?,
        r.stop = here.position.offset ∧ ¬ r.IsSymbol symbols now.settings.strict := by
      rintro ⟨r, hr, hstop, hsymbol⟩
      rcases hlast r hr with hlt | hmem
      · exact absurd hstop hlt.ne
      · exact hsymbol hmem
    have htouches : ¬ Touches symbols read here.position := by
      rintro ⟨r, hr, hstop, hoperand⟩
      exact hother ⟨r, hr, hstop, hoperand.not_isSymbol _⟩
    exact ⟨iff_of_false (by simp [here, symbols, hfresh]) htouches,
      iff_of_false htouches hother⟩

theorem readRun?_dash {now : Session} {rest : List Char} (hmem : '-' ∈ now.settings.symbols)
    (hdash : now.cursor.skipSpaces.ahead = '-' :: rest) :
    let here := now.cursor.skipSpaces
    ∃ tail after,
      now.cursor.readRun? now.settings.symbols =
        some (⟨here.position, .bare, '-' :: tail⟩, after) ∧
      (tail ≠ [] ↔ here.fresh now.settings.symbols = true ∧
        ∃ x ∈ rest.head?, Cursor.opensNumeral x = true) := by
  intro here
  have hread : now.cursor.readRun? now.settings.symbols = _ :=
    Cursor.runHere?_eq hdash (List.cons_ne_nil _ _)
  by_cases hsign : here.fresh now.settings.symbols = true ∧
      ∃ x ∈ rest.head?, Cursor.opensNumeral x = true
  · obtain ⟨hfresh, x, hx, hopens⟩ := id hsign
    obtain ⟨more, rfl⟩ := List.head?_eq_some_iff.mp hx
    obtain ⟨tail, htail, closing, hfirst⟩ := Piece.first_sign hmem hopens more
    rw [hfresh, hfirst] at hread
    exact ⟨tail, _, hread, iff_of_true htail hsign⟩
  · have hstop : here.fresh now.settings.symbols = false ∨
        Cursor.opensNumeral (('-' :: rest).getD 1 '\x00') = false := by
      rw [← Bool.not_eq_true, ← Bool.not_eq_true, Cursor.opensNumeral_second, ← not_and_or]
      exact hsign
    rw [Piece.first_symbol hmem fun _ => hstop] at hread
    exact ⟨[], _, hread, iff_of_false (by simp) hsign⟩

theorem next_of_symbol {now : Session} {r : Run} {after : Cursor} {x : Char}
    (hmem : x ∈ now.settings.symbols) (hr : r.form = .bare ∧ r.text = [x])
    (h : now.cursor.readRun? now.settings.symbols = some (r, after)) :
    now.next.1 = some (.token ⟨.symbol x, r.start⟩) := by
  obtain ⟨start, form, text⟩ := r
  obtain ⟨rfl, rfl⟩ := hr
  have hfits : (Item.symbol x).Fits now.settings.symbols := now.settings.symbols.admissible x hmem
  have hverdict := Item.verdict_item hfits now.settings.strict start
  change Run.verdict now.settings.strict ⟨start, .bare, [x]⟩ = .token (.symbol x) at hverdict
  rw [next_of_readRun? h]
  simp only [Run.outcome?, hverdict]

end Session

/-- Pulls leave a trail of the runs that they have read. On every trail, where the next run begins
with a dash, the character before it tells whether an operand touches the dash: so it is exactly if
the last run ends right there and is not one of the symbols. The run goes on behind the dash exactly
if no operand touches it and a digit, a point or a dash follows; otherwise the dash is a symbol. -/
theorem dash_follows_trail (settings : Settings) (text : List Char)
    (hmem : '-' ∈ settings.symbols) :
    let s := Session.ofText settings text
    (∀ n, ∃ read, s.Trail read (s.afterCalls (List.replicate n .next))) ∧
    ∀ read now rest, s.Trail read now → now.cursor.skipSpaces.ahead = '-' :: rest →
      let here := now.cursor.skipSpaces
      let operand := Session.Touches settings.symbols read here.position
      let sign := ¬ operand ∧ ∃ x ∈ rest.head?, Cursor.opensNumeral x = true
      (here.fresh settings.symbols = false ↔ operand) ∧
      (operand ↔ ∃ r ∈ read.getLast?, r.stop = here.position.offset ∧
        ¬ r.IsSymbol settings.symbols settings.strict) ∧
      (∃ tail after, now.cursor.readRun? settings.symbols =
        some (⟨here.position, .bare, '-' :: tail⟩, after) ∧ (tail ≠ [] ↔ sign)) ∧
      (¬ sign → now.next.1 = some (.token ⟨.symbol '-', here.position⟩)) := by
  intro s
  refine ⟨fun n => Session.Trail.start.pulls n, ?_⟩
  intro read now rest htrail hdash here operand sign
  have hrecalls := htrail.recalls (Session.ofText_recalls settings text)
  have hsettings : now.settings = settings := htrail.settings
  obtain ⟨hfresh, hother⟩ := hrecalls.fresh_iff hdash
  obtain ⟨tail, after, hread, htail⟩ := Session.readRun?_dash (hsettings.symm ▸ hmem) hdash
  have hsign : tail ≠ [] ↔ sign := by
    rw [htail, ← Bool.not_eq_false, hfresh, hsettings]
  have hsymbol : ¬ sign → now.next.1 = some (.token ⟨.symbol '-', here.position⟩) := by
    intro hnot
    rw [← hsign, not_ne_iff] at hnot
    subst hnot
    exact Session.next_of_symbol (hsettings.symm ▸ hmem) ⟨rfl, rfl⟩ hread
  rw [hsettings] at hfresh hother hread
  exact ⟨hfresh, hother, ⟨tail, after, hread, hsign⟩, hsymbol⟩

theorem dash_follows_trail_quotes :
    let s := Session.ofText .standard "\"\"--1".toList
    '-' ∈ Settings.standard.symbols ∧
    ∃ r now, s.Trail [r] now ∧ now.cursor.skipSpaces.ahead = ['-', '-', '1'] ∧
      Session.Touches Settings.standard.symbols [r] now.cursor.skipSpaces.position ∧
      now.next.1 = some (.token ⟨.symbol '-', now.cursor.skipSpaces.position⟩) := by
  intro s
  have hmem : '-' ∈ Settings.standard.symbols := by decide
  have hread : s.cursor.readRun? s.settings.symbols =
      some (⟨.start, .closed, []⟩, s.cursor.advanceBy 2) := by decide +kernel
  have htrail : s.Trail [⟨.start, .closed, []⟩] _ := .run .start hread
  have hdash : (s.judge ⟨.start, .closed, []⟩ (s.cursor.advanceBy 2)).cursor.skipSpaces.ahead =
      ['-', '-', '1'] := by decide +kernel
  have htouches : Session.Touches Settings.standard.symbols [⟨.start, .closed, []⟩]
      (s.judge ⟨.start, .closed, []⟩ (s.cursor.advanceBy 2)).cursor.skipSpaces.position :=
    ⟨_, rfl, rfl, trivial⟩
  obtain ⟨-, -, -, hsymbol⟩ :=
    (dash_follows_trail .standard "\"\"--1".toList hmem).2 _ _ _ htrail hdash
  exact ⟨hmem, _, _, htrail, hdash, htouches, hsymbol fun hsign => hsign.1 htouches⟩

end ExprLex
