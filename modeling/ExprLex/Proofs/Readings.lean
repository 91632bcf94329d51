import Mathlib.Data.List.Pairwise
import ExprLex.Proofs.Faults
import ExprLex.Proofs.LookBehind
import ExprLex.Proofs.SymbolsInSight

/-!
# What is consumed with a run

A run takes up the text from its first character on, up to where the cursor stands once it has been
read. What the runs of a text take up does not overlap, and leaves out nothing but spaces. So every
break is a run of its own, which is empty, or stands between quotes, or is consumed to end a run
outside quotes that is not empty, or quotes that are left open.
-/
namespace ExprLex
open Text

/-- A run with the cursor behind all that is consumed with it. -/
structure Reading where
  run : Run
  after : Cursor

namespace Reading

def Takes (q : Reading) (i : Nat) : Prop :=
  q.run.start.offset ≤ i ∧ i < q.after.position.offset

/-- The character is consumed to end the run. Closing quotes are not meant: they belong to it. -/
def EndsOn (q : Reading) (i : Nat) : Prop :=
  (q.run.form = .bare ∧ q.run.text ≠ [] ∨ q.run.form = .unclosed) ∧
    q.run.stop = i ∧ i < q.after.position.offset

theorem EndsOn.takes {q : Reading} {i : Nat} (h : q.EndsOn i) : q.Takes i := by
  obtain ⟨hform, rfl, hafter⟩ := h
  refine ⟨?_, hafter⟩
  rcases hform with ⟨hform, -⟩ | hform <;> simp only [Run.stop, hform] <;> omega

end Reading

/-- A run outside quotes without characters. -/
def Run.IsIdle (r : Run) : Prop := r.form = .bare ∧ r.text = []

theorem Run.IsIdle.not_encloses {r : Run} (h : r.IsIdle) (i : Nat) : ¬ r.Encloses i :=
  fun hencloses => hencloses.1 h.1

theorem Reading.not_endsOn {q : Reading} (h : q.run.IsIdle) (i : Nat) : ¬ q.EndsOn i := by
  rintro ⟨⟨-, hne⟩ | hform, -⟩
  · exact hne h.2
  · rw [h.1] at hform
    cases hform

namespace Piece

variable {symbols : SymbolSet} {fresh : Bool} {text : List Char} {j : Nat} {x : Char}

theorem closing_length_le (symbols : SymbolSet) (fresh : Bool) (text : List Char) :
    (bare symbols fresh text).closing.length ≤ 1 := by
  have hle (rest : List Char) : (closingBlank rest).length ≤ 1 :=
    (List.length_filter_le _ _).trans (List.length_take_le 1 rest)
  simp only [bare]
  split <;> exact hle _

/-- Outside quotes a break stands behind all other characters of a piece. -/
theorem break_of_bare (hx : (bare symbols fresh text).written[j]? = some x)
    (hbreak : isBreak x = true) : j = (bare symbols fresh text).text.length := by
  have hblank := isBlank_of_isBreak hbreak
  rw [bare_written] at hx
  by_cases hj : j < (bare symbols fresh text).text.length
  · rw [List.getElem?_append_left hj] at hx
    have hnot := bare_text_not_blank symbols fresh text x (List.mem_of_getElem? hx)
    rw [hblank] at hnot
    cases hnot
  · have hle : (bare symbols fresh text).text.length ≤ j := Nat.le_of_not_lt hj
    rw [List.getElem?_append_right hle] at hx
    have hlt := (List.getElem?_eq_some_iff.mp hx).1
    have hone := closing_length_le symbols fresh text
    omega

/-- A break behind an opening quote stands in the text, or ends it where there is no other quote. -/
theorem break_of_quoted (hx : (quoted text).written[j]? = some x) (hbreak : isBreak x = true) :
    0 < j ∧ (j ≤ (quoted text).text.length ∨
      (quoted text).form = .unclosed ∧ j = (quoted text).text.length + 1) := by
  rw [quoted_written] at hx
  cases j with
  | zero =>
    cases hx
    cases hbreak
  | succ j =>
    refine ⟨Nat.succ_pos j, ?_⟩
    rw [List.getElem?_cons_succ] at hx
    by_cases hj : j < (quoted text).text.length
    · exact .inl hj
    · have hle : (quoted text).text.length ≤ j := Nat.le_of_not_lt hj
      rw [List.getElem?_append_right hle] at hx
      have hlt := (List.getElem?_eq_some_iff.mp hx).1
      obtain ⟨rest, -, ⟨-, hclosing⟩ | ⟨hform, hclosing | ⟨hclosing, -⟩⟩⟩ := quoted_shape text
      · have hmem := List.mem_of_getElem? hx
        rw [hclosing, List.mem_singleton] at hmem
        subst hmem
        cases hbreak
      · rw [hclosing, List.length_singleton] at hlt
        exact .inr ⟨hform, by omega⟩
      · rw [hclosing] at hlt
        cases hlt

/-- A break that is read with a run is all of it, or is enclosed in quotes, or ends the run. -/
theorem break_of_first (hx : (first symbols fresh text).written[j]? = some x)
    (hbreak : isBreak x = true) (start : Position) :
    let r := (first symbols fresh text).run start
    r.IsIdle ∧ j = 0 ∨ r.Encloses (start.offset + j) ∨
      (r.form = .bare ∧ r.text ≠ [] ∨ r.form = .unclosed) ∧ r.stop = start.offset + j := by
  by_cases hquote : text.head? = some '"'
  · obtain ⟨tail, rfl⟩ := List.head?_eq_some_iff.mp hquote
    rw [first_quote] at hx ⊢
    intro r
    have hform : r.form ≠ .bare := quoted_form_ne_bare tail
    obtain ⟨hpos, hin | ⟨hopen, hlast⟩⟩ := break_of_quoted hx hbreak
    · exact .inr (.inl ⟨hform, Nat.lt_add_of_pos_right hpos, Nat.add_le_add_left hin _⟩)
    · have hunclosed : r.form = .unclosed := hopen
      refine .inr (.inr ⟨.inr hunclosed, ?_⟩)
      rw [Run.stop, hunclosed, hlast]
      rfl
  · rw [first_bare symbols fresh hquote] at hx ⊢
    intro r
    have hbare : r.form = .bare := bare_form symbols fresh text
    have hlast : j = r.text.length := break_of_bare hx hbreak
    by_cases hnil : r.text = []
    · exact .inl ⟨⟨hbare, hnil⟩, hlast.trans (congrArg List.length hnil)⟩
    · refine .inr (.inr ⟨.inl ⟨hbare, hnil⟩, ?_⟩)
      rw [Run.stop, hbare, hlast]
      rfl

/-- A run without characters has been read off a break. -/
theorem break_of_idle (hne : text ≠ []) (hspace : text.head? ≠ some ' ')
    (hform : (first symbols fresh text).form = .bare) (hnil : (first symbols fresh text).text = []) :
    ∃ x, text.head? = some x ∧ isBreak x = true := by
  have hquote : text.head? ≠ some '"' := by
    intro hhead
    obtain ⟨tail, rfl⟩ := List.head?_eq_some_iff.mp hhead
    exact quoted_form_ne_bare tail hform
  obtain ⟨x, rest, rfl⟩ := List.exists_cons_of_ne_nil hne
  rw [first_bare symbols fresh hquote] at hnil
  have hblock : block symbols fresh (x :: rest) = [] := by
    by_contra hblock
    rw [bare_of_block hblock] at hnil
    exact hblock hnil
  rw [bare_of_block_nil hblock] at hnil
  refine ⟨x, rfl, ?_⟩
  cases hx : isBlank x with
  | true => simpa [isBlank, show x ≠ ' ' by simpa using hspace] using hx
  | false => simp [hx] at hnil

end Piece

namespace Cursor

variable {symbols : SymbolSet} {c : Cursor} {i : Nat} {x : Char}

theorem offset_le_advanceBy (n : Nat) (c : Cursor) :
    c.position.offset ≤ (c.advanceBy n).position.offset := by
  induction n generalizing c with
  | zero => exact le_rfl
  | succ n ih =>
    refine le_trans ?_ (ih c.advance)
    cases hc : c.ahead with
    | nil => rw [advance_of_end hc]
    | cons x rest =>
      rw [advance_of_ahead hc]
      exact (Position.after_offset c.position [x]).ge.trans' (Nat.le_add_right _ _)

/-- What is read where the cursor stands. -/
def reading (symbols : SymbolSet) (c : Cursor) : Reading :=
  ⟨(c.piece symbols).run c.position, c.behindPiece symbols⟩

theorem reading_of_readRun? {after : Cursor} {r : Run}
    (h : c.readRun? symbols = some (r, after)) :
    c.skipSpaces.ahead ≠ [] ∧ ⟨r, after⟩ = c.skipSpaces.reading symbols := by
  obtain ⟨hne, rfl, rfl⟩ := readRun?_piece h
  exact ⟨hne, rfl⟩

theorem text_of_readRun? {after : Cursor} {r : Run} (h : c.readRun? symbols = some (r, after)) :
    after.text = c.text := by
  obtain ⟨-, j, -, rfl⟩ := readRun?_advanceBy h
  exact advanceBy_text j c

theorem takes_reading_iff : (c.reading symbols).Takes i ↔
    c.position.offset ≤ i ∧ i < c.position.offset + (c.piece symbols).written.length := by
  rw [← behindPiece_offset]
  rfl

theorem reading_takes_of_encloses (h : (c.reading symbols).run.Encloses i) :
    (c.reading symbols).Takes i := by
  obtain ⟨hform, hlt, hle⟩ := h
  have hwritten : (c.piece symbols).text.length < (c.piece symbols).written.length :=
    Piece.length_text_lt hform
  change c.position.offset < i at hlt
  change i ≤ c.position.offset + (c.piece symbols).text.length at hle
  rw [takes_reading_iff]
  omega

theorem reading_takes_start (hne : c.ahead ≠ []) :
    (c.reading symbols).Takes c.position.offset := by
  have hpos : 0 < (c.piece symbols).written.length :=
    List.length_pos_iff.mpr (Piece.first_written_ne_nil symbols _ hne)
  rw [takes_reading_iff]
  omega

/-- What becomes of a break that is read with a run. -/
theorem reading_break (hi : (c.reading symbols).Takes i)
    (hx : c.ahead[i - c.position.offset]? = some x) (hbreak : isBreak x = true) :
    (c.reading symbols).run.IsIdle ∧ (c.reading symbols).run.start.offset = i ∨
      (c.reading symbols).run.Encloses i ∨ (c.reading symbols).EndsOn i := by
  have hafter := hi.2
  rw [takes_reading_iff] at hi
  obtain ⟨j, rfl⟩ := Nat.exists_eq_add_of_le hi.1
  rw [Nat.add_sub_cancel_left, piece_append (a := symbols) c,
    List.getElem?_append_left (by omega)] at hx
  rcases Piece.break_of_first hx hbreak c.position with ⟨hidle, rfl⟩ | hencloses | ⟨hform, hstop⟩
  · exact .inl ⟨hidle, rfl⟩
  · exact .inr (.inl hencloses)
  · exact .inr (.inr ⟨hform, hstop, hafter⟩)

/-- The runs ahead, each with the cursor behind it. -/
def readings (symbols : SymbolSet) (c : Cursor) : List Reading :=
  match _h : c.readRun? symbols with
  | none => []
  | some (r, after) => ⟨r, after⟩ :: after.readings symbols
termination_by c.ahead.length
decreasing_by exact readRun?_length _h

theorem readings_runs (symbols : SymbolSet) (c : Cursor) :
    (c.readings symbols).map Reading.run = c.runs symbols := by
  fun_induction readings symbols c with
  | case1 c hread => rw [(readRun?_none hread).1, List.map_nil]
  | case2 c r after hread ih => rw [(readRun?_some hread).1, List.map_cons, ih]

theorem readings_of_some {after : Cursor} {r : Run} (h : c.readRun? symbols = some (r, after)) :
    c.readings symbols = ⟨r, after⟩ :: after.readings symbols := by
  rw [readings]
  split
  · simp_all
  · rename_i hread
    rw [h, Option.some.injEq, Prod.mk.injEq] at hread
    obtain ⟨rfl, rfl⟩ := hread
    rfl

theorem le_of_mem_readings {q : Reading} (h : q ∈ c.readings symbols) :
    c.position.offset ≤ q.run.start.offset := by
  have hrun : q.run ∈ c.runs symbols := by
    rw [← readings_runs]
    exact List.mem_map_of_mem h
  exact runsFrom_offset_le q.run hrun

theorem readings_pairwise (symbols : SymbolSet) (c : Cursor) :
    (c.readings symbols).Pairwise fun a b => a.after.position.offset ≤ b.run.start.offset := by
  fun_induction readings symbols c with
  | case1 => exact .nil
  | case2 c r after hread ih => exact .cons (fun q hq => le_of_mem_readings hq) ih

/-- No two runs take up the same character. -/
theorem eq_of_takes {q p : Reading} (hq : q ∈ c.readings symbols) (hp : p ∈ c.readings symbols)
    (hqi : q.Takes i) (hpi : p.Takes i) : q = p := by
  by_contra hne
  have hapart : (c.readings symbols).Pairwise fun a b => ¬ (a.Takes i ∧ b.Takes i) := by
    refine (readings_pairwise symbols c).imp ?_
    rintro a b hle ⟨⟨-, hlt⟩, hge, -⟩
    omega
  have hsymm : Std.Symm fun a b : Reading => ¬ (a.Takes i ∧ b.Takes i) :=
    ⟨fun _ _ h hba => h hba.symm⟩
  exact hapart.forall hq hp hne ⟨hqi, hpi⟩

theorem mem_readings_exists {q : Reading} (htracked : c.Tracked) (h : q ∈ c.readings symbols) :
    ∃ here : Cursor, here.Tracked ∧ here.text = c.text ∧ here.ahead ≠ [] ∧
      here.ahead.head? ≠ some ' ' ∧ q = here.reading symbols := by
  fun_induction readings symbols c with
  | case1 => cases h
  | case2 c r after hread ih =>
    obtain ⟨hne, heq⟩ := reading_of_readRun? hread
    rcases List.mem_cons.mp h with rfl | h
    · exact ⟨c.skipSpaces, htracked.advanceBy _, advanceBy_text _ c, hne, c.skipSpaces_head?, heq⟩
    · obtain ⟨here, hhere, htext, hrest⟩ := ih (htracked.of_readRun? hread) h
      exact ⟨here, hhere, htext.trans (text_of_readRun? hread), hrest⟩

section Members

variable {q : Reading} (htracked : c.Tracked) (hq : q ∈ c.readings symbols)
include htracked hq

theorem takes_start : q.Takes q.run.start.offset := by
  obtain ⟨here, -, -, hne, -, rfl⟩ := mem_readings_exists htracked hq
  exact reading_takes_start hne

theorem takes_of_encloses (h : q.run.Encloses i) : q.Takes i := by
  obtain ⟨here, -, -, -, -, rfl⟩ := mem_readings_exists htracked hq
  exact reading_takes_of_encloses h

theorem break_of_takes (hi : q.Takes i) (hx : c.text[i]? = some x) (hbreak : isBreak x = true) :
    q.run.IsIdle ∧ q.run.start.offset = i ∨ q.run.Encloses i ∨ q.EndsOn i := by
  obtain ⟨here, hhere, htext, -, -, rfl⟩ := mem_readings_exists htracked hq
  have hle : here.position.offset ≤ i := hi.1
  apply reading_break hi _ hbreak
  rwa [← hhere.getElem?, htext, Nat.add_sub_cancel' hle]

theorem isBreak_of_idle (hidle : q.run.IsIdle) :
    ∃ x, c.text[q.run.start.offset]? = some x ∧ isBreak x = true := by
  obtain ⟨here, hhere, htext, hne, hspace, rfl⟩ := mem_readings_exists htracked hq
  obtain ⟨x, hx, hbreak⟩ := Piece.break_of_idle hne hspace hidle.1 hidle.2
  refine ⟨x, ?_, hbreak⟩
  rw [List.head?_eq_getElem?, ← hhere.getElem?, htext] at hx
  exact hx

end Members

theorem space_of_skipped (htracked : c.Tracked) (hle : c.position.offset ≤ i)
    (hlt : i < c.skipSpaces.position.offset) (hx : c.text[i]? = some x) : x = ' ' := by
  obtain ⟨j, rfl⟩ := Nat.exists_eq_add_of_le hle
  have hsplit : c.ahead = c.ahead.takeWhile (· = ' ') ++ c.ahead.dropWhile (· = ' ') :=
    List.takeWhile_append_dropWhile.symm
  rw [skipSpaces, advanceBy_of_ahead hsplit, Position.after_offset] at hlt
  rw [htracked.getElem?, hsplit, List.getElem?_append_left (by omega)] at hx
  simpa using List.mem_takeWhile_imp (List.mem_of_getElem? hx)

/-- A character that no run takes up is a space. -/
theorem exists_takes (symbols : SymbolSet) (htracked : c.Tracked) (hle : c.position.offset ≤ i)
    (hx : c.text[i]? = some x) (hspace : x ≠ ' ') : ∃ q ∈ c.readings symbols, q.Takes i := by
  fun_induction readings symbols c with
  | case1 c hread =>
    have hend : c.skipSpaces.ahead = [] := by rw [(readRun?_none hread).2, toEnd_ahead]
    have hskipped : c.skipSpaces.Tracked := htracked.advanceBy _
    rw [hskipped.ahead, List.drop_eq_nil_iff, skipSpaces, advanceBy_text, ← skipSpaces] at hend
    have hlt := (List.getElem?_eq_some_iff.mp hx).1
    exact absurd (space_of_skipped htracked hle (by omega) hx) hspace
  | case2 c r after hread ih =>
    have heq := (reading_of_readRun? hread).2
    by_cases hbehind : after.position.offset ≤ i
    · rw [← text_of_readRun? hread] at hx
      obtain ⟨q, hq, htakes⟩ := ih (htracked.of_readRun? hread) hbehind hx
      exact ⟨q, List.mem_cons_of_mem _ hq, htakes⟩
    · refine ⟨⟨r, after⟩, List.mem_cons_self, ?_, Nat.lt_of_not_le hbehind⟩
      have hstart : r.start = c.skipSpaces.position := congrArg Run.start (Reading.mk.inj heq).1
      by_contra hskipped
      rw [hstart] at hskipped
      exact hspace (space_of_skipped htracked hle (Nat.lt_of_not_le hskipped) hx)

/-- Once some of the runs have been read, the runs without characters among them are the breaks that
do not stand between quotes and have not been consumed to end a run. -/
theorem idle_iff (htracked : c.Tracked) {done more : List Reading}
    (hsplit : c.readings symbols = done ++ more) {stop : Nat}
    (hdone : ∀ q ∈ done, q.after.position.offset ≤ stop)
    (hmore : ∀ q ∈ more, stop ≤ q.run.start.offset) (hle : c.position.offset ≤ i) :
    (∃ q ∈ done, q.run.IsIdle ∧ q.run.start.offset = i) ↔
      i < stop ∧ (∃ x, c.text[i]? = some x ∧ isBreak x = true) ∧
        ∀ q ∈ done, ¬ q.run.Encloses i ∧ ¬ q.EndsOn i := by
  have hsub : done ⊆ c.readings symbols := hsplit ▸ List.subset_append_left done more
  constructor
  · rintro ⟨q, hq, hidle, rfl⟩
    have hstart : q.Takes q.run.start.offset := takes_start htracked (hsub hq)
    have hsame {p : Reading} (hp : p ∈ done) (htakes : p.Takes q.run.start.offset) : p = q :=
      eq_of_takes (hsub hp) (hsub hq) htakes hstart
    refine ⟨hstart.2.trans_le (hdone q hq), isBreak_of_idle htracked (hsub hq) hidle,
      fun p hp => ⟨fun hencloses => ?_, fun hends => ?_⟩⟩
    · rw [hsame hp (takes_of_encloses htracked (hsub hp) hencloses)] at hencloses
      exact hidle.not_encloses _ hencloses
    · rw [hsame hp hends.takes] at hends
      exact Reading.not_endsOn hidle _ hends
  · rintro ⟨hlt, ⟨x, hx, hbreak⟩, hnone⟩
    have hspace : x ≠ ' ' := by
      rintro rfl
      cases hbreak
    obtain ⟨q, hq, htakes⟩ := exists_takes symbols htracked hle hx hspace
    have hmem : q ∈ done := by
      rw [hsplit] at hq
      refine (List.mem_append.mp hq).resolve_right fun hlater => ?_
      have hge := hmore q hlater
      have hstart := htakes.1
      omega
    obtain ⟨hin, hend⟩ := hnone q hmem
    rcases break_of_takes htracked hq htakes hx hbreak with hidle | hencloses | hends
    · exact ⟨q, hmem, hidle⟩
    · exact absurd hencloses hin
    · exact absurd hends hend

end Cursor
end ExprLex
