import ExprLex.Proofs.Bookkeeping
import ExprLex.Proofs.SymbolBoundary

/-!
# Reading on from any place

All that matters of the text behind a cursor is whether a dash that comes next could be subtracted
from what is there. So wherever a session stands, it finds what a new session finds in the rest of
the text, each at its place in the whole, unless such a dash comes next.
-/
namespace ExprLex
open Text

section Fresh

variable {symbols : SymbolSet} {text read : List Char}

theorem freshAfter_eq_false_iff :
    freshAfter symbols true text = false ↔ symbols.EndsPlain text := by
  constructor
  · intro h
    cases hlast : text.getLast? with
    | none => simp [freshAfter, hlast] at h
    | some x =>
      have hx : isBlank x = false ∧ x ∉ symbols := by simpa [freshAfter, hlast] using h
      exact ⟨x, hlast, Piece.isPlain_iff.mpr hx⟩
  · intro h
    exact SymbolSet.freshAfter_of_endsPlain h true

theorem freshAfter_of_ne_nil (h : read ≠ []) (a b : Bool) :
    freshAfter symbols a read = freshAfter symbols b read := by
  obtain ⟨front, x, rfl⟩ := (List.eq_nil_or_concat read).resolve_left h
  rw [List.concat_eq_append, freshAfter_concat, freshAfter_concat]

/-- Only for a dash does it matter what stands in front of it. -/
theorem Piece.first_of_no_dash (h : '-' ∈ symbols → text.head? ≠ some '-') (a b : Bool) :
    first symbols a text = first symbols b text := by
  have hsign : ∀ fresh, sign symbols fresh text = [] := by
    intro fresh
    by_cases hmem : '-' ∈ symbols
    · cases text with
      | nil => simp [sign]
      | cons x rest => exact sign_of_ne (by simpa using h hmem)
    · exact sign_of_not_mem fresh text hmem
  have hbare : bare symbols a text = bare symbols b text := by
    rw [bare, bare, block_of_no_sign (hsign a), block_of_no_sign (hsign b)]
  rw [first, first, hbare]

theorem runsFrom_of_no_dash (h : '-' ∈ symbols → text.head? ≠ some '-') (a b : Bool)
    (start : Position) : runsFrom symbols a start text = runsFrom symbols b start text := by
  cases text with
  | nil => rw [runsFrom_nil, runsFrom_nil]
  | cons x rest =>
    by_cases hspace : x = ' '
    · rw [hspace, runsFrom_space, runsFrom_space]
    · have hne : x :: rest ≠ [] := List.cons_ne_nil x rest
      have hhead : (x :: rest).head? ≠ some ' ' := by simpa using hspace
      have hfirst := Piece.first_of_no_dash h a b
      rw [runsFrom_piece hne hhead, runsFrom_piece hne hhead, hfirst,
        freshAfter_of_ne_nil (Piece.first_written_ne_nil symbols b hne) a b]

end Fresh

/-- Where the runs ahead are those of another session at other places, so is all that they bring
up. -/
theorem Session.outcomes_moved {s other : Session} {g : Position → Position}
    (hsettings : s.settings = other.settings) (hruns : s.runs = other.runs.map (Run.moved g))
    (hwarnings : other.warnings = #[]) (hlog : other.log = #[]) :
    s.outcomes.1 = other.outcomes.1.map (Outcome.moved g) ∧
      s.outcomes.2.warnings.toList = s.warnings.toList ++
        other.outcomes.2.warnings.toList.map (Placed.moved g) ∧
      s.outcomes.2.log.toList = s.log.toList ++
        other.outcomes.2.log.toList.map (Placed.moved g) := by
  obtain ⟨houtcomes, hreads, -⟩ := s.outcomes_eq
  obtain ⟨houtcomes', hreads', -⟩ := other.outcomes_eq
  rw [houtcomes, houtcomes', hreads.warnings, hreads'.warnings, hreads.log, hreads'.log, hruns,
    hsettings, hwarnings, hlog]
  refine ⟨?_, ?_, ?_⟩
  · simp only [List.filterMap_map, List.map_filterMap, Function.comp_def, Run.moved_outcome?]
  · simp only [List.filterMap_map, List.map_filterMap, Function.comp_def, Run.moved_notice?,
      List.nil_append]
  · simp only [List.flatMap_map, List.map_flatMap, Run.moved_events, List.nil_append]

/-- From any place in a text a session brings up what a new session brings up in the rest of the
text, everything at its place in the whole, whatever it has noted before. The rest must not begin
with a dash that could be subtracted from what stands in front of it. -/
theorem resumed_outcomes (settings : Settings) (text : List Char) (p : Nat)
    (warnings : Array (Placed Warning)) (log : Array (Placed Event))
    (h : ¬ ('-' ∈ settings.symbols ∧ text[p]? = some '-' ∧
      settings.symbols.EndsPlain (text.take p))) :
    let s : Session := ⟨settings, .inText text p, warnings, log⟩
    let anew := Session.ofText settings (text.drop p)
    let g := Position.behind (text.take p)
    s.outcomes.1 = anew.outcomes.1.map (Outcome.moved g) ∧
      s.outcomes.2.warnings.toList = warnings.toList ++
        anew.outcomes.2.warnings.toList.map (Placed.moved g) ∧
      s.outcomes.2.log.toList = log.toList ++
        anew.outcomes.2.log.toList.map (Placed.moved g) := by
  intro s anew g
  have hruns : s.runs = anew.runs.map (Run.moved g) := by
    have hstart : s.cursor.position = g Position.start := by
      change Position.ofRead (text.take p) = Position.start.behind (text.take p)
      rw [Position.start_behind, Position.start_after]
    have hfresh : s.runs = runsFrom settings.symbols true s.cursor.position (text.drop p) := by
      change runsFrom settings.symbols (s.cursor.fresh settings.symbols) _ _ = _
      cases hcursor : s.cursor.fresh settings.symbols with
      | true => rfl
      | false =>
        -- the cursor stands behind something that a dash could be subtracted from
        rw [Cursor.fresh_eq_freshAfter] at hcursor
        change freshAfter _ true (text.take p).reverse.reverse = false at hcursor
        rw [List.reverse_reverse, freshAfter_eq_false_iff] at hcursor
        apply runsFrom_of_no_dash
        intro hmem hhead
        have hnext : text[p]? = some '-' := List.head?_drop.symm.trans hhead
        exact h ⟨hmem, hnext, hcursor⟩
    rw [hfresh, hstart, runsFrom_moved fun read _ => Position.after_behind _ le_rfl read]
    rfl
  exact Session.outcomes_moved rfl hruns rfl rfl

theorem resumed_outcomes_sign :
    let text := "x\n=-1 \"q\n-.".toList
    let anew := Session.ofText .standard "-1 \"q\n-.".toList
    let g := Position.behind "x\n=".toList
    let s : Session := ⟨.standard, .inText text 3, #[], #[]⟩
    ¬ ('-' ∈ Settings.standard.symbols ∧ text[3]? = some '-' ∧
        Settings.standard.symbols.EndsPlain (text.take 3)) ∧
      s.outcomes.1 = anew.outcomes.1.map (Outcome.moved g) ∧
      s.outcomes.2.warnings.toList = anew.outcomes.2.warnings.toList.map (Placed.moved g) ∧
      s.outcomes.2.log.toList = anew.outcomes.2.log.toList.map (Placed.moved g) := by
  intro text anew g s
  have h : ¬ ('-' ∈ Settings.standard.symbols ∧ text[3]? = some '-' ∧
      Settings.standard.symbols.EndsPlain (text.take 3)) := by decide +kernel
  exact ⟨h, resumed_outcomes .standard text 3 #[] #[] h⟩

end ExprLex
