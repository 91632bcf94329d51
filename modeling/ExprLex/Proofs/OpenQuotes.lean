import ExprLex.Proofs.Offences
import ExprLex.Proofs.Strictness
import ExprLex.Proofs.TokenForms

/-!
# Quotes that are not closed

Text between quotes goes up to the closing quote or else up to the end of its line, and so on each
line one quote at most is left open. A lenient scan warns of these quotes, of each at its place and
with the text behind it, and of no others: every other quote that it reads as one is closed.
-/
namespace ExprLex
open Text

/-- Where a run between quotes stands: its opening quote, its text, and then the closing quote, or
else the end of the line. -/
def Run.Quoted (ahead : List Char) (r : Run) : Prop :=
  ∃ rest, ahead = '"' :: (r.text ++ rest) ∧ (∀ x ∈ r.text, x ≠ '"' ∧ x ≠ '\n') ∧
    (r.form = .closed ∧ rest.head? = some '"' ∨
      r.form = .unclosed ∧ ∀ x ∈ rest.head?, x = '\n')

section

variable {symbols : SymbolSet} {fresh : Bool} {start : Position} {text : List Char}

theorem Piece.head?_of_quoted (h : (first symbols fresh text).form ≠ .bare) :
    ∃ tail, text = '"' :: tail := by
  apply List.head?_eq_some_iff.mp
  by_contra hne
  rw [first_bare symbols fresh hne] at h
  exact h (bare_form symbols fresh text)

theorem Piece.first_quoted (h : (first symbols fresh text).form ≠ .bare) :
    ((first symbols fresh text).run start).Quoted text := by
  obtain ⟨tail, rfl⟩ := head?_of_quoted h
  obtain ⟨rest, hsplit, hends⟩ := quoted_shape tail
  rw [first_quote]
  refine ⟨(quoted tail).closing ++ rest, congrArg (List.cons '"') hsplit.symm, ?_, ?_⟩
  · intro x hx
    simpa [Cursor.inQuotes] using List.mem_takeWhile_imp hx
  · rcases hends with ⟨hform, hclosing⟩ | ⟨hform, hclosing | ⟨hclosing, rfl⟩⟩
    · exact .inl ⟨hform, by simp [hclosing]⟩
    · exact .inr ⟨hform, by simp [hclosing]⟩
    · exact .inr ⟨hform, by simp [hclosing]⟩

/-- Quotes that are left open, with more text behind them, take in the newline. -/
theorem Piece.newline_mem_of_unclosed (h : (first symbols fresh text).form = .unclosed)
    (hmore : text.drop (first symbols fresh text).written.length ≠ []) :
    '\n' ∈ (first symbols fresh text).written := by
  have hform : (first symbols fresh text).form ≠ .bare := by simp [h]
  obtain ⟨tail, rfl⟩ := head?_of_quoted hform
  rw [first_quote] at h hmore ⊢
  obtain ⟨rest, hsplit, ⟨hclosed, -⟩ | ⟨-, hclosing | ⟨hclosing, rfl⟩⟩⟩ := quoted_shape tail
  · rw [h] at hclosed
    cases hclosed
  · simp [quoted_written, hclosing]
  · rw [hclosing, List.append_nil, List.append_nil] at hsplit
    simp [quoted_written, hclosing, hsplit] at hmore

/-- An open quote takes up the rest of its line, so what is read later stands on a later line. -/
theorem runsFrom_lines : (runsFrom symbols fresh start text).Pairwise
    fun a b => a.form = .unclosed → a.start.line < b.start.line := by
  fun_induction runsFrom symbols fresh start text with
  | case1 => exact .nil
  | case2 fresh start rest ih => exact ih
  | case3 fresh start x rest hx k ih =>
    refine .cons (fun r hr hform => ?_) ih
    obtain ⟨read, left, now, hsplit, hne, rfl⟩ := exists_of_mem_runsFrom hr
    have hmore : (x :: rest).drop k.written.length ≠ [] :=
      hsplit ▸ List.append_ne_nil_of_right_ne_nil read hne
    have hcount : 0 < k.written.count '\n' :=
      List.count_pos_iff.mpr (Piece.newline_mem_of_unclosed hform hmore)
    change start.line < ((start.after k.written).after read).line
    rw [Position.after_line, Position.after_line]
    omega

end

namespace Session

variable {s : Session} {text : List Char} {r : Run}

theorem Sound.quoted (h : s.Sound text) (hr : r ∈ s.runs) (hform : r.form ≠ .bare) :
    r.Quoted (text.drop r.start.offset) := by
  obtain ⟨fresh, hpiece⟩ := h.exists_piece hr
  rw [hpiece] at hform ⊢
  exact Piece.first_quoted hform

theorem Sound.isAt (h : s.Sound text) (hr : r ∈ s.runs) : r.IsAt text := by
  obtain ⟨fresh, hpiece⟩ := h.exists_piece hr
  rw [hpiece]
  exact Piece.first_isAt rfl

end Session

namespace Run

variable {strict : Bool} {r : Run} {text : List Char}

/-- Text between quotes is a string, unless there is none. -/
theorem verdict_of_clean_quotes (hform : r.form ≠ .bare) (hclean : ¬ r.Offends strict) :
    r.verdict strict = .ofQuoted r.text :=
  verdict_of_quotes hform (by rw [fault?_eq, if_neg hclean])

theorem token?_of_quotes (hform : r.form ≠ .bare) (hclean : ¬ r.Offends strict) :
    r.token? strict =
      if r.text = [] then none else some ⟨.string (String.ofList r.text), r.start⟩ := by
  rw [token?, outcome?, verdict_of_clean_quotes hform hclean]
  by_cases hnil : r.text = []
  · rw [hnil]
    rfl
  · rw [Verdict.ofQuoted_eq hnil, if_neg hnil]
    rfl

theorem notice?_eq_some_iff {w : Placed Warning} : r.notice? strict = some w ↔
    (r.form = .unclosed ∧ strict = false) ∧ w = ⟨⟨String.ofList r.text⟩, r.start⟩ := by
  rw [notice?, warning?]
  split <;> simp_all [eq_comm]

theorem offence_of_bare (hform : r.form = .bare) :
    r.offence = .digitlessNumeral (String.ofList r.text) := by
  rw [offence, hform]

theorem not_offends_of_lenient (hform : r.form ≠ .bare) : ¬ r.Offends false := by
  simp [Offends, hform]

theorem form_of_isAt (h : r.IsAt text) (hquote : text[r.start.offset]? = some '"') :
    r.form ≠ .bare := by
  intro hform
  rw [IsAt, if_pos hform, List.head?_drop] at h
  exact h.1 hquote

theorem mem_clean_of_reached {rs : List Run} (h : r ∈ reached strict rs)
    (hclean : ¬ r.Offends strict) : r ∈ clean strict rs := by
  rcases List.mem_append.mp h with h | h
  · exact h
  · exact absurd (offends_of_offender? (Option.mem_toList.mp h)) hclean

end Run

/-- The text behind a place up to the end of its line. -/
def lineRest (text : List Char) (offset : Nat) : List Char :=
  (text.drop (offset + 1)).takeWhile (· ≠ '\n')

theorem lineRest_of_unclosed {text : List Char} {r : Run}
    (hquoted : r.Quoted (text.drop r.start.offset)) (hform : r.form = .unclosed) :
    text[r.start.offset]? = some '"' ∧ lineRest text r.start.offset = r.text ∧ '"' ∉ r.text := by
  obtain ⟨rest, hsplit, hchars, ⟨hclosed, -⟩ | ⟨-, hline⟩⟩ := hquoted
  · rw [hform] at hclosed
    cases hclosed
  · have htail : text.drop (r.start.offset + 1) = r.text ++ rest := by
      rw [← List.tail_drop, hsplit, List.tail_cons]
    have htext : ∀ x ∈ r.text, decide (x ≠ '\n') = true :=
      fun x hx => decide_eq_true (hchars x hx).2
    have hstop : rest.takeWhile (· ≠ '\n') = [] := by
      cases rest with
      | nil => rfl
      | cons y rest => simp [hline y rfl]
    refine ⟨?_, ?_, fun hmem => (hchars _ hmem).1 rfl⟩
    · rw [← List.head?_drop, hsplit, List.head?_cons]
    · rw [lineRest, htail, List.takeWhile_append_of_pos htext, hstop, List.append_nil]

/-- The warning is about a quote in the text, with the rest of the line behind it, where no other
quote stands; a token with this text has the place of the warning, if there is any text. -/
structure TellsOpenQuote (text : List Char) (file : String) (tokens : List (Placed Token))
    (w : Placed Warning) : Prop where
  place : w.start.IsIn text
  quote : text[w.start.offset]? = some '"'
  code : (w.item.diagnostic (w.start.inFile file)).code = some "L002"
  message : (w.item.diagnostic (w.start.inFile file)).message =
    "Unterminated string literal: \"" ++ String.ofList (lineRest text w.start.offset)
  no_quote : '"' ∉ lineRest text w.start.offset
  token : ⟨.string (String.ofList (lineRest text w.start.offset)), w.start⟩ ∈ tokens ↔
    lineRest text w.start.offset ≠ []

section

variable {rs : List Run}

theorem warnings_pairwise (hlines : rs.Pairwise fun a b => a.form = .unclosed →
    a.start.line < b.start.line) (hsorted : Run.Ascending rs) (strict : Bool) :
    (rs.filterMap (Run.notice? strict)).Pairwise fun a b =>
      a.start.offset < b.start.offset ∧ a.start.line < b.start.line := by
  refine List.Pairwise.filterMap _ ?_ (hlines.and hsorted)
  rintro a b ⟨hline, hoffset⟩ v hv w hw
  obtain ⟨⟨hform, -⟩, rfl⟩ := Run.notice?_eq_some_iff.mp hv
  obtain ⟨-, rfl⟩ := Run.notice?_eq_some_iff.mp hw
  exact ⟨hoffset, hline hform⟩

theorem mem_tokens_of_quotes {strict : Bool} (hsorted : Run.Ascending rs) {r : Run} (hr : r ∈ rs)
    (hform : r.form ≠ .bare) (hclean : ¬ r.Offends strict) :
    ⟨.string (String.ofList r.text), r.start⟩ ∈ rs.filterMap (Run.token? strict) ↔
      r.text ≠ [] := by
  have htoken := Run.token?_of_quotes hform hclean
  constructor
  · intro hmem hnil
    obtain ⟨other, hother, hot⟩ := List.mem_filterMap.mp hmem
    obtain rfl : other = r := eq_of_start hsorted hother hr (Run.token?_start hot).symm
    rw [htoken, if_pos hnil] at hot
    cases hot
  · intro hne
    exact List.mem_filterMap.mpr ⟨r, hr, by rw [htoken, if_neg hne]⟩

end

theorem tellsOpenQuote_of_run {text : List Char} {tokens : List (Placed Token)} {r : Run}
    (hplace : r.start.IsIn text) (hquoted : r.Quoted (text.drop r.start.offset))
    (hform : r.form = .unclosed)
    (htoken : ⟨.string (String.ofList r.text), r.start⟩ ∈ tokens ↔ r.text ≠ []) (file : String) :
    TellsOpenQuote text file tokens ⟨⟨String.ofList r.text⟩, r.start⟩ := by
  obtain ⟨hquote, hrest, hnone⟩ := lineRest_of_unclosed hquoted hform
  refine ⟨hplace, hquote, rfl, ?_, ?_, ?_⟩ <;> dsimp only <;> rw [hrest]
  · rfl
  · exact hnone
  · exact htoken

theorem Run.Quoted.closed {ahead : List Char} {r : Run} (h : r.Quoted ahead)
    (hform : r.form ≠ .unclosed) : '"' :: (r.text ++ ['"']) <+: ahead := by
  obtain ⟨rest, rfl, -, ⟨-, hrest⟩ | ⟨hunclosed, -⟩⟩ := h
  · obtain ⟨more, rfl⟩ := List.head?_eq_some_iff.mp hrest
    exact ⟨more, by simp⟩
  · exact absurd hunclosed hform

theorem Run.discarded_mem_events {r : Run} {strict : Bool} (hform : r.form ≠ .bare)
    (hclean : ¬ r.Offends strict) (hnil : r.text = []) :
    ⟨.discarded, r.start⟩ ∈ r.events strict := by
  rw [events, verdict_of_clean_quotes hform hclean, hnil]
  exact List.mem_append_right _ List.mem_cons_self

/-- A lenient scan warns of the quotes that are open, in their order and at most once a line; each
warning tells where the quote stands and the rest of its line. Every run that it reads from a quote
on is a token or, without text, is discarded, and if there is no warning of it, it is closed. The
runs that it reads are all that there are, or those up to the first that is a fault. -/
theorem warnings_of_open_quotes (symbols : SymbolSet) (file : String) (text : List Char) :
    let s := Session.ofText ⟨symbols, false, file⟩ text
    let result := s.drain
    let warnings := result.session.warnings.toList
    (∀ f ∈ result.fault, f.item.mistake = .digitlessNumeral) ∧
    warnings.Pairwise
      (fun a b => a.start.offset < b.start.offset ∧ a.start.line < b.start.line) ∧
    (∀ w ∈ warnings, TellsOpenQuote text file result.tokens w) ∧
    ∃ read, s.Reads read result.session ∧
      Scan.Ends false read result.session.runs result.fault ∧
      ∀ r ∈ read, text[r.start.offset]? = some '"' →
        (r.text ≠ [] ∧ ⟨.string (String.ofList r.text), r.start⟩ ∈ result.tokens ∨
          r.text = [] ∧ ⟨.discarded, r.start⟩ ∈ result.session.log.toList) ∧
        ((∀ w ∈ warnings, w.start ≠ r.start) →
          '"' :: (r.text ++ ['"']) <+: text.drop r.start.offset) := by
  intro s result warnings
  have hsound : s.Sound text := Session.ofText_sound _ text
  have hnone : ∀ t ∈ ([] : List (Placed Token)), t.start.IsIn text := by simp
  have hplaces := (Session.drainAfter_onward hsound hnone).1.sound.warnings
  obtain ⟨hreads, htokens, hwarnings, hfault⟩ := s.drain_spec
  have hsub : (Run.clean false s.runs).Sublist s.runs := List.takeWhile_sublist _
  have hsorted : Run.Ascending (Run.clean false s.runs) :=
    List.Pairwise.sublist hsub runsFrom_ascending
  have hlines : (Run.clean false s.runs).Pairwise
      fun a b => a.form = .unclosed → a.start.line < b.start.line :=
    List.Pairwise.sublist hsub runsFrom_lines
  replace htokens : result.tokens = (Run.clean false s.runs).filterMap (Run.token? false) := htokens
  replace hwarnings : warnings = (Run.clean false s.runs).filterMap (Run.notice? false) := hwarnings
  refine ⟨?_, ?_, ?_, Run.reached false s.runs, hreads, Session.drain_ends hreads.runs, ?_⟩
  · intro f hf
    obtain ⟨r, hr, rfl⟩ := Option.map_eq_some_iff.mp (hfault.symm.trans hf)
    have hoffends : r.Offends false := Run.offends_of_offender? hr
    have hform : r.form = .bare :=
      not_not.mp fun hquotes => Run.not_offends_of_lenient hquotes hoffends
    rw [Run.offence_of_bare hform]
    rfl
  · rw [hwarnings]
    exact warnings_pairwise hlines hsorted false
  · intro w hw
    have hin := hplaces w hw
    rw [hwarnings] at hw
    obtain ⟨r, hr, hnotice⟩ := List.mem_filterMap.mp hw
    obtain ⟨⟨hform, -⟩, rfl⟩ := Run.notice?_eq_some_iff.mp hnotice
    have hquotes : r.form ≠ .bare := by simp [hform]
    have htoken := mem_tokens_of_quotes hsorted hr hquotes (Run.not_offends_of_lenient hquotes)
    rw [← htokens] at htoken
    exact tellsOpenQuote_of_run hin (hsound.quoted (hsub.subset hr) hquotes) hform htoken file
  · intro r hr hquote
    have hmem : r ∈ s.runs := (Run.reached_isPrefix false s.runs).subset hr
    have hquotes : r.form ≠ .bare := Run.form_of_isAt (hsound.isAt hmem) hquote
    have hlenient := Run.not_offends_of_lenient hquotes
    have hclean := Run.mem_clean_of_reached hr hlenient
    refine ⟨?_, fun hsilent => (hsound.quoted hmem hquotes).closed fun hform => ?_⟩
    · by_cases hnil : r.text = []
      · right
        refine ⟨hnil, ?_⟩
        rw [hreads.log]
        exact List.mem_append_right _
          (List.mem_flatMap.mpr ⟨r, hr, Run.discarded_mem_events hquotes hlenient hnil⟩)
      · left
        rw [htokens]
        exact ⟨hnil, (mem_tokens_of_quotes hsorted hclean hquotes hlenient).mpr hnil⟩
    · have hnotice : r.notice? false = some ⟨⟨String.ofList r.text⟩, r.start⟩ :=
        Run.notice?_eq_some_iff.mpr ⟨⟨hform, rfl⟩, rfl⟩
      refine hsilent ⟨⟨String.ofList r.text⟩, r.start⟩ ?_ rfl
      rw [hwarnings]
      exact List.mem_filterMap.mpr ⟨r, hclean, hnotice⟩

end ExprLex
