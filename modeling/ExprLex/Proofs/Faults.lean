import ExprLex.Proofs.Indexing
import ExprLex.Proofs.OpenQuotes

/-!
# What can go wrong

Nothing breaks a reading down, neither a character that is fetched from the text nor the conversion
of a numeral nor the check of a symbol, so that faults are all that can go wrong. A scan ends with a
fault exactly if there is a run ahead that offends, and it is the first such run that is told and
whose place is given. The runs before it have become tokens and warnings, and nothing is warned of
that run itself.
-/
namespace ExprLex
open Text

/-- The verdict on a run outside quotes, by a conversion of numerals that may refuse one. -/
def Verdict.ofBareBy (convert : List Char → Option Binary64) (text : List Char) :
    Except Breakdown Verdict :=
  if Numeral.isNumeral text then
    if Numeral.hasDigit text then
      match convert text with
      | some v => .ok (.token (.number v))
      | none => .error (.numeral text)
    else .ok (.fault (.digitlessNumeral (String.ofList text)))
  else do
    let x ← charAt text 0
    if isLetter x then .ok (.token (.name (String.ofList text)))
    else if text.length = 1 then
      match Token.symbolOfText (String.ofList text) with
      | .ok t => .ok (.token t)
      | .error e => .error (.symbol e)
    else .ok (.token (.string (String.ofList text)))

def Run.verdictBy (convert : List Char → Option Binary64) (strict : Bool) (r : Run) :
    Except Breakdown Verdict :=
  match r.form with
  | .bare => if r.text.isEmpty then .ok .nothing else Verdict.ofBareBy convert r.text
  | .closed => .ok (.ofQuoted r.text)
  | .unclosed =>
    .ok (if strict then .fault (.openString (String.ofList r.text)) else .ofQuoted r.text)

namespace Session

/-- The next outcome, read by index. -/
def nextBy (convert : List Char → Option Binary64) (s : Session) :
    Except Breakdown (Option Outcome × Session) :=
  match _h : s.cursor.reader.readRun? s.settings.symbols with
  | .error e => .error e
  | .ok (none, place) => .ok (none, s.moveTo place.cursor)
  | .ok (some r, place) => do
    let verdict ← r.verdictBy convert s.settings.strict
    let after := s.accept r place.cursor
    match verdict with
    | .nothing => nextBy convert (after.record r.start .discarded)
    | .token t => .ok (some (.token ⟨t, r.start⟩), after.record r.start (.scanned t))
    | .fault f => .ok (some (.fault ⟨f, r.start⟩), after)
termination_by s.cursor.reader.left
decreasing_by
  have hcursor : (s.accept r place.cursor).cursor.reader = place := by
    rw [accept_cursor, place.cursor_reader]
  rw [record_cursor, hcursor]
  exact Reader.readRun?_left _h

end Session

/-- Numerals that have a digit are converted. -/
def Numeral.AcceptedBy (convert : List Char → Option Binary64) : Prop :=
  ∀ p : Parts, p.digits ≠ [] → (convert p.text).isSome = true

/-- Numerals that have a digit are converted to the doubles nearest to what is written. -/
def Numeral.ValuedBy (convert : List Char → Option Binary64) : Prop :=
  ∀ p : Parts, p.digits ≠ [] → convert p.text = some p.decimal.toBinary64

section

variable {convert : List Char → Option Binary64}

theorem Verdict.ofBare_ne_nothing {text : List Char} (h : text ≠ []) :
    ofBare text ≠ .nothing := by
  obtain ⟨x, rest, rfl⟩ := List.exists_cons_of_ne_nil h
  simp only [ofBare, ofNumeral]
  repeat' split
  all_goals simp

theorem Verdict.ofBareBy_ok (haccepts : Numeral.AcceptedBy convert) {text : List Char}
    (hne : text ≠ []) : ∃ v, ofBareBy convert text = .ok v ∧ v ≠ .nothing ∧
      (Numeral.ValuedBy convert → v = ofBare text) := by
  obtain ⟨x, rest, rfl⟩ := List.exists_cons_of_ne_nil hne
  by_cases hnumeral : Numeral.isNumeral (x :: rest) = true
  · by_cases hdigit : Numeral.hasDigit (x :: rest) = true
    · obtain ⟨-, -, p, hp⟩ := Numeral.isNumeral_iff.mp hnumeral
      have hdigits : p.digits ≠ [] := p.hasDigit_text.mp (hp ▸ hdigit)
      obtain ⟨v, hv⟩ := Option.isSome_iff_exists.mp (haccepts p hdigits)
      rw [hp] at hv
      refine ⟨.token (.number v), ?_, by simp, fun hvalued => ?_⟩
      · rw [ofBareBy, if_pos hnumeral, if_pos hdigit, hv]
      · have hvalue : v = Numeral.value (x :: rest) := by
          rw [← hp, p.value_text]
          exact Option.some.inj (hv.symm.trans (hp ▸ hvalued p hdigits))
        simp [ofBare, ofNumeral, Numeral.value?, hnumeral, hdigit, hvalue]
    · refine ⟨.fault (.digitlessNumeral (String.ofList (x :: rest))), ?_, by simp, fun _ => ?_⟩
      · rw [ofBareBy, if_pos hnumeral, if_neg hdigit]
      · simp [ofBare, ofNumeral, Numeral.value?, hnumeral, hdigit]
  · refine ⟨ofBare (x :: rest), ?_, ofBare_ne_nothing hne, fun _ => rfl⟩
    rw [ofBareBy, if_neg hnumeral, ofBare, if_neg hnumeral]
    simp only [charAt, List.getElem?_cons_zero, bind, Except.bind]
    cases rest with
    | nil => split <;> simp [Token.symbolOfText]
    | cons y rest => split <;> simp

theorem Run.verdictBy_ok (haccepts : Numeral.AcceptedBy convert) (strict : Bool) (r : Run) :
    ∃ v, r.verdictBy convert strict = .ok v ∧ (v = .nothing ↔ r.verdict strict = .nothing) ∧
      (Numeral.ValuedBy convert → v = r.verdict strict) := by
  cases hform : r.form with
  | bare =>
    by_cases hnil : r.text = []
    · exact ⟨.nothing, by simp [verdictBy, verdict, hform, hnil, Verdict.ofBare]⟩
    · obtain ⟨v, hv, hne, hvalued⟩ := Verdict.ofBareBy_ok haccepts hnil
      have hverdict : r.verdict strict = .ofBare r.text := by rw [verdict, hform]
      rw [hverdict]
      refine ⟨v, ?_, iff_of_false hne (Verdict.ofBare_ne_nothing hnil), hvalued⟩
      simp [verdictBy, hform, hnil, hv]
  | closed => exact ⟨r.verdict strict, by simp [verdictBy, verdict, hform]⟩
  | unclosed => exact ⟨r.verdict strict, by simp [verdictBy, verdict, hform]⟩

namespace Session

variable {s : Session} {r : Run} {after : Cursor}

theorem nextBy_of_readRun?_none (h : s.cursor.Tracked)
    (hread : s.cursor.readRun? s.settings.symbols = none) :
    s.nextBy convert = .ok (none, s.moveTo s.cursor.toEnd) := by
  have hplace := h.reader_readRun?_none hread
  have hend : s.cursor.skipSpaces.Tracked := h.advanceBy _
  rw [nextBy]
  split <;> rename_i hby <;> rw [hplace] at hby <;> cases hby
  rw [hend, (Cursor.readRun?_none hread).2]

theorem nextBy_of_readRun? (h : s.cursor.Tracked)
    (hread : s.cursor.readRun? s.settings.symbols = some (r, after)) :
    s.nextBy convert = r.verdictBy convert s.settings.strict >>= fun v => match v with
      | .nothing => ((s.accept r after).record r.start .discarded).nextBy convert
      | .token t =>
        .ok (some (.token ⟨t, r.start⟩), (s.accept r after).record r.start (.scanned t))
      | .fault f => .ok (some (.fault ⟨f, r.start⟩), s.accept r after) := by
  have hplace := h.reader_readRun?_some hread
  have hafter : after.Tracked := h.of_readRun? hread
  rw [nextBy]
  split <;> rename_i hby <;> rw [hplace] at hby <;> cases hby
  rw [hafter]

/-- Reading by index brings up the next outcome, and if numerals get their values, then it brings up
what a pull does. -/
theorem nextBy_ok (haccepts : Numeral.AcceptedBy convert) (s : Session)
    (h : s.cursor.Tracked) : ∃ result, s.nextBy convert = .ok result ∧
      (Numeral.ValuedBy convert → result = s.next) := by
  induction s using next_induct with
  | exhausted s hread hnext =>
    exact ⟨s.next, by rw [nextBy_of_readRun?_none h hread, hnext], fun _ => rfl⟩
  | idle s r after hread ho hnext ih =>
    obtain ⟨v, hv, hnothing, -⟩ := r.verdictBy_ok haccepts s.settings.strict
    have hverdict : r.verdict s.settings.strict = .nothing := by
      cases hv : r.verdict s.settings.strict <;> simp [Run.outcome?, hv] at ho ⊢
    obtain rfl : v = .nothing := hnothing.mpr hverdict
    have hjudge : (s.accept r after).record r.start .discarded = s.judge r after := by
      simp only [judge, hverdict]
    have htracked : (s.judge r after).cursor.Tracked := by
      rw [judge_cursor]
      exact h.of_readRun? hread
    obtain ⟨result, hresult, hvalued⟩ := ih htracked
    refine ⟨result, ?_, hnext ▸ hvalued⟩
    rw [nextBy_of_readRun? h hread, hv, ← hresult, ← hjudge]
    rfl
  | found s r after o hread ho hnext =>
    obtain ⟨v, hv, hnothing, hvalued⟩ := r.verdictBy_ok haccepts s.settings.strict
    rw [nextBy_of_readRun? h hread, hv, hnext]
    cases v with
    | nothing => simp [Run.outcome?, hnothing.mp rfl] at ho
    | token _ | fault _ =>
      refine ⟨_, rfl, fun hexact => ?_⟩
      have hverdict := hvalued hexact
      simp only [Run.outcome?, ← hverdict, Option.some.injEq] at ho
      simp only [judge, ← hverdict, ho]

end Session

end
namespace Run

variable {strict : Bool} {r : Run}

theorem text_of_nothing (h : r.verdict strict = .nothing) : r.text = [] := by
  by_contra hne
  rw [verdict] at h
  cases hform : r.form with
  | bare =>
    rw [hform] at h
    exact Verdict.ofBare_ne_nothing hne h
  | closed =>
    rw [hform, Verdict.ofQuoted_eq hne] at h
    cases h
  | unclosed =>
    rw [hform, Verdict.ofQuoted_eq hne] at h
    cases strict <;> cases h

theorem verdict_of_clean_empty (hclean : ¬ r.Offends strict) (hnil : r.text = []) :
    r.verdict strict = .nothing := by
  by_cases hform : r.form = .bare
  · rw [verdict, hform, hnil]
    rfl
  · rw [verdict_of_clean_quotes hform hclean, hnil]
    rfl

theorem verdict_of_clean (hclean : ¬ r.Offends strict) (hne : r.text ≠ []) :
    ∃ t, r.verdict strict = .token t := by
  cases h : r.verdict strict with
  | nothing => exact absurd (text_of_nothing h) hne
  | token t => exact ⟨t, rfl⟩
  | fault f =>
    have hfault : r.outcome? strict = some (.fault ⟨f, r.start⟩) := by rw [outcome?, h]
    exact absurd (offends_of_fault hfault) hclean

/-- Runs that do not offend become tokens one by one, apart from those without text. -/
theorem tokens_of_clean {rs : List Run} (h : ∀ r ∈ rs, ¬ r.Offends strict) :
    List.Forall₂ (fun r t => t.start = r.start ∧ r.verdict strict = .token t.item)
      (rs.filter (·.text ≠ [])) (rs.filterMap (token? strict)) := by
  induction rs with
  | nil => exact .nil
  | cons r rs ih =>
    obtain ⟨hr, hrs⟩ := List.forall_mem_cons.mp h
    by_cases hnil : r.text = []
    · have htoken : r.token? strict = none := by
        rw [token?, outcome?, verdict_of_clean_empty hr hnil]
        rfl
      simpa [hnil, htoken] using ih hrs
    · obtain ⟨t, ht⟩ := verdict_of_clean hr hnil
      have htoken : r.token? strict = some ⟨t, r.start⟩ := by
        rw [token?, outcome?, ht]
        rfl
      simpa [hnil, htoken, ht] using ih hrs

theorem notices_of_clean {rs : List Run} (h : ∀ r ∈ rs, ¬ r.Offends strict) :
    rs.filterMap (notice? strict) =
      (rs.filter (·.form = .unclosed)).map fun r => ⟨⟨String.ofList r.text⟩, r.start⟩ := by
  induction rs with
  | nil => rfl
  | cons r rs ih =>
    obtain ⟨hr, hrs⟩ := List.forall_mem_cons.mp h
    by_cases hform : r.form = .unclosed
    · have hlenient : strict = false := by
        by_contra hstrict
        exact hr (.inr ⟨hform, by simpa using hstrict⟩)
      have hnotice := notice?_eq_some_iff.mpr ⟨⟨hform, hlenient⟩, rfl⟩
      simp [hnotice, hform, ih hrs]
    · have hnotice : r.notice? strict = none := by simp [notice?, warning?, hform]
      simp [hnotice, hform, ih hrs]

/-- Where a run stands in a text, and, if it is one between quotes, how it ends. -/
structure StandsIn (text : List Char) (r : Run) : Prop where
  place : r.start.IsIn text
  isAt : r.IsAt text
  quoted : r.form ≠ .bare → r.Quoted (text.drop r.start.offset)

end Run

/-- A scan that goes on from the session `s` reads the runs `before`, none of which offends, and
then the run that does, if there is one; it tells of this run, and has made tokens and warnings of
those before it. -/
structure Scan.Explained (text : List Char) (s : Session) (before : List Run)
    (offender? : Option Run) (result : Scan) : Prop where
  reads : s.Reads (before ++ offender?.toList) result.session
  complete : offender? = none → result.session.runs = []
  standing : ∀ r ∈ before ++ offender?.toList, r.StandsIn text
  clean : ∀ r ∈ before, ¬ r.Offends s.settings.strict
  offends : ∀ r ∈ offender?, r.Offends s.settings.strict
  fault : result.fault = offender?.map fun r => ⟨r.offence, r.start⟩
  tokens : List.Forall₂
    (fun r t => t.start = r.start ∧ r.verdict s.settings.strict = .token t.item)
    (before.filter (·.text ≠ [])) result.tokens
  warnings : result.session.warnings.toList = s.warnings.toList ++
    (before.filter (·.form = .unclosed)).map fun r => ⟨⟨String.ofList r.text⟩, r.start⟩

theorem Session.Sound.tracked {s : Session} {text : List Char} (h : s.Sound text) :
    s.cursor.Tracked := by
  obtain ⟨n, hn, hcursor⟩ := h.cursor
  rw [hcursor, Cursor.Tracked, Cursor.reader, Reader.cursor, Cursor.inText_offset hn]
  simp [Cursor.inText, Cursor.text]

theorem Session.Sound.standsIn {s : Session} {text : List Char} {r : Run} (h : s.Sound text)
    (hr : r ∈ s.runs) : r.StandsIn text where
  place := by
    obtain ⟨n, hn, hcursor⟩ := h.cursor
    rw [runs, hcursor] at hr
    obtain ⟨read, rest, fresh, hsplit, -, rfl⟩ := exists_of_mem_runsFrom hr
    have hread : text.take n ++ read <+: text := by
      refine ⟨rest, ?_⟩
      rw [List.append_assoc, hsplit]
      exact List.take_append_drop n text
    change ((Position.ofRead (text.take n)).after read).IsIn text
    rw [Position.ofRead_after]
    exact Position.ofRead_isIn hread
  isAt := h.isAt hr
  quoted := h.quoted hr

theorem Session.drain_explained {s : Session} {text : List Char} (h : s.Sound text) :
    Scan.Explained text s (Run.clean s.settings.strict s.runs)
      (Run.offender? s.settings.strict s.runs) s.drain := by
  obtain ⟨hreads, htokens, hwarnings, hfault⟩ := s.drain_spec
  have hclean : ∀ r ∈ Run.clean s.settings.strict s.runs, ¬ r.Offends s.settings.strict :=
    Run.clean_not_offends
  refine ⟨hreads, fun hnone => ?_, fun r hr => ?_, hclean, fun r hr => ?_, hfault, ?_, ?_⟩
  · refine (drain_ends hreads.runs).left_eq_nil ?_
    rw [hfault, hnone, Option.map_none]
  · exact h.standsIn ((Run.reached_isPrefix _ _).subset hr)
  · exact Run.offends_of_offender? hr
  · rw [htokens]
    exact Run.tokens_of_clean hclean
  · rw [hwarnings, Run.notices_of_clean hclean]

/-- The code of what stopped a scan. -/
def Scan.code? (result : Scan) : Option String :=
  result.fault.bind fun f => (f.item.diagnostic (result.session.locate f.start)).code

theorem Mistake.code_injective : Function.Injective Mistake.code := by
  intro m m' h
  cases m <;> cases m' <;> simp [code] at h ⊢

theorem Fault.diagnostic_code (location : Location) (f : Fault) :
    (f.diagnostic location).code = some f.mistake.code := by
  cases f <;> rfl

namespace Run.Offends

variable {strict : Bool} {r : Run}

theorem digitless_iff (h : r.Offends strict) : r.offence.mistake = .digitlessNumeral ↔
    r.form = .bare ∧ (r.text = ['.'] ∨ r.text = ['-', '.']) := by
  rcases h with h | ⟨hform, -⟩
  · exact iff_of_true (by rw [offence_of_bare h.1]; rfl) h
  · simp [offence, hform, Fault.mistake]

theorem openString_iff (h : r.Offends strict) : r.offence.mistake = .openString ↔
    strict = true ∧ r.form = .unclosed := by
  rcases h with ⟨hform, -⟩ | ⟨hform, hstrict⟩
  · simp [offence, hform, Fault.mistake]
  · simp [offence, hform, hstrict, Fault.mistake]

end Run.Offends

namespace Scan.Explained

variable {text : List Char} {s : Session} {before : List Run} {offender? : Option Run}
  {result : Scan}

theorem code?_iff (h : result.Explained text s before offender?) (m : Mistake) :
    result.code? = some m.code ↔ ∃ r ∈ offender?, r.offence.mistake = m := by
  rw [code?, h.fault]
  cases offender? with
  | none => simp
  | some r =>
    simp only [Option.map_some, Option.bind_some, Fault.diagnostic_code, Option.some.injEq,
      Option.mem_def, exists_eq_left']
    exact Mistake.code_injective.eq_iff

end Scan.Explained

/-- After any calls, a reading by index brings up the next outcome, whatever conversion the numerals
go through, and a scan is stopped by the first run ahead that offends, if there is one: a point
without digits, or a quote that is open while the settings are strict. -/
theorem faults_of_offenders (convert : List Char → Option Binary64)
    (haccepts : Numeral.AcceptedBy convert) (settings : Settings) (text : List Char)
    (calls : List Call) :
    let s := (Session.ofText settings text).afterCalls calls
    (∃ result, s.nextBy convert = .ok result ∧
      (Numeral.ValuedBy convert → result = s.next)) ∧
    ∃ before offender?, s.drain.Explained text s before offender? ∧
      (s.drain.code? = some "L003" ↔
        ∃ r ∈ offender?, r.form = .bare ∧ (r.text = ['.'] ∨ r.text = ['-', '.'])) ∧
      (s.drain.code? = some "L002" ↔
        settings.strict = true ∧ ∃ r ∈ offender?, r.form = .unclosed) := by
  intro s
  have hcalls := Session.afterCalls_onward (Session.ofText_sound settings text) calls
  have hstrict : s.settings.strict = settings.strict := congrArg Settings.strict hcalls.settings
  have hexplained := Session.drain_explained hcalls.sound
  refine ⟨Session.nextBy_ok haccepts s hcalls.sound.tracked, _, _, hexplained, ?_, ?_⟩
  · refine (hexplained.code?_iff .digitlessNumeral).trans ?_
    exact exists_congr fun r => and_congr_right fun hr => (hexplained.offends r hr).digitless_iff
  · refine (hexplained.code?_iff .openString).trans ?_
    rw [← hstrict, ← exists_and_left]
    refine exists_congr fun r => ?_
    rw [and_left_comm]
    exact and_congr_right fun hr => (hexplained.offends r hr).openString_iff

theorem faults_of_offenders_open :
    let settings : Settings := { strict := true }
    let text := "-.5+\"a\"-\"b\n.".toList
    let s := (Session.ofText settings text).afterCalls [.next]
    Numeral.AcceptedBy Binary64.ofText? ∧ s.drain.code? = some "L002" ∧
      (∃ result, s.nextBy Binary64.ofText? = .ok result ∧
        (Numeral.ValuedBy Binary64.ofText? → result = s.next)) ∧
      ∃ before offender?, s.drain.Explained text s before offender? ∧
        (s.drain.code? = some "L003" ↔
          ∃ r ∈ offender?, r.form = .bare ∧ (r.text = ['.'] ∨ r.text = ['-', '.'])) ∧
        (s.drain.code? = some "L002" ↔
          settings.strict = true ∧ ∃ r ∈ offender?, r.form = .unclosed) := by
  intro settings text s
  have haccepts : Numeral.AcceptedBy Binary64.ofText? := by
    intro p hp
    rw [p.binary64_ofText?_text hp]
    rfl
  have hcode : s.drain.code? = some "L002" := by decide +kernel
  exact ⟨haccepts, hcode, faults_of_offenders _ haccepts settings text [.next]⟩

end ExprLex
