import ExprLex.Proofs.Readings

/-!
# The trace of a scan

A scan leaves a record of each run that it reads, in the order of the runs: of one that becomes a
token, or of one without characters, and before it a warning if the run is a quote that is left
open. What stops a scan leaves none. So the records tell the tokens and the warnings, and which
breaks were read by themselves.
-/
namespace ExprLex
open Text

/-- A record as a listener gets it. -/
abbrev Record := Level × String

def Placed.record (file : String) (e : Placed Event) : Record :=
  (e.item.level, e.item.message (e.start.inFile file))

def Session.records (s : Session) : List Record :=
  s.log.toList.map (Placed.record s.settings.file)

namespace Event

def token? : Event → Option Token
  | scanned t => some t
  | _ => none

end Event

def Placed.token? (e : Placed Event) : Option (Placed Token) :=
  e.item.token?.map (⟨·, e.start⟩)

namespace Run

variable {strict : Bool} {r : Run}

/-- The warning that a lenient scan records of a quote that is left open. -/
def warnRecords (strict : Bool) (file : String) (r : Run) : List Record :=
  if r.form = .unclosed ∧ strict = false then
    [(.warning, "Unterminated string literal at " ++ (r.start.inFile file).text)]
  else []

/-- The records that are left of a run. -/
inductive Leaves (strict : Bool) (file : String) (r : Run) : List Record → Prop
  | raised {f : Placed Fault} : r.outcome? strict = some (.fault f) → r.Leaves strict file []
  | scanned {t : Token} : r.outcome? strict = some (.token ⟨t, r.start⟩) → r.text ≠ [] →
      r.Leaves strict file (r.warnRecords strict file ++
        [(.debug, "Scanned " ++ t.text ++ " at " ++ (r.start.inFile file).text)])
  | discarded : r.outcome? strict = none → r.text = [] →
      r.Leaves strict file (r.warnRecords strict file ++
        [(.debug, "Discarded empty run at " ++ (r.start.inFile file).text)])

/-- What is noted of a run, apart from a warning. -/
def note? (strict : Bool) (r : Run) : Option (Placed Event) :=
  match r.verdict strict with
  | .nothing => some ⟨.discarded, r.start⟩
  | .token t => some ⟨.scanned t, r.start⟩
  | .fault _ => none

theorem events_eq (strict : Bool) (r : Run) : r.events strict =
    (r.notice? strict).toList.map (fun w => ⟨.unterminated, w.start⟩) ++
      (r.note? strict).toList := by
  rw [events, note?]
  cases r.verdict strict <;> rfl

theorem note?_start {e : Placed Event} (h : r.note? strict = some e) : e.start = r.start := by
  rw [note?] at h
  split at h <;> cases h <;> rfl

theorem outcome?_eq_none_iff : r.outcome? strict = none ↔ r.verdict strict = .nothing := by
  rw [outcome?]
  cases r.verdict strict <;> simp

theorem events_tokens (strict : Bool) (r : Run) :
    (r.events strict).filterMap Placed.token? = (r.token? strict).toList := by
  have hwarned : ((r.notice? strict).toList.map fun w =>
      (⟨.unterminated, w.start⟩ : Placed Event)).filterMap Placed.token? = [] := by
    cases r.notice? strict <;> rfl
  rw [events_eq, List.filterMap_append, hwarned, note?, token?, outcome?]
  cases r.verdict strict <;> rfl

theorem events_warnings (strict : Bool) (r : Run) :
    (r.events strict).filter (·.item.level = .warning) =
      (r.notice? strict).toList.map fun w => ⟨.unterminated, w.start⟩ := by
  have hnote : (r.note? strict).toList.filter (·.item.level = .warning) = [] := by
    rw [note?]
    cases r.verdict strict <;> rfl
  rw [events_eq, List.filter_append, hnote, List.append_nil]
  cases r.notice? strict <;> rfl

theorem events_debug (strict : Bool) (r : Run) :
    (r.events strict).filter (·.item.level = .debug) = (r.note? strict).toList := by
  have hwarned : ((r.notice? strict).toList.map fun w =>
      (⟨.unterminated, w.start⟩ : Placed Event)).filter (·.item.level = .debug) = [] := by
    cases r.notice? strict <;> rfl
  rw [events_eq, List.filter_append, hwarned, List.nil_append, note?]
  cases r.verdict strict <;> rfl

theorem discarded_mem_events_iff {i : Nat} :
    (∃ e ∈ r.events strict, e.item = .discarded ∧ e.start.offset = i) ↔
      r.outcome? strict = none ∧ r.start.offset = i := by
  rw [outcome?_eq_none_iff, events_eq, note?]
  cases r.verdict strict <;> cases r.notice? strict <;> simp

theorem leaves_events (strict : Bool) (file : String) (r : Run) :
    r.Leaves strict file ((r.events strict).map (Placed.record file)) := by
  have hwarned : ((r.notice? strict).toList.map fun w =>
      (⟨.unterminated, w.start⟩ : Placed Event)).map (Placed.record file) =
      r.warnRecords strict file := by
    rw [notice?, warning?, warnRecords]
    split <;> rfl
  rw [events_eq, List.map_append, hwarned, note?]
  cases hverdict : r.verdict strict with
  | nothing =>
    exact .discarded (outcome?_eq_none_iff.mpr hverdict) (text_of_nothing hverdict)
  | token t =>
    have houtcome : r.outcome? strict = some (.token ⟨t, r.start⟩) := by rw [outcome?, hverdict]
    refine .scanned houtcome fun hnil => ?_
    have hclean : ¬ r.Offends strict := not_offends_of_outcome? (by simp [houtcome])
    rw [verdict_of_clean_empty hclean hnil] at hverdict
    cases hverdict
  | fault f =>
    have houtcome : r.outcome? strict = some (.fault ⟨f, r.start⟩) := by rw [outcome?, hverdict]
    have hnone : r.warnRecords strict file = [] := by
      rw [← hwarned, notice?_of_fault houtcome]
      rfl
    rw [hnone]
    exact .raised houtcome

theorem IsIdle.outcome? (h : r.IsIdle) (strict : Bool) : r.outcome? strict = none := by
  rw [Run.outcome?, verdict, h.1, h.2]
  rfl

end Run

namespace Run

variable {strict : Bool}

theorem reached_filterMap_token? (strict : Bool) (rs : List Run) :
    (reached strict rs).filterMap (token? strict) = (clean strict rs).filterMap (token? strict) := by
  rw [reached, List.filterMap_append]
  cases hoffender : offender? strict rs with
  | none => exact List.append_nil _
  | some r =>
    have hnone : r.token? strict = none := by
      rw [token?, (offends_of_offender? hoffender).outcome?]
      rfl
    rw [Option.toList_some, List.filterMap_cons_none hnone, List.filterMap_nil, List.append_nil]

section

variable (strict : Bool) (rs : List Run)

theorem flatMap_events_tokens :
    (rs.flatMap (events strict)).filterMap Placed.token? = rs.filterMap (token? strict) := by
  rw [List.filterMap_flatMap, List.filterMap_eq_flatMap_toList (token? strict)]
  simp only [events_tokens]

theorem flatMap_events_warnings : (rs.flatMap (events strict)).filter (·.item.level = .warning) =
    (rs.filterMap (notice? strict)).map fun w => ⟨.unterminated, w.start⟩ := by
  simp only [List.filter_flatMap, events_warnings, List.filterMap_eq_flatMap_toList,
    List.map_flatMap]

theorem flatMap_events_debug : (rs.flatMap (events strict)).filter (·.item.level = .debug) =
    rs.filterMap (note? strict) := by
  simp only [List.filter_flatMap, events_debug, List.filterMap_eq_flatMap_toList]

theorem discarded_iff {i : Nat} :
    (∃ e ∈ rs.flatMap (events strict), e.item = .discarded ∧ e.start.offset = i) ↔
      ∃ r ∈ rs, r.outcome? strict = none ∧ r.start.offset = i := by
  constructor
  · rintro ⟨e, he, hdiscarded⟩
    obtain ⟨r, hr, her⟩ := List.mem_flatMap.mp he
    exact ⟨r, hr, discarded_mem_events_iff.mp ⟨e, her, hdiscarded⟩⟩
  · rintro ⟨r, hr, hnone⟩
    obtain ⟨e, he, hdiscarded⟩ := discarded_mem_events_iff.mpr hnone
    exact ⟨e, List.mem_flatMap.mpr ⟨r, hr, he⟩, hdiscarded⟩

end

theorem notes_pairwise {rs : List Run} (h : Ascending rs) (strict : Bool) :
    (rs.filterMap (note? strict)).Pairwise fun a b => a.start.offset < b.start.offset := by
  refine List.Pairwise.filterMap _ ?_ h
  intro a b hlt e he f hf
  rwa [note?_start he, note?_start hf]

end Run

/-- The runs that are read and leave nothing are empty quotes or stand outside of quotes. -/
theorem Reading.discarded_iff {done : List Reading} {strict : Bool} {i : Nat} :
    (∃ r ∈ done.map Reading.run, r.outcome? strict = none ∧ r.start.offset = i) ↔
      (∃ q ∈ done, q.run.form ≠ .bare ∧ q.run.text = [] ∧ q.run.outcome? strict = none ∧
        q.run.start.offset = i) ∨
      ∃ q ∈ done, q.run.IsIdle ∧ q.run.start.offset = i := by
  constructor
  · rintro ⟨r, hr, hnone, hstart⟩
    obtain ⟨q, hq, rfl⟩ := List.mem_map.mp hr
    have hnil := Run.text_of_nothing (Run.outcome?_eq_none_iff.mp hnone)
    by_cases hform : q.run.form = .bare
    · exact .inr ⟨q, hq, ⟨hform, hnil⟩, hstart⟩
    · exact .inl ⟨q, hq, hform, hnil, hnone, hstart⟩
  · rintro (⟨q, hq, hform, hnil, hnone, hstart⟩ | ⟨q, hq, hidle, hstart⟩)
    · exact ⟨q.run, List.mem_map_of_mem hq, hnone, hstart⟩
    · exact ⟨q.run, List.mem_map_of_mem hq, hidle.outcome? _, hstart⟩

namespace Session

variable {s now : Session} {read : List Run}

theorem Trail.drainAfter (h : s.Trail read now) (sofar : List (Placed Token)) :
    ∃ more, s.Trail (read ++ more) (now.drainAfter sofar).session := by
  fun_induction Session.drainAfter sofar now generalizing read with
  | case1 sofar now after hnext | case2 sofar now f after hnext =>
    obtain ⟨more, hmore⟩ := h.next
    rw [hnext] at hmore
    exact ⟨more, hmore⟩
  | case3 sofar now t after hnext ih =>
    obtain ⟨first, hfirst⟩ := h.next
    rw [hnext] at hfirst
    obtain ⟨more, hmore⟩ := ih hfirst
    exact ⟨first ++ more, by rwa [← List.append_assoc]⟩

theorem Trail.reads (h : s.Trail read now) : s.Reads read now := by
  induction h with
  | start => exact ⟨rfl, rfl, rfl, by simp, by simp⟩
  | run _ hread ih => exact ih.trans (judge_reads hread)
  | @finish read mid _ hend ih =>
    have hstop : mid.Reads [] (mid.moveTo mid.cursor.skipSpaces) :=
      ⟨rfl, (mid.cursor.skipSpaces_runs _).symm, mid.cursor.skipSpaces_toEnd, by simp [moveTo],
        by simp [moveTo]⟩
    simpa using ih.trans hstop

/-- A trail divides the runs ahead, with all that is consumed with them, at the cursor. -/
theorem Trail.readings (h : s.Trail read now) :
    ∃ done, s.cursor.readings s.settings.symbols =
        done ++ now.cursor.readings s.settings.symbols ∧
      done.map Reading.run = read ∧
      ∀ q ∈ done, q.after.position.offset ≤ now.cursor.position.offset := by
  induction h with
  | start => exact ⟨[], rfl, rfl, by simp⟩
  | @run read mid r after htrail hread ih =>
    obtain ⟨done, hsplit, hruns, hdone⟩ := ih
    rw [htrail.settings] at hread
    have hnext := Cursor.readings_of_some hread
    have hforth : mid.cursor.position.offset ≤ after.position.offset := by
      obtain ⟨-, j, -, rfl⟩ := Cursor.readRun?_advanceBy hread
      exact Cursor.offset_le_advanceBy j mid.cursor
    rw [judge_cursor]
    refine ⟨done ++ [⟨r, after⟩], ?_, ?_, ?_⟩
    · rw [hsplit, hnext, List.append_assoc, List.singleton_append]
    · rw [List.map_append, hruns, List.map_singleton]
    · intro q hq
      rcases List.mem_append.mp hq with hq | hq
      · exact (hdone q hq).trans hforth
      · obtain rfl := List.mem_singleton.mp hq
        exact le_rfl
  | @finish read mid htrail hend ih =>
    obtain ⟨done, hsplit, hruns, hdone⟩ := ih
    rw [htrail.settings] at hend
    have hnone : mid.cursor.readings s.settings.symbols = [] := by
      rw [← List.map_eq_nil_iff (f := Reading.run), Cursor.readings_runs, (Cursor.readRun?_none hend).1]
    have hskipped : mid.cursor.skipSpaces.readings s.settings.symbols = [] := by
      rw [← List.map_eq_nil_iff (f := Reading.run), Cursor.readings_runs, Cursor.skipSpaces_runs,
        (Cursor.readRun?_none hend).1]
    refine ⟨done, ?_, hruns, fun q hq => (hdone q hq).trans ?_⟩
    · rw [hsplit, hnone, moveTo, hskipped]
    · exact Cursor.offset_le_advanceBy _ mid.cursor

/-- A drain divides the runs ahead into those that it reads and those that are left. -/
theorem drain_readings (s : Session) :
    ∃ done more, s.cursor.readings s.settings.symbols = done ++ more ∧
      s.Trail (done.map Reading.run) s.drain.session ∧
      done.map Reading.run = Run.reached s.settings.strict s.runs ∧
      (∀ q ∈ done, q.after.position.offset ≤ s.drain.session.cursor.position.offset) ∧
      ∀ q ∈ more, s.drain.session.cursor.position.offset ≤ q.run.start.offset := by
  obtain ⟨read, htrail⟩ := (Trail.start (s := s)).drainAfter []
  obtain ⟨done, hsplit, hruns, hdone⟩ := htrail.readings
  rw [← hruns] at htrail
  have hsame := htrail.reads.runs.symm.trans s.drain_spec.1.runs
  exact ⟨done, _, hsplit, htrail, List.append_cancel_right hsame, hdone,
    fun q hq => Cursor.le_of_mem_readings hq⟩

end Session

/-- A scan reads all runs, or those up to the first that is a fault. Each run that it reads leaves
its records, in order: none if it stops the scan, and else perhaps a warning and then what has
become of it. The tokens and the warnings are those of the
records, and the records of what has become of runs stand in the order of their places. What has
been discarded are empty quotes, and the breaks that do not stand between quotes and that no run
took up at its end. -/
theorem log_traces_scan (settings : Settings) (text : List Char) :
    let s := Session.ofText settings text
    let result := s.drain
    let log := result.session.log.toList
    ∃ done more, s.cursor.readings settings.symbols = done ++ more ∧
      s.Trail (done.map Reading.run) result.session ∧
      Scan.Ends settings.strict (done.map Reading.run) (more.map Reading.run) result.fault ∧
      (∃ groups, result.session.records = groups.flatten ∧
        List.Forall₂ (Run.Leaves settings.strict settings.file) (done.map Reading.run) groups) ∧
      log.filterMap Placed.token? = result.tokens ∧
      log.filter (·.item.level = .warning) =
        result.session.warnings.toList.map (fun w => ⟨.unterminated, w.start⟩) ∧
      (log.filter (·.item.level = .debug)).Pairwise
        (fun a b => a.start.offset < b.start.offset) ∧
      ∀ i, (∃ e ∈ log, e.item = .discarded ∧ e.start.offset = i) ↔
        (∃ q ∈ done, q.run.form ≠ .bare ∧ q.run.text = [] ∧
          q.run.outcome? settings.strict = none ∧ q.run.start.offset = i) ∨
        i < result.session.cursor.position.offset ∧
          (∃ x, text[i]? = some x ∧ isBreak x = true) ∧
          ∀ q ∈ done, ¬ q.run.Encloses i ∧ ¬ q.EndsOn i := by
  intro s result log
  obtain ⟨done, more, hsplit, htrail, hreached, hdone, hmore⟩ := s.drain_readings
  replace hreached : done.map Reading.run = Run.reached settings.strict s.runs := hreached
  have hreads : s.Reads (done.map Reading.run) result.session := htrail.reads
  have hlog : log = (done.map Reading.run).flatMap (Run.events settings.strict) := hreads.log
  have hsorted : Run.Ascending (done.map Reading.run) := by
    rw [hreached]
    exact List.Pairwise.sublist (Run.reached_isPrefix _ _).sublist runsFrom_ascending
  have hruns : s.runs = Run.reached settings.strict s.runs ++ more.map Reading.run := by
    rw [← hreached, ← List.map_append, ← hsplit]
    exact (Cursor.readings_runs ..).symm
  have hends : Scan.Ends settings.strict (done.map Reading.run) (more.map Reading.run)
      result.fault := by
    rw [hreached]
    exact Session.drain_ends hruns
  refine ⟨done, more, hsplit, htrail, hends, ?_, ?_, ?_, ?_, fun i => ?_⟩
  · refine ⟨(done.map Reading.run).map fun r =>
      (r.events settings.strict).map (Placed.record settings.file), ?_, ?_⟩
    · have hfile : result.session.settings.file = settings.file :=
        congrArg Settings.file hreads.settings
      rw [Session.records, hfile, ← List.flatMap_def, ← List.map_flatMap, ← hlog]
    · rw [List.forall₂_map_right_iff]
      exact List.forall₂_same.mpr fun r _ => r.leaves_events _ _
  · rw [hlog, Run.flatMap_events_tokens, hreached, Run.reached_filterMap_token?]
    exact s.drain_spec.2.1.symm
  · rw [hlog, Run.flatMap_events_warnings]
    exact congrArg _ hreads.warnings.symm
  · rw [hlog, Run.flatMap_events_debug]
    exact Run.notes_pairwise hsorted _
  · have htracked : s.cursor.Tracked := (Session.ofText_sound settings text).tracked
    have hidle : (∃ q ∈ done, q.run.IsIdle ∧ q.run.start.offset = i) ↔
        i < result.session.cursor.position.offset ∧
          (∃ x, text[i]? = some x ∧ isBreak x = true) ∧
          ∀ q ∈ done, ¬ q.run.Encloses i ∧ ¬ q.EndsOn i :=
      Cursor.idle_iff htracked hsplit hdone hmore (Nat.zero_le i)
    rw [← hidle, hlog, Run.discarded_iff, Reading.discarded_iff]

end ExprLex
