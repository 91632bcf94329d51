import ExprLex.Proofs.Runs
import ExprLex.Session

/-!
# What a session makes of the runs

Each run has its consequences: an outcome or none, a warning or none, and events. A session that
has read some runs has collected the consequences of these runs, in order, and still has the other
runs before it; `Session.Reads` says so, and every pull, every scan and every course of pulls past
all faults is an instance of it.
-/
namespace ExprLex

namespace Run

def outcome? (strict : Bool) (r : Run) : Option Outcome :=
  match r.verdict strict with
  | .nothing => none
  | .token t => some (.token ⟨t, r.start⟩)
  | .fault f => some (.fault ⟨f, r.start⟩)

def notice? (strict : Bool) (r : Run) : Option (Placed Warning) :=
  (r.warning? strict).map (⟨·, r.start⟩)

def events (strict : Bool) (r : Run) : List (Placed Event) :=
  ((r.notice? strict).toList.map fun w => ⟨.unterminated, w.start⟩) ++
    match r.verdict strict with
    | .nothing => [⟨.discarded, r.start⟩]
    | .token t => [⟨.scanned t, r.start⟩]
    | .fault _ => []

end Run

namespace Session

def runs (s : Session) : List Run := s.cursor.runs s.settings.symbols

/-- The session `s` has read the runs `read` and has become `after`. -/
structure Reads (s : Session) (read : List Run) (after : Session) : Prop where
  settings : after.settings = s.settings
  runs : s.runs = read ++ after.runs
  toEnd : after.cursor.toEnd = s.cursor.toEnd
  warnings : after.warnings.toList =
    s.warnings.toList ++ read.filterMap (Run.notice? s.settings.strict)
  log : after.log.toList = s.log.toList ++ read.flatMap (Run.events s.settings.strict)

theorem Reads.trans {s mid after : Session} {a b : List Run} (h : s.Reads a mid)
    (h' : mid.Reads b after) : s.Reads (a ++ b) after where
  settings := h'.settings.trans h.settings
  runs := by rw [h.runs, h'.runs, List.append_assoc]
  toEnd := h'.toEnd.trans h.toEnd
  warnings := by
    rw [h'.warnings, h.warnings, h.settings, List.filterMap_append, List.append_assoc]
  log := by rw [h'.log, h.log, h.settings, List.flatMap_append, List.append_assoc]

def judge (s : Session) (r : Run) (after : Cursor) : Session :=
  match r.verdict s.settings.strict with
  | .nothing => (s.accept r after).record r.start .discarded
  | .token t => (s.accept r after).record r.start (.scanned t)
  | .fault _ => s.accept r after

theorem judge_settings (s : Session) (r : Run) (after : Cursor) :
    (s.judge r after).settings = s.settings := by
  simp only [judge, accept]
  split <;> split <;> rfl

theorem judge_cursor (s : Session) (r : Run) (after : Cursor) :
    (s.judge r after).cursor = after := by
  simp only [judge]
  split <;> simp

theorem judge_reads {s : Session} {r : Run} {after : Cursor}
    (h : s.cursor.readRun? s.settings.symbols = some (r, after)) :
    s.Reads [r] (s.judge r after) where
  settings := judge_settings s r after
  runs := by
    rw [runs, runs, judge_settings, judge_cursor]
    exact (Cursor.readRun?_some h).1
  toEnd := by
    rw [judge_cursor]
    exact (Cursor.readRun?_some h).2
  warnings := by
    simp only [judge, accept]
    cases hw : r.warning? s.settings.strict <;> split <;>
      simp [Run.notice?, hw, record, warn, moveTo]
  log := by
    simp only [judge, accept]
    cases hw : r.warning? s.settings.strict <;> split <;>
      simp_all [Run.events, Run.notice?, record, warn, moveTo]

theorem next_of_readRun? {s : Session} {r : Run} {after : Cursor}
    (h : s.cursor.readRun? s.settings.symbols = some (r, after)) :
    s.next = match r.outcome? s.settings.strict with
      | none => (s.judge r after).next
      | some o => (some o, s.judge r after) := by
  rw [next]
  split
  · simp_all
  · rename_i hread
    rw [h, Option.some.injEq, Prod.mk.injEq] at hread
    obtain ⟨rfl, rfl⟩ := hread
    cases hv : r.verdict s.settings.strict <;> simp [Run.outcome?, judge, hv]

theorem next_of_readRun?_none {s : Session} (h : s.cursor.readRun? s.settings.symbols = none) :
    s.next = (none, s.moveTo s.cursor.toEnd) := by
  rw [next]
  split
  · rw [(Cursor.readRun?_none h).2]
  · simp_all

theorem next_of_runs_nil {s : Session} (h : s.runs = []) :
    s.next = (none, s.moveTo s.cursor.toEnd) := by
  cases hread : s.cursor.readRun? s.settings.symbols with
  | none => exact next_of_readRun?_none hread
  | some p =>
    obtain ⟨r, after⟩ := p
    have hcons := (Cursor.readRun?_some hread).1
    rw [← runs, h] at hcons
    cases hcons

/-- Induction along a pull. It finds no run, or the first run has an outcome, or it goes on behind
the first run. -/
@[elab_as_elim]
theorem next_induct {motive : Session → Prop}
    (exhausted : ∀ s, s.cursor.readRun? s.settings.symbols = none →
      s.next = (none, s.moveTo s.cursor.toEnd) → motive s)
    (idle : ∀ s r after, s.cursor.readRun? s.settings.symbols = some (r, after) →
      r.outcome? s.settings.strict = none → s.next = (s.judge r after).next →
      motive (s.judge r after) → motive s)
    (found : ∀ s r after o, s.cursor.readRun? s.settings.symbols = some (r, after) →
      r.outcome? s.settings.strict = some o → s.next = (some o, s.judge r after) → motive s)
    (s : Session) : motive s := by
  induction s using next.induct with
  | case1 s hread => exact exhausted s hread (next_of_readRun?_none hread)
  | case2 s r after hread hv ih =>
    have hjudge : (s.accept r after).record r.start .discarded = s.judge r after := by
      simp only [judge, hv]
    have ho : r.outcome? s.settings.strict = none := by simp [Run.outcome?, hv]
    exact idle s r after hread ho (by rw [next_of_readRun? hread, ho]) (hjudge ▸ ih)
  | case3 s r after hread t hv =>
    have ho : r.outcome? s.settings.strict = some (.token ⟨t, r.start⟩) := by
      simp [Run.outcome?, hv]
    exact found s r after _ hread ho (by rw [next_of_readRun? hread, ho])
  | case4 s r after hread f hv =>
    have ho : r.outcome? s.settings.strict = some (.fault ⟨f, r.start⟩) := by
      simp [Run.outcome?, hv]
    exact found s r after _ hread ho (by rw [next_of_readRun? hread, ho])

theorem next_none {s after : Session} (h : s.next = (none, after)) :
    s.Reads s.runs after ∧ after.cursor = s.cursor.toEnd ∧
      ∀ r ∈ s.runs, r.outcome? s.settings.strict = none := by
  induction s using next_induct with
  | exhausted s hread hnext =>
    rw [hnext, Prod.mk.injEq] at h
    obtain ⟨-, rfl⟩ := h
    have hruns : s.runs = [] := (Cursor.readRun?_none hread).1
    have hmoved : (s.moveTo s.cursor.toEnd).runs = [] := by
      simp [runs, moveTo, Cursor.runs, Cursor.toEnd_ahead]
    rw [hruns]
    refine ⟨⟨rfl, ?_, ?_, ?_, ?_⟩, rfl, by simp⟩
    · rw [hruns, hmoved, List.append_nil]
    · exact Cursor.toEnd_advanceBy le_rfl
    · simp [moveTo]
    · simp [moveTo]
  | idle s r next hread ho hnext ih =>
    have hfirst := judge_reads hread
    obtain ⟨hreads, hcursor, hidle⟩ := ih (hnext ▸ h)
    rw [hfirst.runs]
    refine ⟨hfirst.trans hreads, hcursor.trans hfirst.toEnd, ?_⟩
    exact List.forall_mem_cons.mpr ⟨ho, hfirst.settings ▸ hidle⟩
  | found s r next o hread ho hnext =>
    rw [hnext] at h
    cases h

theorem next_some {s after : Session} {o : Outcome} (h : s.next = (some o, after)) :
    ∃ idle r, s.Reads (idle ++ [r]) after ∧
      (∀ x ∈ idle, x.outcome? s.settings.strict = none) ∧
      r.outcome? s.settings.strict = some o := by
  induction s using next_induct with
  | exhausted s hread hnext =>
    rw [hnext] at h
    cases h
  | idle s r next hread ho hnext ih =>
    have hfirst := judge_reads hread
    obtain ⟨idle, last, hreads, hidle, hlast⟩ := ih (hnext ▸ h)
    rw [hfirst.settings] at hidle hlast
    exact ⟨r :: idle, last, hfirst.trans hreads, List.forall_mem_cons.mpr ⟨ho, hidle⟩, hlast⟩
  | found s r next p hread ho hnext =>
    rw [hnext, Prod.mk.injEq, Option.some.injEq] at h
    obtain ⟨rfl, rfl⟩ := h
    exact ⟨[], r, judge_reads hread, by simp, ho⟩

/-- Everything that pulls bring up until the text is exhausted, past all faults, and the session
that they leave. -/
def outcomes (s : Session) : List Outcome × Session :=
  match _h : s.next with
  | (none, after) => ([], after)
  | (some o, after) => (o :: after.outcomes.1, after.outcomes.2)
termination_by s.cursor.ahead.length
decreasing_by all_goals exact next_length _h

theorem outcomes_eq (s : Session) :
    s.outcomes.1 = s.runs.filterMap (Run.outcome? s.settings.strict) ∧
      s.Reads s.runs s.outcomes.2 ∧ s.outcomes.2.cursor = s.cursor.toEnd := by
  fun_induction outcomes s with
  | case1 s after h =>
    obtain ⟨hreads, hcursor, hidle⟩ := next_none h
    exact ⟨(List.filterMap_eq_nil_iff.mpr hidle).symm, hreads, hcursor⟩
  | case2 s o after h ih =>
    obtain ⟨idle, r, hreads, hidle, hr⟩ := next_some h
    obtain ⟨hout, hrest, hcursor⟩ := ih
    rw [hreads.settings] at hout
    refine ⟨?_, ?_, ?_⟩
    · rw [hout, hreads.runs]
      simp [List.filterMap_append, List.filterMap_eq_nil_iff.mpr hidle, hr]
    · rw [hreads.runs]
      exact hreads.trans hrest
    · exact hcursor.trans hreads.toEnd

end Session
end ExprLex
