import Mathlib.Data.List.Nodup
import ExprLex.Proofs.Findings

/-!
# Strict and lenient courses

Being strict changes what a string that is left open comes to, and nothing else: the runs, and with
them the places where the cursor stands, are the same. The strict course is the lenient one with
each warning in the place of the token that it warns of, if there is one.
-/
namespace ExprLex

/-- What comes up in a lenient course, outcomes and warnings alike. -/
inductive Entry
  | outcome (outcome : Outcome)
  | warning (warning : Placed Warning)
deriving DecidableEq

def Warning.asFault (w : Warning) : Fault := .openString w.text

namespace Entry

def start : Entry → Position
  | outcome o => o.start
  | warning w => w.start

def merge (outcomes : List Outcome) (warnings : List (Placed Warning)) : List Entry :=
  (outcomes.map outcome).merge (warnings.map warning) fun a b => a.start.offset ≤ b.start.offset

/-- The part of an entry in the strict course: a warning is a fault there, and a token in the place
of a warning is dropped. -/
def strict? (warnings : List (Placed Warning)) : Entry → Option Outcome
  | outcome (.token t) => if warnings.any (·.start = t.start) then none else some (.token t)
  | outcome (.fault f) => some (.fault f)
  | warning w => some (.fault ⟨w.item.asFault, w.start⟩)

end Entry

theorem merge_append {α : Type} {le : α → α → Bool} {a b a' b' : List α}
    (h : ∀ x ∈ a ++ b, ∀ y ∈ a' ++ b', le x y = true ∧ le y x = false) :
    (a ++ a').merge (b ++ b') le = a.merge b le ++ a'.merge b' le := by
  -- both lists are taken off from the front, and only when both have ended the later parts matter
  induction a generalizing b with
  | nil =>
    induction b with
    | nil => simp
    | cons y b ihb =>
      have hrest := ihb fun x hx => h x (by simp_all)
      have hlater : ∀ x ∈ a', le x y = false := fun x hx => (h y (by simp) x (by simp [hx])).2
      simp only [List.nil_append, List.nil_merge, List.cons_append] at hrest ⊢
      rw [← hrest]
      cases a' with
      | nil => simp
      | cons x a' => rw [List.cons_merge_cons, if_neg (by simp [hlater x])]
  | cons x a iha =>
    induction b with
    | nil =>
      have hrest := iha (b := []) fun y hy => h y (by simp_all)
      have hlater : ∀ y ∈ b', le x y = true := fun y hy => (h x (by simp) y (by simp [hy])).1
      simp only [List.nil_append, List.merge_right, List.cons_append] at hrest ⊢
      rw [← hrest]
      cases b' with
      | nil => simp
      | cons y b' => rw [List.cons_merge_cons, if_pos (hlater y (by simp))]
    | cons y b ihb =>
      have hleft := iha (b := y :: b) fun z hz => h z (by simp_all)
      have hright := ihb fun z hz => h z (by simp_all; tauto)
      simp only [List.cons_append] at hleft hright ⊢
      rw [List.cons_merge_cons, List.cons_merge_cons]
      split
      · rw [hleft]
        rfl
      · rw [hright]
        rfl

namespace Run

theorem closed_alike {r : Run} (h : r.form ≠ .unclosed) :
    r.outcome? true = r.outcome? false ∧ ∀ strict, r.notice? strict = none := by
  refine ⟨?_, fun strict => by simp [notice?, warning?, h]⟩
  rw [outcome?, outcome?, verdict, verdict]
  cases hform : r.form with
  | bare => rfl
  | closed => rfl
  | unclosed => exact absurd hform h

theorem unclosed_lenient {r : Run} (h : r.form = .unclosed) :
    r.notice? false = some ⟨⟨String.ofList r.text⟩, r.start⟩ ∧ r.fault? false = none := by
  refine ⟨by simp [notice?, warning?, h], ?_⟩
  by_cases htext : r.text = [] <;>
    simp [fault?, outcome?, verdict, h, Verdict.ofQuoted, htext, Outcome.fault?]

theorem notice?_strict (r : Run) : r.notice? true = none := by simp [notice?, warning?]

theorem mistake_of_closed {r : Run} {f : Placed Fault} (h : r.form ≠ .unclosed)
    (hf : r.fault? true = some f) : f.item.mistake = .digitlessNumeral := by
  have hverdict : r.verdict true = .fault f.item := verdict_of_outcome? (outcome?_of_fault? hf)
  rw [verdict] at hverdict
  cases hform : r.form with
  | unclosed => exact absurd hform h
  | closed =>
    rw [hform] at hverdict
    exact absurd hverdict (Verdict.ofQuoted_ne_fault _ _)
  | bare =>
    rw [hform] at hverdict
    generalize f.item = fault, r.text = text at hverdict ⊢
    cases Verdict.stands_iff.mpr hverdict
    rfl

def entries (r : Run) : List Entry :=
  (r.outcome? false).toList.map .outcome ++ (r.notice? false).toList.map .warning

end Run

theorem Run.start_of_mem_entries {r : Run} {e : Entry} (h : e ∈ r.entries) :
    e.start = r.start := by
  rcases List.mem_append.mp h with he | he
  · obtain ⟨o, ho, rfl⟩ := List.mem_map.mp he
    exact outcome?_start (Option.mem_toList.mp ho)
  · obtain ⟨w, hw, rfl⟩ := List.mem_map.mp he
    exact notice?_start (Option.mem_toList.mp hw)

theorem Run.mem_entries_of_mem {rs : List Run} {e : Entry}
    (h : e ∈ (rs.filterMap (outcome? false)).map Entry.outcome ++
      (rs.filterMap (notice? false)).map Entry.warning) : ∃ r ∈ rs, e ∈ r.entries := by
  rcases List.mem_append.mp h with he | he
  · obtain ⟨o, ho, rfl⟩ := List.mem_map.mp he
    obtain ⟨r, hr, hro⟩ := List.mem_filterMap.mp ho
    exact ⟨r, hr, by simp [entries, hro]⟩
  · obtain ⟨w, hw, rfl⟩ := List.mem_map.mp he
    obtain ⟨r, hr, hrw⟩ := List.mem_filterMap.mp hw
    exact ⟨r, hr, by simp [entries, hrw]⟩

theorem filterMap_cons_toList {α β : Type} (f : α → Option β) (a : α) (l : List α) :
    (a :: l).filterMap f = (f a).toList ++ l.filterMap f := by
  rw [List.filterMap_cons]
  cases f a <;> rfl

theorem merge_entries (r : Run) :
    Entry.merge (r.outcome? false).toList (r.notice? false).toList = r.entries := by
  cases ho : r.outcome? false with
  | none => cases hw : r.notice? false <;> simp [Entry.merge, Run.entries, ho, hw]
  | some o =>
    cases hw : r.notice? false with
    | none => simp [Entry.merge, Run.entries, ho, hw]
    | some w =>
      have hstart : o.start = w.start :=
        (Run.outcome?_start ho).trans (Run.notice?_start hw).symm
      simp [Entry.merge, Run.entries, ho, hw, Entry.start, hstart]

theorem merge_runs {rs : List Run} (h : Run.Ascending rs) :
    Entry.merge (rs.filterMap (Run.outcome? false)) (rs.filterMap (Run.notice? false)) =
      rs.flatMap Run.entries := by
  induction rs with
  | nil => simp [Entry.merge]
  | cons r rs ih =>
    obtain ⟨hfirst, hrest⟩ := List.pairwise_cons.mp h
    rw [List.flatMap_cons, ← merge_entries, ← ih hrest, filterMap_cons_toList,
      filterMap_cons_toList]
    simp only [Entry.merge, List.map_append]
    apply merge_append
    intro x hx y hy
    have hxstart : x.start = r.start := Run.start_of_mem_entries hx
    obtain ⟨s, hs, hys⟩ := Run.mem_entries_of_mem hy
    have hlt := hfirst s hs
    rw [hxstart, Run.start_of_mem_entries hys]
    simp only [decide_eq_true_eq, decide_eq_false_iff_not]
    omega

theorem eq_of_start {rs : List Run} (h : Run.Ascending rs) {r s : Run} (hr : r ∈ rs)
    (hs : s ∈ rs) (heq : r.start = s.start) : r = s := by
  have hnodup : (rs.map fun r => r.start.offset).Nodup :=
    List.pairwise_map.mpr (List.Pairwise.imp Nat.ne_of_lt h)
  exact List.inj_on_of_nodup_map hnodup hr hs (congrArg Position.offset heq)

theorem entries_strict {rs : List Run} {r : Run} (hr : r ∈ rs) (h : Run.Ascending rs) :
    r.entries.filterMap (Entry.strict? (rs.filterMap (Run.notice? false))) =
      (r.outcome? true).toList := by
  by_cases hform : r.form = .unclosed
  · obtain ⟨hnotice, hfault⟩ := Run.unclosed_lenient hform
    have hwarned : (rs.filterMap (Run.notice? false)).any (·.start = r.start) = true :=
      List.any_eq_true.mpr ⟨_, List.mem_filterMap.mpr ⟨r, hr, hnotice⟩, by simp⟩
    rw [Run.unclosed_strict hform, Run.entries, hnotice]
    cases ho : r.outcome? false with
    | none => rfl
    | some o =>
      cases o with
      | fault f => simp [Run.fault?, ho, Outcome.fault?] at hfault
      | token t =>
        have hstart : t.start = r.start := Run.outcome?_start ho
        simp [Entry.strict?, hstart, hwarned, Warning.asFault]
  · obtain ⟨halike, hnotice⟩ := Run.closed_alike hform
    rw [Run.entries, hnotice, halike]
    cases ho : r.outcome? false with
    | none => rfl
    | some o =>
      cases o with
      | fault f => rfl
      | token t =>
        have hstart : t.start = r.start := Run.outcome?_start ho
        -- another run may be warned of, but it begins elsewhere
        have hunwarned : ∀ w ∈ rs.filterMap (Run.notice? false), w.start ≠ t.start := by
          intro w hw heq
          obtain ⟨s, hs, hsw⟩ := List.mem_filterMap.mp hw
          have hsame : s.start = r.start := by rw [← Run.notice?_start hsw, heq, hstart]
          rw [eq_of_start h hs hr hsame, hnotice] at hsw
          cases hsw
        have hany : (rs.filterMap (Run.notice? false)).any (·.start = t.start) = false := by
          rw [List.any_eq_false]
          intro w hw
          simpa using hunwarned w hw
        simp only [Option.toList_some, Option.toList_none, List.map_cons, List.map_nil,
          List.append_nil, List.filterMap_cons, List.filterMap_nil, Entry.strict?, hany,
          Bool.false_eq_true, if_false]

theorem strict_tokens {rs : List Run} (h : Run.Ascending rs) :
    (Findings.ofRuns true rs).tokens = (rs.filterMap (Run.token? false)).filter fun t =>
      (Findings.ofRuns true rs).fault.all (t.start.offset < ·.start.offset) := by
  induction rs with
  | nil => rfl
  | cons r rs ih =>
    obtain ⟨hfirst, hrest⟩ := List.pairwise_cons.mp h
    cases hr : r.fault? true with
    | some f =>
      -- the scan stops here, and no token of this run or of the later ones stands before it
      have hlate : ∀ t ∈ (r :: rs).filterMap (Run.token? false),
          ¬ t.start.offset < f.start.offset := by
        intro t ht
        obtain ⟨s, hs, hst⟩ := List.mem_filterMap.mp ht
        rw [Run.token?_start hst, Run.fault?_start hr]
        rcases List.mem_cons.mp hs with rfl | hs
        · omega
        · have := hfirst s hs
          omega
      have hfault : Findings.ofRuns true (r :: rs) = ⟨[], [], some f⟩ := by
        rw [Findings.ofRuns_cons, Findings.ofRun_fault (Run.outcome?_of_fault? hr)]
        rfl
      rw [hfault]
      exact (List.filter_eq_nil_iff.mpr fun t ht => by simpa using hlate t ht).symm
    | none =>
      have hform : r.form ≠ .unclosed := by
        intro hform
        simp [Run.fault?, Run.unclosed_strict hform, Outcome.fault?] at hr
      have halike : r.token? true = r.token? false := by
        simp only [Run.token?, (Run.closed_alike hform).1]
      have hearly : ∀ t ∈ (r.token? false).toList,
          (Findings.ofRuns true rs).fault.all (t.start.offset < ·.start.offset) = true := by
        intro t ht
        have hstart := Run.token?_start (Option.mem_toList.mp ht)
        cases hf : (Findings.ofRuns true rs).fault with
        | none => rfl
        | some f =>
          obtain ⟨s, hs, hsf⟩ := Findings.fault_mem hf
          have := hfirst s hs
          simpa [hstart, Run.fault?_start hsf] using this
      rw [filterMap_cons_toList, List.filter_append, Findings.ofRuns_cons]
      simp only [Findings.followedBy, Findings.ofRun, hr, halike]
      rw [← ih hrest, List.filter_eq_self.mpr hearly]

theorem open_faults (rs : List Run) :
    (rs.filterMap (Run.fault? true)).filter (·.item.mistake = .openString) =
      (rs.filterMap (Run.notice? false)).map fun w => ⟨w.item.asFault, w.start⟩ := by
  induction rs with
  | nil => rfl
  | cons r rs ih =>
    have hone : (r.fault? true).toList.filter (·.item.mistake = .openString) =
        (r.notice? false).toList.map fun w => ⟨w.item.asFault, w.start⟩ := by
      by_cases hform : r.form = .unclosed
      · rw [(Run.unclosed_lenient hform).1, Run.fault?, Run.unclosed_strict hform]
        rfl
      · rw [(Run.closed_alike hform).2]
        cases hf : r.fault? true with
        | none => rfl
        | some f => simp [Run.mistake_of_closed hform hf]
    rw [filterMap_cons_toList, filterMap_cons_toList, List.filter_append, List.map_append, hone, ih]

theorem Findings.strict_warnings (rs : List Run) : (ofRuns true rs).warnings = [] := by
  induction rs with
  | nil => rfl
  | cons r rs ih =>
    rw [ofRuns_cons, followedBy]
    split <;> simp [ofRun, Run.notice?_strict, ih]

theorem Findings.fault_eq_head? (strict : Bool) (rs : List Run) :
    (ofRuns strict rs).fault = (rs.filterMap (Run.fault? strict)).head? := by
  induction rs with
  | nil => rfl
  | cons r rs ih =>
    rw [ofRuns_cons, followedBy, filterMap_cons_toList]
    cases hr : r.fault? strict <;> simp [ofRun, hr, ih]

/-- All the outcomes of a text, past all faults. -/
def course (strict : Bool) (symbols : SymbolSet) (file : String) (text : List Char) :
    List Outcome × Session := (Session.ofText ⟨symbols, strict, file⟩ text).outcomes

theorem course_eq (strict : Bool) (symbols : SymbolSet) (file : String) (text : List Char) :
    let rs := runsFrom symbols true Position.start text
    (course strict symbols file text).1 = rs.filterMap (Run.outcome? strict) ∧
      (course strict symbols file text).2.warnings.toList = rs.filterMap (Run.notice? strict) ∧
      (course strict symbols file text).2.cursor =
        ⟨text.reverse, [], Position.start.after text⟩ := by
  obtain ⟨houtcomes, hreads, hcursor⟩ := (Session.ofText ⟨symbols, strict, file⟩ text).outcomes_eq
  refine ⟨houtcomes, hreads.warnings.trans (List.nil_append _), ?_⟩
  rw [course, hcursor]
  exact Cursor.ofText_toEnd text

theorem faults_of_outcomes (strict : Bool) (rs : List Run) :
    (rs.filterMap (Run.outcome? strict)).filterMap Outcome.fault? =
      rs.filterMap (Run.fault? strict) := List.filterMap_filterMap

theorem tokens_of_outcomes (strict : Bool) (rs : List Run) :
    (rs.filterMap (Run.outcome? strict)).filterMap Outcome.token? =
      rs.filterMap (Run.token? strict) := List.filterMap_filterMap

/-- The strict course is the lenient one, outcomes and warnings merged, with each warning for the
token in its place, and a strict scan goes as far as the first of the faults. -/
theorem strict_lenient_lockstep (symbols : SymbolSet) (file : String) (text : List Char) :
    let lenient := course false symbols file text
    let strict := course true symbols file text
    let warnings := lenient.2.warnings.toList
    let faults := strict.1.filterMap Outcome.fault?
    let stopped := scan ⟨symbols, true, file⟩ text
    strict.1 = (Entry.merge lenient.1 warnings).filterMap (Entry.strict? warnings) ∧
      faults.filter (·.item.mistake = .openString) =
        warnings.map (fun w => ⟨w.item.asFault, w.start⟩) ∧
      (∀ (w : Warning) (place : Location),
        (w.asFault.diagnostic place).code = (w.diagnostic place).code ∧
        (w.asFault.diagnostic place).message = (w.diagnostic place).message ∧
        (w.asFault.diagnostic place).location = (w.diagnostic place).location) ∧
      strict.2.warnings = #[] ∧ stopped.session.warnings = #[] ∧
      strict.2.cursor = lenient.2.cursor ∧
      ((∃ f ∈ faults, f.item.mistake = .openString) ↔ warnings ≠ []) ∧
      stopped.fault = faults.head? ∧
      stopped.tokens = (lenient.1.filterMap Outcome.token?).filter
        fun t => stopped.fault.all (t.start.offset < ·.start.offset) := by
  intro lenient strict warnings faults stopped
  have hsorted : Run.Ascending (runsFrom symbols true Position.start text) := runsFrom_ascending
  obtain ⟨hlenient, hwarnings, hlcursor⟩ := course_eq false symbols file text
  obtain ⟨hstrict, hnone, hscursor⟩ := course_eq true symbols file text
  have hscan := scan_findings ⟨symbols, true, file⟩ text
  generalize runsFrom symbols true Position.start text = rs at *
  have hsilent : rs.filterMap (Run.notice? true) = [] :=
    List.filterMap_eq_nil_iff.mpr fun r _ => Run.notice?_strict r
  have hfaults : faults = rs.filterMap (Run.fault? true) := by
    rw [← faults_of_outcomes, ← hstrict]
  have hopen : faults.filter (·.item.mistake = .openString) =
      warnings.map (fun w => ⟨w.item.asFault, w.start⟩) := by
    rw [hfaults, open_faults, ← hwarnings]
  have hstopped : stopped.fault = (Findings.ofRuns true rs).fault :=
    congrArg Findings.fault hscan
  refine ⟨?_, hopen, fun _ _ => ⟨rfl, rfl, rfl⟩, ?_, ?_, hscursor.trans hlcursor.symm, ?_, ?_, ?_⟩
  · have hmerge : Entry.merge lenient.1 warnings = rs.flatMap Run.entries := by
      rw [← merge_runs hsorted, ← hlenient, ← hwarnings]
    rw [hmerge, List.filterMap_flatMap, hstrict, List.filterMap_eq_flatMap_toList]
    apply List.flatMap_congr
    intro r hr
    rw [← entries_strict hr hsorted, ← hwarnings]
  · rw [hsilent] at hnone
    exact Array.toList_eq_nil_iff.mp hnone
  · have hempty : stopped.session.warnings.toList = (Findings.ofRuns true rs).warnings :=
      congrArg Findings.warnings hscan
    rw [Findings.strict_warnings] at hempty
    exact Array.toList_eq_nil_iff.mp hempty
  · have hnil : warnings = [] ↔ faults.filter (·.item.mistake = .openString) = [] := by
      rw [hopen, List.map_eq_nil_iff]
    rw [Ne, hnil, List.filter_eq_nil_iff]
    simp
  · rw [hstopped, Findings.fault_eq_head?, hfaults]
  · have htokens : stopped.tokens = (Findings.ofRuns true rs).tokens :=
      congrArg Findings.tokens hscan
    rw [htokens, hstopped, strict_tokens hsorted, ← tokens_of_outcomes, ← hlenient]

end ExprLex
