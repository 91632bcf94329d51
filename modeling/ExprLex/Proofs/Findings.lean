import ExprLex.Proofs.Outcomes
import ExprLex.Proofs.Verdicts

/-!
# The findings of a scan

A scan finds tokens and warnings and perhaps a fault, which ends it. Findings follow each other:
those of a list of runs are those of the single runs, one after another, and a scan of a text finds
what the runs of the text amount to.
-/
namespace ExprLex

structure Findings where
  tokens : List (Placed Token)
  warnings : List (Placed Warning)
  fault : Option (Placed Fault)

def Scan.findings (s : Scan) : Findings := ⟨s.tokens, s.session.warnings.toList, s.fault⟩

def Placed.moved {α : Type} (g : Position → Position) (x : Placed α) : Placed α :=
  ⟨x.item, g x.start⟩

namespace Outcome

def token? : Outcome → Option (Placed Token)
  | token t => some t
  | fault _ => none

def fault? : Outcome → Option (Placed Fault)
  | token _ => none
  | fault f => some f

def start : Outcome → Position
  | token t => t.start
  | fault f => f.start

/-- The verdict on a run that has the outcome. -/
def verdict : Outcome → Verdict
  | token t => .token t.item
  | fault f => .fault f.item

def moved (g : Position → Position) : Outcome → Outcome
  | token t => .token (t.moved g)
  | fault f => .fault (f.moved g)

end Outcome

namespace Run

def token? (strict : Bool) (r : Run) : Option (Placed Token) :=
  (r.outcome? strict).bind Outcome.token?

def fault? (strict : Bool) (r : Run) : Option (Placed Fault) :=
  (r.outcome? strict).bind Outcome.fault?

theorem unclosed_strict {r : Run} (h : r.form = .unclosed) :
    r.outcome? true = some (.fault ⟨.openString (String.ofList r.text), r.start⟩) := by
  simp [outcome?, verdict, h]

/-- Only a fault keeps a run in quotes from standing for its text. -/
theorem verdict_of_quotes {strict : Bool} {r : Run} (hform : r.form ≠ .bare)
    (hfault : r.fault? strict = none) : r.verdict strict = .ofQuoted r.text := by
  rw [verdict]
  cases h : r.form with
  | bare => exact absurd h hform
  | closed => rfl
  | unclosed =>
    cases strict with
    | false => rfl
    | true =>
      rw [fault?, unclosed_strict h] at hfault
      cases hfault

theorem verdict_of_outcome? {strict : Bool} {r : Run} {o : Outcome}
    (h : r.outcome? strict = some o) : r.verdict strict = o.verdict := by
  rw [outcome?] at h
  split at h <;> cases h <;> assumption

theorem notice?_of_fault {strict : Bool} {r : Run} {f : Placed Fault}
    (h : r.outcome? strict = some (.fault f)) : r.notice? strict = none := by
  have hverdict : r.verdict strict = .fault f.item := verdict_of_outcome? h
  rw [verdict] at hverdict
  rw [notice?, warning?]
  cases hform : r.form with
  | bare => simp
  | closed => simp
  | unclosed =>
    cases strict with
    | true => simp
    | false =>
      rw [hform] at hverdict
      exact absurd hverdict (Verdict.ofQuoted_ne_fault _ _)

theorem outcome?_start {strict : Bool} {r : Run} {o : Outcome}
    (h : r.outcome? strict = some o) : o.start = r.start := by
  rw [outcome?] at h
  split at h <;> cases h <;> rfl

theorem token?_start {strict : Bool} {r : Run} {t : Placed Token}
    (h : r.token? strict = some t) : t.start = r.start := by
  obtain ⟨o, ho, ht⟩ := Option.bind_eq_some_iff.mp h
  cases o <;> cases ht
  exact outcome?_start ho

theorem fault?_start {strict : Bool} {r : Run} {f : Placed Fault}
    (h : r.fault? strict = some f) : f.start = r.start := by
  obtain ⟨o, ho, hf⟩ := Option.bind_eq_some_iff.mp h
  cases o <;> cases hf
  exact outcome?_start ho

theorem outcome?_of_fault? {strict : Bool} {r : Run} {f : Placed Fault}
    (h : r.fault? strict = some f) : r.outcome? strict = some (.fault f) := by
  obtain ⟨o, ho, hf⟩ := Option.bind_eq_some_iff.mp h
  cases o <;> cases hf
  exact ho

theorem notice?_start {strict : Bool} {r : Run} {w : Placed Warning}
    (h : r.notice? strict = some w) : w.start = r.start := by
  obtain ⟨_, -, rfl⟩ := Option.map_eq_some_iff.mp h
  rfl

section Moved

variable (strict : Bool) (g : Position → Position) (r : Run)

theorem moved_outcome? :
    (r.moved g).outcome? strict = (r.outcome? strict).map (Outcome.moved g) := by
  have hverdict : (r.moved g).verdict strict = r.verdict strict := rfl
  rw [outcome?, outcome?, hverdict]
  cases r.verdict strict <;> rfl

theorem moved_notice? :
    (r.moved g).notice? strict = (r.notice? strict).map (Placed.moved g) := by
  have hwarning : (r.moved g).warning? strict = r.warning? strict := rfl
  rw [notice?, notice?, hwarning]
  cases r.warning? strict <;> rfl

theorem moved_events : (r.moved g).events strict = (r.events strict).map (Placed.moved g) := by
  have hverdict : (r.moved g).verdict strict = r.verdict strict := rfl
  rw [events, events, hverdict, moved_notice?]
  cases r.verdict strict <;> cases r.notice? strict <;> rfl

end Moved

end Run

namespace Findings

def empty : Findings := ⟨[], [], none⟩

/-- What is found in one stretch of text and then in the next, unless a fault stands before it. -/
def followedBy (a b : Findings) : Findings :=
  match a.fault with
  | some _ => a
  | none => ⟨a.tokens ++ b.tokens, a.warnings ++ b.warnings, b.fault⟩

def ofRun (strict : Bool) (r : Run) : Findings where
  tokens := (r.token? strict).toList
  warnings := (r.notice? strict).toList
  fault := r.fault? strict

def ofRuns (strict : Bool) (rs : List Run) : Findings :=
  rs.foldr (fun r found => (ofRun strict r).followedBy found) empty

def moved (g : Position → Position) (a : Findings) : Findings :=
  ⟨a.tokens.map (Placed.moved g), a.warnings.map (Placed.moved g), a.fault.map (Placed.moved g)⟩

@[simp] theorem empty_followedBy (a : Findings) : empty.followedBy a = a := rfl

@[simp] theorem followedBy_empty (a : Findings) : a.followedBy empty = a := by
  obtain ⟨tokens, warnings, fault⟩ := a
  cases fault <;> simp [followedBy, empty]

theorem followedBy_assoc (a b c : Findings) :
    (a.followedBy b).followedBy c = a.followedBy (b.followedBy c) := by
  obtain ⟨ta, wa, fa⟩ := a
  obtain ⟨tb, wb, fb⟩ := b
  cases fa <;> cases fb <;> simp [followedBy]

theorem followedBy_of_no_fault {a : Findings} (h : a.fault = none) (b : Findings) :
    a.followedBy b = ⟨a.tokens ++ b.tokens, a.warnings ++ b.warnings, b.fault⟩ := by
  rw [followedBy, h]

theorem no_fault_of_followedBy {a b : Findings} (h : (a.followedBy b).fault = none) :
    a.fault = none := by
  cases ha : a.fault with
  | none => rfl
  | some f =>
    rw [followedBy, ha] at h
    exact ha.symm.trans h

theorem moved_followedBy (g : Position → Position) (a b : Findings) :
    (a.followedBy b).moved g = (a.moved g).followedBy (b.moved g) := by
  obtain ⟨ta, wa, fa⟩ := a
  cases fa <;> simp [followedBy, moved]

@[simp] theorem ofRuns_nil (strict : Bool) : ofRuns strict [] = empty := rfl

@[simp] theorem ofRuns_cons (strict : Bool) (r : Run) (rs : List Run) :
    ofRuns strict (r :: rs) = (ofRun strict r).followedBy (ofRuns strict rs) := rfl

theorem ofRuns_append (strict : Bool) (a b : List Run) :
    ofRuns strict (a ++ b) = (ofRuns strict a).followedBy (ofRuns strict b) := by
  induction a with
  | nil => rfl
  | cons r a ih => rw [List.cons_append, ofRuns_cons, ih, ofRuns_cons, followedBy_assoc]

theorem ofRun_moved (strict : Bool) (g : Position → Position) (r : Run) :
    ofRun strict (r.moved g) = (ofRun strict r).moved g := by
  simp only [ofRun, Run.token?, Run.fault?, Run.moved_outcome?, Run.moved_notice?, moved]
  rcases r.outcome? strict with _ | o | o <;> cases r.notice? strict <;> rfl

theorem ofRuns_moved (strict : Bool) (g : Position → Position) (rs : List Run) :
    ofRuns strict (rs.map (Run.moved g)) = (ofRuns strict rs).moved g := by
  induction rs with
  | nil => rfl
  | cons r rs ih => rw [List.map_cons, ofRuns_cons, ih, ofRun_moved, ofRuns_cons, moved_followedBy]

theorem ofRuns_of_no_fault {strict : Bool} {rs : List Run}
    (h : ∀ r ∈ rs, r.fault? strict = none) : ofRuns strict rs =
      ⟨rs.filterMap (Run.token? strict), rs.filterMap (Run.notice? strict), none⟩ := by
  induction rs with
  | nil => rfl
  | cons r rs ih =>
    have hr := h r (by simp)
    rw [ofRuns_cons, ih fun x hx => h x (by simp [hx])]
    simp only [followedBy, ofRun, hr, List.filterMap_cons]
    cases r.token? strict <;> cases r.notice? strict <;> simp

theorem ofRuns_of_idle {strict : Bool} {rs : List Run}
    (h : ∀ r ∈ rs, r.outcome? strict = none) :
    ofRuns strict rs = ⟨[], rs.filterMap (Run.notice? strict), none⟩ := by
  have htoken : rs.filterMap (Run.token? strict) = [] :=
    List.filterMap_eq_nil_iff.mpr fun r hr => by simp [Run.token?, h r hr]
  rw [ofRuns_of_no_fault fun r hr => by simp [Run.fault?, h r hr], htoken]

theorem ofRun_fault {strict : Bool} {r : Run} {f : Placed Fault}
    (h : r.outcome? strict = some (.fault f)) : ofRun strict r = ⟨[], [], some f⟩ := by
  simp [ofRun, Run.token?, Run.fault?, h, Run.notice?_of_fault h, Outcome.token?, Outcome.fault?]

theorem fault_mem {strict : Bool} {rs : List Run} {f : Placed Fault}
    (h : (ofRuns strict rs).fault = some f) : ∃ r ∈ rs, r.fault? strict = some f := by
  induction rs with
  | nil => cases h
  | cons r rs ih =>
    rw [ofRuns_cons, followedBy] at h
    cases hr : r.fault? strict with
    | some g =>
      simp only [ofRun, hr] at h
      exact ⟨r, by simp, h ▸ hr⟩
    | none =>
      simp only [ofRun, hr] at h
      obtain ⟨s, hs, hf⟩ := ih h
      exact ⟨s, by simp [hs], hf⟩

end Findings

namespace Session

theorem drainAfter_findings (sofar : List (Placed Token)) (s : Session) :
    let found := Findings.ofRuns s.settings.strict s.runs
    (s.drainAfter sofar).tokens = sofar.reverse ++ found.tokens ∧
      (s.drainAfter sofar).session.warnings.toList = s.warnings.toList ++ found.warnings ∧
      (s.drainAfter sofar).fault = found.fault := by
  fun_induction drainAfter sofar s with
  | case1 sofar s after h =>
    obtain ⟨hreads, -, hidle⟩ := next_none h
    simp [Findings.ofRuns_of_idle hidle, hreads.warnings]
  | case2 sofar s f after h =>
    obtain ⟨idle, r, hreads, hidle, hr⟩ := next_some h
    rw [hreads.runs, Findings.ofRuns_append, Findings.ofRuns_append, Findings.ofRuns_of_idle hidle,
      Findings.ofRuns_cons, Findings.ofRun_fault hr, hreads.warnings]
    simp [Findings.followedBy, Run.notice?_of_fault hr]
  | case3 sofar s t after h ih =>
    obtain ⟨idle, r, hreads, hidle, hr⟩ := next_some h
    have hfirst : Findings.ofRuns s.settings.strict (idle ++ [r]) =
        ⟨[t], (idle ++ [r]).filterMap (Run.notice? s.settings.strict), none⟩ := by
      have hone : Findings.ofRun s.settings.strict r =
          ⟨[t], (r.notice? s.settings.strict).toList, none⟩ := by
        simp [Findings.ofRun, Run.token?, Run.fault?, hr, Outcome.token?, Outcome.fault?]
      rw [Findings.ofRuns_append, Findings.ofRuns_of_idle hidle, Findings.ofRuns_cons, hone]
      cases hn : r.notice? s.settings.strict <;>
        simp [Findings.followedBy, Findings.empty, hn]
    obtain ⟨htokens, hwarnings, hfault⟩ := ih
    rw [hreads.settings] at htokens hwarnings hfault
    rw [hreads.runs, Findings.ofRuns_append, hfirst, htokens, hwarnings, hfault, hreads.warnings]
    simp [Findings.followedBy]

end Session

theorem scan_findings (settings : Settings) (text : List Char) :
    (scan settings text).findings = Findings.ofRuns settings.strict
      (runsFrom settings.symbols true Position.start text) := by
  have h := (Session.ofText settings text).drainAfter_findings []
  change _ = Findings.ofRuns settings.strict (Session.ofText settings text).runs
  simp only [Session.ofText, List.reverse_nil, List.nil_append] at h
  simp only [Scan.findings, scan, Session.drain, Session.ofText, h]

end ExprLex
