import ExprLex.Proofs.Findings
import ExprLex.Proofs.NumeralParts

/-!
# What stops a scan

A run offends if it is a point without digits, with a sign or without one, or if it is text between
quotes that is not closed on its line and the settings are strict. These are the runs that amount to
a fault, so a scan reads the runs of a text up to the first that offends: what it finds comes from
the clean runs before it, and the fault from the offender.
-/
namespace ExprLex

namespace Run

def Offends (strict : Bool) (r : Run) : Prop :=
  r.form = .bare ∧ (r.text = ['.'] ∨ r.text = ['-', '.']) ∨ r.form = .unclosed ∧ strict = true

instance (strict : Bool) : DecidablePred (Offends strict) :=
  fun _ => inferInstanceAs (Decidable (_ ∨ _))

/-- What a run that offends is guilty of. -/
def offence (r : Run) : Fault :=
  match r.form with
  | .bare => .digitlessNumeral (String.ofList r.text)
  | _ => .openString (String.ofList r.text)

/-- The runs before the first that offends. -/
def clean (strict : Bool) (rs : List Run) : List Run := rs.takeWhile (¬ ·.Offends strict)

def offender? (strict : Bool) (rs : List Run) : Option Run := rs.find? (·.Offends strict)

/-- The runs that a scan reads: the clean ones, and the one that stops it. -/
def reached (strict : Bool) (rs : List Run) : List Run :=
  clean strict rs ++ (offender? strict rs).toList

end Run

theorem Numeral.digitless_iff {text : List Char} :
    isNumeral text = true ∧ hasDigit text = false ↔ text = ['.'] ∨ text = ['-', '.'] := by
  constructor
  · rintro ⟨hnumeral, hdigit⟩
    obtain ⟨hne, hlone, p, rfl⟩ := isNumeral_iff.mp hnumeral
    have hnone : p.digits = [] := by
      rw [← not_ne_iff, ← p.hasDigit_text, hdigit]
      exact Bool.false_ne_true
    obtain ⟨negative, whole, fraction?, hdigits⟩ := p
    obtain ⟨rfl, hfraction⟩ : whole = [] ∧ fraction?.getD [] = [] := List.append_eq_nil_iff.mp hnone
    cases fraction? with
    | none => cases negative <;> simp [Parts.text, Parts.unsigned] at hne hlone
    | some fraction =>
      obtain rfl : fraction = [] := hfraction
      cases negative
      · exact .inl rfl
      · exact .inr rfl
  · rintro (rfl | rfl) <;> exact ⟨rfl, rfl⟩

namespace Run

variable {strict : Bool} {r : Run} {rs before behind : List Run}

theorem Offends.outcome? (h : r.Offends strict) :
    r.outcome? strict = some (.fault ⟨r.offence, r.start⟩) := by
  rcases h with ⟨hform, htext⟩ | ⟨hform, rfl⟩
  · obtain ⟨hnumeral, hdigit⟩ := Numeral.digitless_iff.mpr htext
    have hverdict : Verdict.ofBare r.text = .fault (.digitlessNumeral (String.ofList r.text)) :=
      Verdict.stands_iff.mp (.digitless hnumeral hdigit)
    simp [Run.outcome?, verdict, offence, hform, hverdict]
  · simp [Run.outcome?, verdict, offence, hform]

theorem offends_of_fault {f : Placed Fault} (h : r.outcome? strict = some (.fault f)) :
    r.Offends strict := by
  have hverdict : r.verdict strict = .fault f.item := verdict_of_outcome? h
  rw [verdict] at hverdict
  cases hform : r.form with
  | bare =>
    rw [hform] at hverdict
    refine .inl ⟨hform, Numeral.digitless_iff.mp ?_⟩
    generalize f.item = fault, r.text = text at hverdict ⊢
    cases Verdict.stands_iff.mpr hverdict with
    | digitless hnumeral hdigit => exact ⟨hnumeral, hdigit⟩
  | closed =>
    rw [hform] at hverdict
    exact absurd hverdict (Verdict.ofQuoted_ne_fault _ _)
  | unclosed =>
    cases strict with
    | true => exact .inr ⟨hform, rfl⟩
    | false =>
      rw [hform] at hverdict
      exact absurd hverdict (Verdict.ofQuoted_ne_fault _ _)

theorem fault?_eq (strict : Bool) (r : Run) :
    r.fault? strict = if r.Offends strict then some ⟨r.offence, r.start⟩ else none := by
  split
  · rename_i h
    rw [fault?, h.outcome?]
    rfl
  · rename_i h
    rw [Option.eq_none_iff_forall_ne_some]
    intro f hf
    exact h (offends_of_fault (outcome?_of_fault? hf))

theorem not_offends_of_outcome? (h : ∀ f, r.outcome? strict ≠ some (.fault f)) :
    ¬ r.Offends strict := fun hr => h _ hr.outcome?

theorem clean_not_offends : ∀ x ∈ clean strict rs, ¬ x.Offends strict := by
  intro x hx
  simpa using List.mem_takeWhile_imp hx

theorem offends_of_offender? (h : offender? strict rs = some r) : r.Offends strict := by
  have hfound := List.find?_some h
  exact of_decide_eq_true hfound

theorem offender?_cons_of_offends (h : r.Offends strict) :
    offender? strict (r :: rs) = some r :=
  List.find?_cons_of_pos (decide_eq_true h)

theorem offender?_cons (h : ¬ r.Offends strict) :
    offender? strict (r :: rs) = offender? strict rs :=
  List.find?_cons_of_neg (by simpa using h)

theorem reached_of_clean (h : ∀ x ∈ rs, ¬ x.Offends strict) : reached strict rs = rs := by
  have hclean : clean strict rs = rs := List.takeWhile_eq_self_iff.mpr (by simpa using h)
  have hnone : offender? strict rs = none := List.find?_eq_none.mpr (by simpa using h)
  rw [reached, hclean, hnone, Option.toList_none, List.append_nil]

theorem reached_cons_of_offends (h : r.Offends strict) : reached strict (r :: rs) = [r] := by
  simp [reached, clean, offender?, h]

theorem reached_append (h : ∀ x ∈ before, ¬ x.Offends strict) :
    reached strict (before ++ behind) = before ++ reached strict behind := by
  have htake : ∀ x ∈ before, decide (¬ x.Offends strict) = true := by simpa using h
  have hfind : before.find? (·.Offends strict) = none := List.find?_eq_none.mpr (by simpa using h)
  rw [reached, clean, offender?, List.takeWhile_append_of_pos htake, List.find?_append, hfind,
    Option.none_or, List.append_assoc]
  rfl

theorem reached_cons (h : ¬ r.Offends strict) :
    reached strict (r :: rs) = r :: reached strict rs := by
  have hone : ∀ x ∈ [r], ¬ x.Offends strict := by simpa using h
  exact reached_append hone

theorem mem_reached_cons (strict : Bool) (r : Run) (rs : List Run) :
    r ∈ reached strict (r :: rs) := by
  by_cases h : r.Offends strict
  · simp [reached_cons_of_offends h]
  · simp [reached_cons h]

theorem reached_isPrefix (strict : Bool) (rs : List Run) : reached strict rs <+: rs := by
  induction rs with
  | nil => exact List.nil_prefix
  | cons r rs ih =>
    by_cases h : r.Offends strict
    · rw [reached_cons_of_offends h]
      exact ⟨rs, rfl⟩
    · rw [reached_cons h]
      exact (List.prefix_cons_inj r).mpr ih

end Run

/-- How a scan ends: it goes on past runs that are no faults until there is no run or until a run is
a fault, which it tells. Of the runs it reads the first ones and leaves the others. -/
inductive Scan.Ends (strict : Bool) : List Run → List Run → Option (Placed Fault) → Prop
  | exhausted : Ends strict [] [] none
  | stopped {r : Run} {left : List Run} {f : Placed Fault} : r.fault? strict = some f →
      Ends strict [r] left (some f)
  | goesOn {r : Run} {read left : List Run} {f? : Option (Placed Fault)} :
      r.fault? strict = none → Ends strict read left f? → Ends strict (r :: read) left f?

/-- A scan that tells no fault leaves no run. -/
theorem Scan.Ends.left_eq_nil {strict : Bool} {read left : List Run} {f? : Option (Placed Fault)}
    (h : Scan.Ends strict read left f?) (hnone : f? = none) : left = [] := by
  induction h with
  | exhausted => rfl
  | stopped => cases hnone
  | goesOn _ _ ih => exact ih hnone

open Run in
theorem Scan.ends_reached {strict : Bool} {rs left : List Run}
    (h : rs = reached strict rs ++ left) : Scan.Ends strict (reached strict rs) left
      ((offender? strict rs).map fun r => ⟨r.offence, r.start⟩) := by
  induction rs with
  | nil =>
    obtain rfl : left = [] := h.symm
    exact .exhausted
  | cons r rs ih =>
    have hfault := r.fault?_eq strict
    by_cases hr : r.Offends strict
    · rw [if_pos hr] at hfault
      rw [reached_cons_of_offends hr, offender?_cons_of_offends hr]
      exact .stopped hfault
    · rw [if_neg hr] at hfault
      rw [reached_cons hr] at h ⊢
      rw [offender?_cons hr]
      exact .goesOn hfault (ih (List.cons.inj h).2)

open Run in
/-- What is found in runs, apart from the fault, is found in the clean ones. -/
theorem Findings.ofRuns_eq (strict : Bool) (rs : List Run) : ofRuns strict rs =
    ⟨(clean strict rs).filterMap (token? strict), (clean strict rs).filterMap (notice? strict),
      (offender? strict rs).map fun r => ⟨r.offence, r.start⟩⟩ := by
  induction rs with
  | nil => rfl
  | cons r rs ih =>
    rw [ofRuns_cons, ih]
    by_cases h : r.Offends strict
    · rw [ofRun_fault h.outcome?]
      simp [followedBy, clean, offender?_cons_of_offends h, h]
    · have hfault : r.fault? strict = none := by rw [fault?_eq, if_neg h]
      have hclean : clean strict (r :: rs) = r :: clean strict rs := by simp [clean, h]
      rw [hclean, offender?_cons h, followedBy_of_no_fault (a := ofRun strict r) hfault,
        List.filterMap_cons, List.filterMap_cons]
      cases ht : r.token? strict <;> cases hw : r.notice? strict <;> simp [ofRun, ht, hw]

namespace Session

open Run

theorem drainAfter_reads (sofar : List (Placed Token)) (s : Session) :
    s.Reads (reached s.settings.strict s.runs) (s.drainAfter sofar).session := by
  fun_induction drainAfter sofar s with
  | case1 sofar s after h =>
    obtain ⟨hreads, -, hidle⟩ := next_none h
    have hclean : ∀ r ∈ s.runs, ¬ r.Offends s.settings.strict :=
      fun r hr => not_offends_of_outcome? (by simp [hidle r hr])
    rw [reached_of_clean hclean]
    exact hreads
  | case2 sofar s f after h =>
    obtain ⟨idle, r, hreads, hidle, hr⟩ := next_some h
    have hclean : ∀ x ∈ idle, ¬ x.Offends s.settings.strict :=
      fun x hx => not_offends_of_outcome? (by simp [hidle x hx])
    rw [hreads.runs, List.append_assoc, reached_append hclean, List.singleton_append,
      reached_cons_of_offends (offends_of_fault hr)]
    exact hreads
  | case3 sofar s t after h ih =>
    obtain ⟨idle, r, hreads, hidle, hr⟩ := next_some h
    have hclean : ∀ x ∈ idle ++ [r], ¬ x.Offends s.settings.strict := by
      intro x hx
      rcases List.mem_append.mp hx with hx | hx
      · exact not_offends_of_outcome? (by simp [hidle x hx])
      · obtain rfl := List.mem_singleton.mp hx
        exact not_offends_of_outcome? (by simp [hr])
    rw [hreads.settings] at ih
    rw [hreads.runs, reached_append hclean]
    exact hreads.trans ih

/-- A drain reads up to the first run that offends and tells what it is guilty of. -/
theorem drain_spec (s : Session) :
    let rs := s.runs
    let strict := s.settings.strict
    s.Reads (reached strict rs) s.drain.session ∧
      s.drain.tokens = (clean strict rs).filterMap (token? strict) ∧
      s.drain.session.warnings.toList =
        s.warnings.toList ++ (clean strict rs).filterMap (notice? strict) ∧
      s.drain.fault = (offender? strict rs).map fun r => ⟨r.offence, r.start⟩ := by
  intro rs strict
  obtain ⟨htokens, hwarnings, hfault⟩ := drainAfter_findings [] s
  rw [Findings.ofRuns_eq] at htokens hwarnings hfault
  exact ⟨drainAfter_reads [] s, htokens, hwarnings, hfault⟩

theorem drain_ends {s : Session} {left : List Run}
    (h : s.runs = reached s.settings.strict s.runs ++ left) :
    Scan.Ends s.settings.strict (reached s.settings.strict s.runs) left s.drain.fault := by
  rw [s.drain_spec.2.2.2]
  exact Scan.ends_reached h

end Session

section

variable {settings : Settings} {text : List Char}

theorem exists_offender_of_scan {f : Placed Fault} (h : (scan settings text).fault = some f) :
    ∃ r ∈ (Session.ofText settings text).runs, r.Offends settings.strict ∧
      ⟨r.offence, r.start⟩ = f := by
  obtain ⟨-, -, -, hfault⟩ := Session.drain_spec (.ofText settings text)
  obtain ⟨r, hr, rfl⟩ := Option.map_eq_some_iff.mp (hfault.symm.trans h)
  exact ⟨r, List.mem_of_find?_eq_some hr, Run.offends_of_offender? hr, rfl⟩

theorem exists_notice_of_scan {w : Placed Warning}
    (h : w ∈ (scan settings text).session.warnings.toList) :
    ∃ r ∈ (Session.ofText settings text).runs, r.notice? settings.strict = some w := by
  obtain ⟨-, -, hwarnings, -⟩ := Session.drain_spec (.ofText settings text)
  obtain ⟨r, hr, hnotice⟩ := List.mem_filterMap.mp (hwarnings ▸ h)
  exact ⟨r, (List.takeWhile_sublist _).subset hr, hnotice⟩

end
end ExprLex
