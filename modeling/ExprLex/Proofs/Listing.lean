import ExprLex.Proofs.OpenQuotes
import ExprLex.Proofs.Options
import ExprLex.Proofs.Printing
import ExprLex.Proofs.StoredText

/-!
# What the command prints

The command prints a scan: a line for each token, and then, behind the events, its fault or else
its warnings. It does so alike for a text that it is given and for a file that holds the text, and a
listing of events takes nothing from the lines. The tokens of a file are the tokens whose lines are
printed.
-/
namespace ExprLex
open Text

/-- What is said of a text once it is scanned: the fault that stopped the scan, or all warnings. -/
def Scan.diagnostics (file : String) (result : Scan) : List Diagnostic :=
  match result.fault with
  | some f => [f.item.diagnostic (f.start.inFile file)]
  | none => result.session.warnings.toList.map fun w => w.item.diagnostic (w.start.inFile file)

namespace Command

def lines (tokens : List (Placed Token)) (file : String) : List String :=
  tokens.map fun t => t.item.line (some (t.start.inFile file)) ++ "\n"

/-- What a reader of the listing alone gets to know. -/
def Report.listing (r : Report) : Nat × String := (r.exit, r.out)

/-- The report on a scan. What is written for a terminal goes without control sequences. -/
structure Report.Tells (r : Report) (file : String) (result : Scan) : Prop where
  exit : r.exit = if result.fault.isSome then 1 else 0
  out : r.out = concat (lines result.tokens file)
  one_line : ∀ t ∈ result.tokens, '\n' ∉ (t.item.line (some (t.start.inFile file))).toList
  err : ∃ events, r.err = events ++ concat ((result.diagnostics file).map (plainText ·.text))

namespace Listing

theorem tokenLines_eq (s : Scan) :
    tokenLines s = concat (lines s.tokens s.session.settings.file) := by
  simp only [tokenLines, lines, echo_line, Session.locate]

theorem report_listing (verbose : Bool) (s : Scan) : (report verbose s).listing =
    (if s.fault.isSome then 1 else 0, concat (lines s.tokens s.session.settings.file)) := by
  rw [← tokenLines_eq, report]
  cases s.fault <;> rfl

/-- Neither the events nor the name of the file are seen in a listing. -/
theorem report_listing_eq {s s' : Scan} (h : s.findings = s'.findings) (verbose quiet : Bool) :
    (report verbose s).listing = (report quiet s').listing := by
  have htokens : s.tokens = s'.tokens := congrArg Findings.tokens h
  have hfault : s.fault = s'.fault := congrArg Findings.fault h
  rw [report_listing, report_listing, htokens, hfault]
  rfl

theorem report_tells (verbose : Bool) (s : Scan) :
    (report verbose s).Tells s.session.settings.file s where
  exit := congrArg Prod.fst (report_listing verbose s)
  out := congrArg Prod.snd (report_listing verbose s)
  one_line := fun t _ => t.item.newline_not_mem_line _
  err := by
    rw [report, Scan.diagnostics]
    cases s.fault with
    | none =>
      refine ⟨eventLines verbose s, ?_⟩
      simp [warningTexts, Session.locate, Function.comp_def]
    | some f =>
      let d := f.item.diagnostic (s.session.locate f.start)
      refine ⟨eventLines verbose s ++ abortLine verbose d, ?_⟩
      simp [concat, Session.locate, d]

end Listing

theorem reportOn_loud (files : Files) (a : Arguments) (source : Source) :
    (reportOn files a.loud source).map Report.listing =
      (reportOn files a source).map Report.listing := by
  cases source with
  | expression text =>
    exact congrArg Except.ok (Listing.report_listing_eq rfl _ _)
  | file path =>
    simp only [reportOn]
    cases readText files path with
    | error e => rfl
    | ok text => exact congrArg Except.ok (Listing.report_listing_eq rfl _ _)

/-- Events are told on the side: with them, the listing is the same. -/
theorem run_loud (files : Files) {words loud : List String}
    (h : Arguments.parse loud = (Arguments.parse words).map Arguments.loud) :
    (run files loud).map Report.listing = (run files words).map Report.listing := by
  rw [run, run, h]
  cases Arguments.parse words with
  | error e => rfl
  | ok a =>
    have hmap : (Except.ok a : Except OptionError Arguments).map Arguments.loud = .ok a.loud := rfl
    have hhelp : a.loud.help = a.help := rfl
    have hsource : a.loud.source files = a.source files := rfl
    rw [hmap]
    dsimp only
    rw [hhelp, hsource]
    cases a.help with
    | true => rfl
    | false =>
      cases a.source files with
      | error e => cases e <;> rfl
      | ok source => exact reportOn_loud files a source

theorem run_expression (files : Files) {words : List String} {e : String} {strict verbose : Bool}
    (h : Arguments.parse words = .ok { expression := some e, strict, verbose }) :
    run files words =
      .ok (Listing.report verbose (scan (settings strict expressionName) e.toList)) := by
  rw [run, h]
  rfl

theorem run_file (files : Files) {words : List String} {path : String} {content : ByteArray}
    {text : List Char} {strict verbose : Bool} (hfile : files path = .ok content)
    (htext : decodeText content = .ok text)
    (h : Arguments.parse words = .ok { strict, verbose, operands := [path] }) :
    run files words = .ok (Listing.report verbose (scan (settings strict path) text)) := by
  rw [run, h]
  have hsource :
      Arguments.source files { strict, verbose, operands := [path] } = .ok (.file path) := by
    simp only [Arguments.source, checkPath, hfile]
    rfl
  have hread : readText files path = .ok text := by rw [readText, hfile]; exact htext
  simp only [hsource, reportOn, hread]
  rfl

end Command

theorem decodeText_toUTF8 {e : String} (h : '\r' ∉ e.toList) :
    decodeText e.toUTF8 = .ok e.toList := by
  rw [decodeText_eq, unifyLineEnds_of_no_return h]

theorem Run.text_offence (r : Run) : r.offence.text = String.ofList r.text := by
  rw [offence]
  split <;> rfl

theorem Run.calm_offence {r : Run} {l : Location} (hfile : Calm l.file)
    (h : Calm (String.ofList r.text)) : Calm (r.offence.diagnostic l).text :=
  Fault.calm_diagnostic hfile (r.text_offence ▸ h)

theorem Run.IsAt.subset {text : List Char} {r : Run} (h : r.IsAt text) : r.text ⊆ text := by
  have hdrop : text.drop r.start.offset ⊆ text := List.drop_subset _ _
  rw [IsAt] at h
  split at h
  · exact List.Subset.trans h.2.subset hdrop
  · exact List.Subset.trans (List.subset_cons_self _ _) (List.Subset.trans h.subset hdrop)

theorem scan_settings (s : Settings) (text : List Char) : (scan s text).session.settings = s :=
  (Session.drain_spec (.ofText s text)).1.settings

/-- The name of the file is of no concern to what is found. -/
theorem scan_of_file (strict : Bool) (file other : String) (text : List Char) :
    (scan (Command.settings strict file) text).findings =
      (scan (Command.settings strict other) text).findings := by
  rw [scan_findings, scan_findings]
  rfl

/-- Where no text holds an escape character, diagnostics are written as they are. -/
theorem Scan.plain_diagnostics {s : Settings} {text : List Char} (h : escapeChar ∉ text)
    (hfile : Calm s.file) :
    ∀ d ∈ (scan s text).diagnostics s.file, Command.plainText d.text = d.text := by
  have hsound := Session.ofText_sound s text
  have hcalm : ∀ r ∈ (Session.ofText s text).runs, Calm (String.ofList r.text) :=
    fun r hr => calm_of_subset (hsound.isAt hr).subset h
  intro d hd
  apply Command.plainText_of_calm
  rw [diagnostics] at hd
  cases hf : (scan s text).fault with
  | some f =>
    rw [hf] at hd
    obtain rfl := List.mem_singleton.mp hd
    obtain ⟨r, hr, -, rfl⟩ := exists_offender_of_scan hf
    exact Run.calm_offence hfile (hcalm r hr)
  | none =>
    rw [hf] at hd
    obtain ⟨w, hw, rfl⟩ := List.mem_map.mp hd
    obtain ⟨r, hr, hnotice⟩ := exists_notice_of_scan hw
    obtain ⟨-, rfl⟩ := Run.notice?_eq_some_iff.mp hnotice
    exact Warning.calm_diagnostic hfile (hcalm r hr)

namespace Command

/-- The report on a file goes with what a reading of its tokens comes to, and both with a scan. -/
def Report.Agrees (r : Report) (path : String) (result : Scan) :
    Except FileFailure (List (Placed Token)) → Prop
  | .ok ts => r.exit = 0 ∧ ts = result.tokens ∧ r.out = concat (lines ts path)
  | .error (.fault f) => r.exit = 1 ∧ result.fault = some f ∧
      ∃ events, r.err = events ++ plainText (f.item.diagnostic (f.start.inFile path)).text
  | .error (.reading _) => False

theorem Report.Tells.agrees {r : Report} {settings : Settings} {text : List Char}
    (h : r.Tells settings.file (scan settings text)) :
    r.Agrees settings.file (scan settings text) ((tokens settings text).mapError .fault) := by
  obtain ⟨hexit, hout, -, events, herr⟩ := h
  rw [Scan.diagnostics] at herr
  simp only [tokens]
  cases hf : (scan settings text).fault with
  | some f =>
    rw [hf] at hexit herr
    refine ⟨hexit, hf, events, ?_⟩
    simpa [concat] using herr
  | none =>
    rw [hf] at hexit
    exact ⟨hexit, rfl, hout⟩

theorem Report.Agrees.of_findings {r : Report} {path : String} {a b : Scan}
    (h : a.findings = b.findings) {read : Except FileFailure (List (Placed Token))}
    (hr : r.Agrees path a read) : r.Agrees path b read := by
  have htokens : a.tokens = b.tokens := congrArg Findings.tokens h
  have hfault : a.fault = b.fault := congrArg Findings.fault h
  simpa only [Agrees, htokens, hfault] using hr

/-- The command prints the scan of a text that it is given, events or no events, and the scan of a
file that holds the text. -/
theorem run_prints_scan (files : Files) (strict : Bool) (e : String) :
    let result := scan (settings strict expressionName) e.toList
    let words := Arguments.strictWords strict ++ ["-e", e]
    Arguments.parse words = .ok { expression := some e, strict := strict } ∧
    (∀ given verbose,
      Arguments.parse given = .ok { expression := some e, strict := strict, verbose := verbose } →
      ∃ report, run files given = .ok report ∧ report.Tells expressionName result) ∧
    (escapeChar ∉ e.toList →
      ∀ d ∈ result.diagnostics expressionName, plainText d.text = d.text) ∧
    (∀ before behind accepted, Arguments.parse before = .ok accepted → "--" ∉ before →
      (run files (before ++ "-v" :: behind)).map Report.listing =
        (run files (before ++ behind)).map Report.listing) ∧
    ∀ path given verbose, path ≠ "" → files path = .ok e.toUTF8 → '\r' ∉ e.toList →
      Arguments.parse given = .ok { strict := strict, verbose := verbose, operands := [path] } →
      ∃ report, run files given = .ok report ∧
        .ok report.listing = (run files words).map Report.listing ∧
        ∀ file, report.Agrees path result (fileTokens (settings strict file) files path) := by
  intro result words
  have hparse := Arguments.parse_expression strict e
  refine ⟨hparse, fun given verbose hgiven => ?_, fun hescape => ?_, ?_, ?_⟩
  · refine ⟨_, run_expression files hgiven, ?_⟩
    have htells := Listing.report_tells verbose result
    rwa [scan_settings] at htells
  · have hname : Calm expressionName := by decide
    exact Scan.plain_diagnostics hescape hname
  · intro before behind accepted hbefore hend
    exact run_loud files (Arguments.parse_verbose hbefore hend behind)
  · intro path given verbose hpath hfile hreturn hgiven
    have hfindings := scan_of_file strict path expressionName e.toList
    have hdecode := decodeText_toUTF8 hreturn
    have hread : readText files path = .ok e.toList := by rw [readText, hfile]; exact hdecode
    refine ⟨_, run_file files hfile hdecode hgiven, ?_, fun file => ?_⟩
    · rw [run_expression files hparse]
      exact congrArg Except.ok (Listing.report_listing_eq hfindings _ _)
    · have htells := Listing.report_tells verbose (scan (settings strict path) e.toList)
      rw [scan_settings] at htells
      have hnamed : (settings strict file).named (some path) = settings strict path := by
        simp only [Settings.named, if_neg hpath, settings]
      rw [fileTokens, hread]
      dsimp only
      rw [hnamed]
      exact htells.agrees.of_findings hfindings

theorem run_prints_scan_file :
    let text := "x \"y"
    let files : Files := fun path => if path = "a" then .ok text.toUTF8 else .error .missing
    let given := ["-v", "--strict", "a"]
    "a" ≠ "" ∧ files "a" = .ok text.toUTF8 ∧ '\r' ∉ text.toList ∧
      Arguments.parse given = .ok { strict := true, verbose := true, operands := ["a"] } ∧
      ∃ report, run files given = .ok report ∧
        .ok report.listing = (run files ["--strict", "-e", text]).map Report.listing ∧
        ∀ file, report.Agrees "a" (scan (settings true expressionName) text.toList)
          (fileTokens (settings true file) files "a") := by
  intro text files given
  have hpath : "a" ≠ "" := by decide
  have hfile : files "a" = .ok text.toUTF8 := if_pos rfl
  have hreturn : '\r' ∉ text.toList := by decide
  have hgiven : Arguments.parse given =
      .ok { strict := true, verbose := true, operands := ["a"] } := by rfl
  obtain ⟨-, -, -, -, hfiles⟩ := run_prints_scan files true text
  exact ⟨hpath, hfile, hreturn, hgiven, hfiles "a" given true hpath hfile hreturn hgiven⟩

end Command
end ExprLex
