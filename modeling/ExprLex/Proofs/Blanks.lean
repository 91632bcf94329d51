import ExprLex.Proofs.Lines
import ExprLex.Proofs.Offences

/-!
# Blanks stand for each other

Outside quotes all blanks do the same: they end what stands before them, and behind them everything
begins anew. So what is found behind some blanks does not depend on which and how many they are,
places apart, unless the scan of the text before them comes to its end between quotes.
-/
namespace ExprLex
open Text

section

variable {symbols : SymbolSet} {fresh strict : Bool} {start : Position} {text gap more : List Char}

/-- What is found in a text with more behind it is what is found in the text by itself and then what
is found in the rest. Of quotes that the end of the text cuts off only those matter that the scan
comes to. -/
theorem findings_runsFrom_append (hstop : Piece.Stops symbols text more)
    (hcut : ∀ r ∈ Run.reached strict (runsFrom symbols fresh start text),
      ¬ r.IsCutOff (start.offset + text.length)) :
    Findings.ofRuns strict (runsFrom symbols fresh start (text ++ more)) =
      (Findings.ofRuns strict (runsFrom symbols fresh start text)).followedBy
        (Findings.ofRuns strict
          (runsFrom symbols (freshAfter symbols fresh text) (start.after text) more)) := by
  fun_induction runsFrom symbols fresh start text with
  | case1 fresh start => rfl
  | case2 fresh start rest ih =>
    have hlength : (start.next ' ').offset + rest.length = start.offset + (' ' :: rest).length :=
      Position.after_offset_drop start (List.prefix_append [' '] rest)
    have hfresh : freshAfter symbols fresh (' ' :: rest) = freshAfter symbols true rest :=
      freshAfter_append symbols fresh [' '] rest
    rw [← hlength] at hcut
    rw [List.cons_append, runsFrom_space, ih (hstop.drop 1) hcut, hfresh, Position.after_cons]
  | case3 fresh start x rest hx k ih =>
    have hne : x :: rest ≠ [] := List.cons_ne_nil x rest
    have hhead : (x :: rest).head? ≠ some ' ' := by simpa using hx
    have hprefix := Piece.first_written_isPrefix symbols fresh (x :: rest)
    have hsplit : k.written ++ (x :: rest).drop k.written.length = x :: rest :=
      Piece.first_written_append symbols fresh _
    have hlength : (start.after k.written).offset + ((x :: rest).drop k.written.length).length =
        start.offset + (x :: rest).length := Position.after_offset_drop start hprefix
    have hfirst : ¬ (k.run start).IsCutOff (start.offset + (x :: rest).length) :=
      hcut _ (Run.mem_reached_cons strict _ _)
    have hline : (x :: rest).head? = some '"' → Piece.IsOpen symbols fresh (x :: rest) →
        more.head? = some '\n' :=
      fun hquote hopen => absurd (Piece.isCutOff_of_isOpen hquote hopen start) hfirst
    rw [← Findings.ofRuns_visible, visible_runsFrom_first_append hne hhead hstop hline,
      Findings.ofRuns_visible, Findings.ofRuns_cons, Findings.ofRuns_cons,
      Findings.followedBy_assoc]
    by_cases hoffends : (k.run start).Offends strict
    · rw [Findings.ofRun_fault hoffends.outcome?]
      rfl
    · rw [Run.reached_cons hoffends, List.forall_mem_cons, ← hlength] at hcut
      rw [ih (hstop.drop _) hcut.2, ← freshAfter_append, ← Position.after_append, hsplit]

theorem visible_runsFrom_blanks (hgap : ∀ x ∈ gap, isBlank x = true) (hne : gap ≠ []) :
    visible (runsFrom symbols fresh start (gap ++ more)) =
      visible (runsFrom symbols true (start.after gap) more) := by
  induction gap generalizing fresh start with
  | nil => exact absurd rfl hne
  | cons x gap ih =>
    obtain ⟨hx, hrest⟩ := List.forall_mem_cons.mp hgap
    rw [List.cons_append, visible_runsFrom_blank hx, Position.after_cons]
    by_cases hlast : gap = []
    · rw [hlast]
      rfl
    · exact ih hrest hlast

end

/-- The scan of the text comes to its end between quotes, which neither a quote nor a newline
ends. -/
def EndsInQuotes (settings : Settings) (text : List Char) : Prop :=
  ∃ r ∈ Run.reached settings.strict (runsFrom settings.symbols true .start text),
    r.IsCutOff text.length

instance (settings : Settings) (text : List Char) : Decidable (EndsInQuotes settings text) :=
  inferInstanceAs (Decidable (∃ r ∈ _, Run.IsCutOff _ r))

theorem findings_at_blanks {settings : Settings} {text gap : List Char} (more : List Char)
    (hgap : ∀ x ∈ gap, isBlank x = true) (hne : gap ≠ []) (hquotes : ¬ EndsInQuotes settings text) :
    (scan settings (text ++ gap ++ more)).findings =
      (scan settings text).findings.followedBy
        ((scan settings more).findings.moved (Position.behind (text ++ gap))) := by
  obtain ⟨x, rest, rfl⟩ := List.exists_cons_of_ne_nil hne
  have hstop : Piece.Stops settings.symbols text (x :: rest ++ more) :=
    Piece.stops_of_isBlank (hgap x List.mem_cons_self)
  have hcut : ∀ r ∈ Run.reached settings.strict (runsFrom settings.symbols true .start text),
      ¬ r.IsCutOff (Position.start.offset + text.length) := by
    intro r hr hcut
    refine hquotes ⟨r, hr, ?_⟩
    rwa [Position.start, Nat.zero_add] at hcut
  have hstart : (Position.start.after text).after (x :: rest) =
      Position.start.behind (text ++ x :: rest) := by
    rw [Position.start_behind, Position.after_append]
  rw [scan_findings, List.append_assoc, findings_runsFrom_append hstop hcut, ← scan_findings,
    ← Findings.ofRuns_visible, visible_runsFrom_blanks hgap hne, Findings.ofRuns_visible, hstart,
    runsFrom_moved fun read _ => Position.after_behind _ le_rfl read, Findings.ofRuns_moved,
    ← scan_findings]

/-- What is told apart from the places: the tokens, the messages of the warnings, and the code and
the message of the fault. -/
structure Contents where
  tokens : List Token
  warnings : List String
  fault : Option (Option String × String)
deriving DecidableEq

namespace Findings

def contents (file : String) (a : Findings) : Contents where
  tokens := a.tokens.map (·.item)
  warnings := a.warnings.map fun w => (w.item.diagnostic (w.start.inFile file)).message
  fault := a.fault.map fun f =>
    let d := f.item.diagnostic (f.start.inFile file)
    (d.code, d.message)

theorem contents_moved (file : String) (g : Position → Position) (a : Findings) :
    (a.moved g).contents file = a.contents file := by
  obtain ⟨tokens, warnings, fault⟩ := a
  simp only [contents, moved, List.map_map, Option.map_map, Contents.mk.injEq]
  refine ⟨rfl, rfl, ?_⟩
  congr 1
  funext f
  obtain ⟨item, start⟩ := f
  cases item <;> rfl

end Findings

/-- Between a text and another one, any blanks may stand for any others: the tokens are the same,
and so are the messages of the warnings and the fault. The scan of the first text must not come to
its end between quotes. -/
theorem scan_blanks (settings : Settings) (text more gap gap' : List Char)
    (hgap : ∀ x ∈ gap, isBlank x = true) (hne : gap ≠ [])
    (hgap' : ∀ x ∈ gap', isBlank x = true) (hne' : gap' ≠ [])
    (hquotes : ¬ EndsInQuotes settings text) :
    (scan settings (text ++ gap ++ more)).findings.contents settings.file =
      (scan settings (text ++ gap' ++ more)).findings.contents settings.file := by
  let nowhere : Position → Position := fun _ => .start
  have hplaces : ∀ g : Position → Position, nowhere ∘ g = nowhere := fun _ => rfl
  have hmoved : (scan settings (text ++ gap ++ more)).findings.moved nowhere =
      (scan settings (text ++ gap' ++ more)).findings.moved nowhere := by
    rw [findings_at_blanks more hgap hne hquotes, findings_at_blanks more hgap' hne' hquotes,
      Findings.moved_followedBy, Findings.moved_followedBy, Findings.moved_moved,
      Findings.moved_moved, hplaces, hplaces]
  rw [← Findings.contents_moved settings.file nowhere, hmoved, Findings.contents_moved]

theorem scan_blanks_dash :
    let settings : Settings := { strict := true }
    let text := "x=\"q\"-".toList
    let more := "-2 \"o\n.".toList
    ¬ EndsInQuotes settings text ∧
      (scan settings (text ++ "\t\n ".toList ++ more)).findings.contents settings.file =
        (scan settings (text ++ [' '] ++ more)).findings.contents settings.file := by
  intro settings text more
  have hquotes : ¬ EndsInQuotes settings text := by decide +kernel
  have hgap : "\t\n ".toList.all isBlank = true := by decide
  have hgap' : [' '].all isBlank = true := by decide
  exact ⟨hquotes, scan_blanks settings text more _ _ (List.all_eq_true.mp hgap) (by decide)
    (List.all_eq_true.mp hgap') (by decide) hquotes⟩

end ExprLex
