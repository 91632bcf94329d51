import ExprLex.Proofs.Lines
import ExprLex.Proofs.Strictness

/-!
# Lines that end with a carriage return

A carriage return is a blank, so in front of a newline it ends what the newline would have ended,
and the newline is then a run of its own without characters. Between quotes it is a character like
any other: a string that the newline cuts off has the carriage return as its last character. So a
text with a carriage return before each newline scans like the text without them as long as no
string is left open at the end of a line that is not the last.
-/
namespace ExprLex
open Text

/-- The text with something else to end its lines. -/
def Text.endLines (ending text : List Char) : List Char :=
  text.flatMap fun x => if x = '\n' then ending else [x]

theorem Text.endLines_of_not_mem (ending : List Char) {text : List Char} (h : '\n' ∉ text) :
    endLines ending text = text := by
  rw [endLines]
  induction text with
  | nil => rfl
  | cons x text ih =>
    obtain ⟨hx, htext⟩ := not_or.mp (mt List.mem_cons.mpr h)
    rw [List.flatMap_cons, if_neg (Ne.symm hx), ih htext, List.singleton_append]

theorem Text.endLines_newline {line : List Char} (h : '\n' ∉ line) (more : List Char) :
    endLines ['\r', '\n'] (line ++ '\n' :: more) =
      line ++ ['\r'] ++ '\n' :: endLines ['\r', '\n'] more := by
  have hline := endLines_of_not_mem ['\r', '\n'] h
  rw [endLines] at hline
  rw [endLines, List.flatMap_append, hline, List.flatMap_cons, if_pos rfl]
  simp [endLines]

namespace Position

/-- The position once a carriage return stands before each newline. -/
def withReturns (p : Position) : Position := ⟨p.offset + (p.line - 1), p.line, p.column⟩

theorem after_line_part {read : List Char} (h : '\n' ∉ read) (p : Position) :
    p.after read = ⟨p.offset + read.length, p.line, p.column + read.length⟩ := by
  induction read generalizing p with
  | nil => rfl
  | cons x read ih =>
    obtain ⟨hx, hread⟩ := not_or.mp (mt List.mem_cons.mpr h)
    have hnext : p.next x = ⟨p.offset + 1, p.line, p.column + 1⟩ := by
      rw [next, if_neg (Ne.symm hx)]
    rw [after_cons, hnext, ih hread, List.length_cons]
    simp only [mk.injEq, true_and]
    omega

theorem withReturns_line_part {read : List Char} (h : '\n' ∉ read) (p : Position) :
    (p.after read).withReturns = p.withReturns.after read := by
  rw [after_line_part h, after_line_part h]
  simp only [withReturns, mk.injEq, and_true]
  omega

theorem withReturns_line {line : List Char} (h : '\n' ∉ line) {p : Position} (hp : 1 ≤ p.line) :
    (p.after (line ++ ['\n'])).withReturns = p.withReturns.after (line ++ ['\r'] ++ ['\n']) := by
  have hcount : (line ++ ['\r']).count '\n' = 0 := List.count_eq_zero_of_not_mem (by simpa using h)
  rw [after_newline, after_newline, hcount, List.count_eq_zero_of_not_mem h]
  simp only [withReturns, List.length_append, List.length_singleton, mk.injEq, and_true]
  omega

end Position

/-- The run with a carriage return at the end of its text. -/
def Run.withReturn (r : Run) : Run := { r with text := r.text ++ ['\r'] }

/-- The run once a carriage return has been put behind the text, at this offset. -/
def Run.endReturn (stop : Nat) (r : Run) : Run := if r.IsCutOff stop then r.withReturn else r

/-- The run once a carriage return stands before each newline, in a text with so many lines. -/
def Run.keepReturn (lines : Nat) (r : Run) : Run :=
  if r.form = .unclosed ∧ r.start.line ≠ lines then r.withReturn else r

section

variable {symbols : SymbolSet} {fresh : Bool} {start : Position} {text : List Char}

theorem runsFrom_open {tail : List Char} (h : tail.takeWhile Cursor.inQuotes = tail) :
    runsFrom symbols fresh start ('"' :: tail) = [⟨start, .unclosed, tail⟩] := by
  have hquoted : Piece.quoted tail = ⟨.unclosed, tail, []⟩ := by simp [Piece.quoted, h]
  rw [runsFrom_piece (List.cons_ne_nil _ _) (by simp), Piece.first_quote, hquoted]
  simp [Piece.run, Piece.written]

theorem visible_runsFrom_open_return (symbols : SymbolSet) (fresh : Bool) (start : Position)
    {tail : List Char} (h : tail.takeWhile Cursor.inQuotes = tail) :
    visible (runsFrom symbols fresh start ('"' :: tail ++ ['\r'])) =
      (visible (runsFrom symbols fresh start ('"' :: tail))).map
        (Run.endReturn (start.offset + ('"' :: tail).length)) := by
  have h' : (tail ++ ['\r']).takeWhile Cursor.inQuotes = tail ++ ['\r'] := by
    rw [List.takeWhile_eq_self_iff] at h ⊢
    exact List.forall_mem_append.mpr ⟨h, List.forall_mem_singleton.mpr rfl⟩
  have hcut : start.offset + 1 + tail.length = start.offset + ('"' :: tail).length := by
    rw [List.length_cons]
    omega
  rw [List.cons_append, runsFrom_open h, runsFrom_open h']
  simp [visible, Run.isVoid, Run.endReturn, Run.IsCutOff, hcut, Run.withReturn]

theorem visible_runsFrom_return : visible (runsFrom symbols fresh start (text ++ ['\r'])) =
    (visible (runsFrom symbols fresh start text)).map
      (Run.endReturn (start.offset + text.length)) := by
  have hblank : isBlank '\r' = true := rfl
  fun_induction runsFrom symbols fresh start text with
  | case1 fresh start =>
    rw [List.nil_append, visible_runsFrom_blank hblank, runsFrom_nil]
    rfl
  | case2 fresh start rest ih =>
    have hlength : (start.next ' ').offset + rest.length = start.offset + (' ' :: rest).length :=
      Position.after_offset_drop start (List.prefix_append [' '] rest)
    rw [List.cons_append, runsFrom_space, ih, hlength]
  | case3 fresh start x rest hx k ih =>
    have hne : x :: rest ≠ [] := List.cons_ne_nil x rest
    have hhead : (x :: rest).head? ≠ some ' ' := by simpa using hx
    by_cases hopen : (x :: rest).head? = some '"' ∧ Piece.IsOpen symbols fresh (x :: rest)
    · obtain ⟨hquote, hall⟩ := hopen
      obtain rfl : x = '"' := by simpa using hquote
      have hall : rest.takeWhile Cursor.inQuotes = rest := hall
      have hreturn := visible_runsFrom_open_return symbols fresh start hall
      rw [runsFrom_piece hne hhead] at hreturn
      exact hreturn
    · have hnot : ¬ (k.run start).IsCutOff (start.offset + (x :: rest).length) :=
        fun h => hopen (Piece.isOpen_of_isCutOff h)
      have hfirst : (visible [k.run start]).map
          (Run.endReturn (start.offset + (x :: rest).length)) = visible [k.run start] := by
        refine (List.map_congr_left fun r hr => ?_).trans (List.map_id _)
        obtain rfl := List.mem_singleton.mp (List.mem_of_mem_filter hr)
        exact if_neg hnot
      have hlength : (start.after k.written).offset +
          ((x :: rest).drop k.written.length).length = start.offset + (x :: rest).length :=
        Position.after_offset_drop start (Piece.first_written_isPrefix symbols fresh _)
      rw [visible_runsFrom_first_append hne hhead (Piece.stops_of_isBlank hblank)
        fun hquote hall => absurd ⟨hquote, hall⟩ hopen, visible_cons, ih, hlength,
        visible_cons _ (runsFrom _ _ _ ((x :: rest).drop _)), List.map_append, hfirst]

/-- On a line by itself all runs start on that line, and quotes that are not closed are cut off by
its end. -/
theorem mem_runsFrom_line (h : '\n' ∉ text) {r : Run}
    (hr : r ∈ runsFrom symbols fresh start text) :
    r.start.line = start.line ∧
      (r.IsCutOff (start.offset + text.length) ↔ r.form = .unclosed) := by
  obtain ⟨read, rest, now, rfl, hne, rfl⟩ := exists_of_mem_runsFrom hr
  obtain ⟨hread, hrest⟩ := not_or.mp (mt List.mem_append.mpr h)
  refine ⟨?_, fun hcut => hcut.1, fun hform => ?_⟩
  · change (start.after read).line = start.line
    rw [Position.after_line_part hread]
  · have hlength : start.offset + (read ++ rest).length =
        (start.after read).offset + rest.length := by
      rw [Position.after_offset, List.length_append]
      omega
    rw [hlength]
    by_cases hquote : rest.head? = some '"'
    · obtain ⟨tail, rfl⟩ := List.head?_eq_some_iff.mp hquote
      apply Piece.isCutOff_of_isOpen hquote
      obtain ⟨left, hsplit, hends⟩ := Piece.quoted_shape tail
      rcases hends with ⟨hclosed, -⟩ | ⟨-, hclosing | ⟨hclosing, rfl⟩⟩
      · rw [Piece.run, Piece.first_quote, hclosed] at hform
        cases hform
      · refine absurd (List.mem_cons_of_mem '"' ?_) hrest
        rw [← hsplit, hclosing]
        simp
      · rw [hclosing, List.append_nil, List.append_nil] at hsplit
        exact hsplit
    · rw [Piece.run, Piece.first_bare _ _ hquote, Piece.bare_form] at hform
      cases hform

theorem visible_moved (g : Position → Position) (rs : List Run) :
    visible (rs.map (Run.moved g)) = (visible rs).map (Run.moved g) := List.filter_map

theorem visible_keepReturn (lines : Nat) (rs : List Run) :
    visible (rs.map (Run.keepReturn lines)) = (visible rs).map (Run.keepReturn lines) := by
  have hvoid : ∀ r : Run, (r.keepReturn lines).isVoid = r.isVoid := by
    intro r
    rw [Run.keepReturn]
    split
    · rename_i h
      simp [Run.isVoid, Run.withReturn, h.1]
    · rfl
  rw [visible, List.filter_map]
  simp only [Function.comp_def, hvoid]
  rfl

theorem visible_runsFrom_line {line : List Char} (h : '\n' ∉ line) {lines : Nat}
    (hlines : start.line ≠ lines) :
    visible (runsFrom symbols fresh start.withReturns (line ++ ['\r'])) =
      ((visible (runsFrom symbols fresh start line)).map (Run.keepReturn lines)).map
        (Run.moved Position.withReturns) := by
  have hmoved : ∀ read, read <+: line ++ ['\r'] →
      (start.after read).withReturns = start.withReturns.after read := by
    intro read hread
    apply Position.withReturns_line_part
    intro hmem
    have := hread.subset hmem
    simp_all
  rw [runsFrom_moved hmoved, visible_moved, visible_runsFrom_return]
  congr 1
  apply List.map_congr_left
  intro r hr
  obtain ⟨hstart, hcut⟩ := mem_runsFrom_line h (List.mem_of_mem_filter hr)
  simp only [Run.endReturn, Run.keepReturn, hcut, hstart, hlines, ne_eq, not_false_eq_true,
    and_true]

theorem visible_runsFrom_lastLine {line : List Char} (h : '\n' ∉ line) :
    visible (runsFrom symbols fresh start.withReturns line) =
      ((visible (runsFrom symbols fresh start line)).map (Run.keepReturn start.line)).map
        (Run.moved Position.withReturns) := by
  have hmoved : ∀ read, read <+: line →
      (start.after read).withReturns = start.withReturns.after read :=
    fun read hread => Position.withReturns_line_part (fun hmem => h (hread.subset hmem)) start
  have hkeep : (visible (runsFrom symbols fresh start line)).map (Run.keepReturn start.line) =
      visible (runsFrom symbols fresh start line) := by
    refine (List.map_congr_left fun r hr => ?_).trans (List.map_id _)
    have hstart := (mem_runsFrom_line h (List.mem_of_mem_filter hr)).1
    simp [Run.keepReturn, hstart]
  rw [runsFrom_moved hmoved, visible_moved, hkeep]

theorem visible_runsFrom_endLines (hstart : 1 ≤ start.line) :
    visible (runsFrom symbols fresh start.withReturns (endLines ['\r', '\n'] text)) =
      ((visible (runsFrom symbols fresh start text)).map
        (Run.keepReturn (start.line + text.count '\n'))).map (Run.moved Position.withReturns) := by
  induction h : text.length using Nat.strong_induction_on generalizing fresh start text with
  | _ n ih =>
    by_cases hmem : '\n' ∈ text
    · obtain ⟨line, more, rfl, hline⟩ := List.eq_append_cons_of_mem hmem
      have hlength : more.length < n := by
        rw [← h, List.length_append, List.length_cons]
        omega
      have hcount : (line ++ '\n' :: more).count '\n' = 1 + more.count '\n' := by
        rw [List.count_append, List.count_eq_zero_of_not_mem hline, List.count_cons_self]
        omega
      have hnext : (start.after (line ++ ['\n'])).line = start.line + 1 := by
        rw [Position.after_newline, List.count_eq_zero_of_not_mem hline]
      have hlines : start.line ≠ start.line + (1 + more.count '\n') := by omega
      have hbelow : 1 ≤ (start.after (line ++ ['\n'])).line := by omega
      have hmore := @ih more.length hlength true _ more hbelow rfl
      rw [hnext, Position.withReturns_line hline hstart, Nat.add_assoc] at hmore
      rw [hcount, endLines_newline hline, visible_runsFrom_newline, visible_runsFrom_newline,
        visible_runsFrom_line hline hlines, hmore, List.map_append, List.map_append]
    · rw [endLines_of_not_mem _ hmem, List.count_eq_zero_of_not_mem hmem]
      exact visible_runsFrom_lastLine hmem

end

theorem findings_endLines (settings : Settings) (text : List Char) :
    (scan settings (endLines ['\r', '\n'] text)).findings =
      (Findings.ofRuns settings.strict ((runsFrom settings.symbols true .start text).map
        (Run.keepReturn (1 + text.count '\n')))).moved Position.withReturns := by
  have hstart : Position.start = Position.start.withReturns := rfl
  rw [scan_findings, ← Findings.ofRuns_visible]
  conv_lhs => rw [hstart]
  rw [visible_runsFrom_endLines le_rfl, Findings.ofRuns_moved, ← visible_keepReturn,
    Findings.ofRuns_visible]
  rfl

/-- The position by its line and its column alone. -/
def Position.byLine (p : Position) : Position := ⟨0, p.line, p.column⟩

namespace Findings

theorem ofRun_warnings (r : Run) :
    (ofRun false r).warnings =
      if r.form = .unclosed then [⟨⟨String.ofList r.text⟩, r.start⟩] else [] := by
  split
  · rename_i h
    simp [ofRun, (Run.unclosed_lenient h).1]
  · rename_i h
    simp [ofRun, (Run.closed_alike h).2]

theorem followedBy_cancel {a : Findings} (h : a.fault = none) (b c : Findings) :
    a.followedBy b = a.followedBy c ↔ b = c := by
  obtain ⟨tokens, warnings, fault⟩ := b
  obtain ⟨tokens', warnings', fault'⟩ := c
  simp [followedBy_of_no_fault h]

/-- A carriage return that a string has kept is seen in its warning, whatever comes next. -/
theorem withReturn_differs {r : Run} (h : r.form = .unclosed) (g : Position → Position)
    (a b : Findings) : ((ofRun false r.withReturn).followedBy a).moved g ≠
      ((ofRun false r).followedBy b).moved g := by
  have h' : r.withReturn.form = .unclosed := h
  have hfault : (ofRun false r).fault = none := (Run.unclosed_lenient h).2
  have hfault' : (ofRun false r.withReturn).fault = none := (Run.unclosed_lenient h').2
  rw [followedBy_of_no_fault hfault, followedBy_of_no_fault hfault', ofRun_warnings,
    ofRun_warnings, if_pos h, if_pos h']
  intro heq
  have hwarnings := congrArg Findings.warnings heq
  simp only [moved, List.singleton_append, List.map_cons, List.cons.injEq] at hwarnings
  have htext := congrArg (fun w => w.item.text.toList) hwarnings.1
  simp [Placed.moved, Run.withReturn] at htext

theorem ofRuns_keepReturn (g : Position → Position) (lines : Nat) (rs : List Run) :
    (ofRuns false (rs.map (Run.keepReturn lines))).moved g = (ofRuns false rs).moved g ↔
      ∀ w ∈ (ofRuns false rs).warnings, w.start.line = lines := by
  induction rs with
  | nil => exact iff_of_true rfl nofun
  | cons r rs ih =>
    rw [List.map_cons, ofRuns_cons, ofRuns_cons]
    by_cases hkeep : r.form = .unclosed ∧ r.start.line ≠ lines
    · obtain ⟨hform, hline⟩ := id hkeep
      rw [Run.keepReturn, if_pos hkeep]
      refine iff_of_false (withReturn_differs hform g _ _) fun hall => hline ?_
      apply hall ⟨⟨String.ofList r.text⟩, r.start⟩
      rw [followedBy_of_no_fault (Run.unclosed_lenient hform).2, ofRun_warnings, if_pos hform]
      exact List.mem_cons_self
    · have hwarnings : ∀ w ∈ (ofRun false r).warnings, w.start.line = lines := by
        rw [ofRun_warnings]
        split
        · rename_i hform
          simpa [hform] using hkeep
        · exact nofun
      rw [Run.keepReturn, if_neg hkeep]
      cases hfault : (ofRun false r).fault with
      | some f =>
        -- nothing is found behind a fault
        have hstop : ∀ rest, (ofRun false r).followedBy rest = ofRun false r := by
          intro rest
          rw [followedBy, hfault]
        rw [hstop, hstop]
        exact iff_of_true rfl hwarnings
      | none =>
        have hfault' : ((ofRun false r).moved g).fault = none := by rw [moved, hfault]; rfl
        rw [moved_followedBy, moved_followedBy, followedBy_cancel hfault', ih,
          followedBy_of_no_fault hfault, List.forall_mem_append]
        exact (and_iff_right hwarnings).symm

end Findings

/-- What is found when every newline has a carriage return before it: the same, except that a
string which a newline cuts off keeps the carriage return. So a lenient scan finds the same on the
same lines and columns exactly if no warning is about a string on a line before the last. -/
theorem scan_endLines (settings : Settings) (text : List Char) :
    let lines := 1 + text.count '\n'
    let returned := (scan settings (endLines ['\r', '\n'] text)).findings
    returned = (Findings.ofRuns settings.strict ((runsFrom settings.symbols true .start text).map
      (Run.keepReturn lines))).moved Position.withReturns ∧
    (settings.strict = false →
      (returned.moved Position.byLine = (scan settings text).findings.moved Position.byLine ↔
        ∀ w ∈ (scan settings text).session.warnings.toList, w.start.line = lines)) := by
  intro lines returned
  have hreturned := findings_endLines settings text
  refine ⟨hreturned, fun hlenient => ?_⟩
  have hplaces : Position.byLine ∘ Position.withReturns = Position.byLine := rfl
  have hwarnings : (scan settings text).session.warnings.toList =
      (scan settings text).findings.warnings := rfl
  rw [hwarnings]
  simp only [returned]
  rw [hreturned, Findings.moved_moved, hplaces, scan_findings, hlenient]
  exact Findings.ofRuns_keepReturn _ _ _

theorem scan_endLines_closed :
    let text := "a=\"b\"\n\"\"-1\n\"c".toList
    Settings.standard.strict = false ∧
      (scan .standard (endLines ['\r', '\n'] text)).findings.moved Position.byLine =
        (scan .standard text).findings.moved Position.byLine := by
  intro text
  have hlenient : Settings.standard.strict = false := rfl
  have hwarnings : ∀ w ∈ (scan .standard text).session.warnings.toList,
      w.start.line = 1 + text.count '\n' := by decide +kernel
  exact ⟨hlenient, ((scan_endLines .standard text).2 hlenient).mpr hwarnings⟩

/-- Behind a quote that is not closed on its line, a carriage return does not go unnoticed. -/
theorem scan_endLines_open :
    let text := "\"a\n".toList
    '\r' ∉ text ∧ Settings.standard.strict = false ∧
      (scan .standard (endLines ['\r', '\n'] text)).findings.moved Position.byLine ≠
        (scan .standard text).findings.moved Position.byLine := by
  refine ⟨by decide, rfl, fun heq => ?_⟩
  have htokens := congrArg Findings.tokens heq
  revert htokens
  decide +kernel

end ExprLex
