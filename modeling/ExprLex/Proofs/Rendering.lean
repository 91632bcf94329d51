import ExprLex.Proofs.Dump
import ExprLex.Proofs.Listing

/-!
# Diagnostics as lines

The text of a diagnostic is a block of lines: a heading, and below it, indented, its place and what
may be done about it. What a scan finds wrong is told in a fixed number of lines, since no text that
it quotes has a newline, whatever else it may have. So texts of diagnostics can be put one behind
another and told apart again, because a line that is not indented begins the next one. Of each, the
code, the message and the place are read back: a file's name may have colons, as the line and the
column are behind the last two.
-/
namespace ExprLex
open Text

namespace Text

/-- A text divided at the last such character. -/
def cutAtLast (c : Char) (text : List Char) : List Char × List Char :=
  let (behind, before) := cutAt c text.reverse
  (before.reverse, behind.reverse)

theorem cutAtLast_append {c : Char} {a rest : List Char} (h : c ∉ rest) :
    cutAtLast c (a ++ c :: rest) = (a, rest) := by
  have hreverse : (a ++ c :: rest).reverse = rest.reverse ++ c :: a.reverse := by simp
  have hcut : cutAt c (a ++ c :: rest).reverse = (rest.reverse, a.reverse) := by
    rw [hreverse, cutAt_append (by simpa using h)]
  simp only [cutAtLast, hcut, List.reverse_reverse]

/-- Lines with a newline at the end of each. -/
def ended (lines : List (List Char)) : List Char := lines.flatMap (· ++ ['\n'])

theorem ended_cons (line : List Char) (lines : List (List Char)) :
    ended (line :: lines) = line ++ '\n' :: ended lines := by
  simp [ended]

theorem ended_append (a b : List (List Char)) : ended (a ++ b) = ended a ++ ended b :=
  List.flatMap_append

/-- Behind the last newline there is nothing. -/
theorem splitOn_ended {lines : List (List Char)} (h : ∀ l ∈ lines, '\n' ∉ l) :
    (ended lines).splitOn '\n' = lines ++ [[]] := by
  induction lines with
  | nil => rfl
  | cons line lines ih =>
    obtain ⟨hline, hlines⟩ := List.forall_mem_cons.mp h
    rw [ended_cons, List.splitOn_append_cons_self_of_not_mem hline, ih hlines]
    rfl

/-- The text consists of this many lines, each of them ended by a newline. -/
def HasLines (text : String) (count : Nat) : Prop :=
  ∃ lines : List (List Char), text.toList = ended lines ∧ lines.length = count ∧
    ∀ l ∈ lines, '\n' ∉ l

def isIndented (line : List Char) : Bool := line.head? = some ' '

/-- The lines of a text in blocks, each from a line that is not indented up to the next. -/
def blocks (text : String) : List (List (List Char)) :=
  (text.toList.splitOn '\n').dropLast.splitBy fun _ next => isIndented next

/-- A line that is not indented, with lines below it that are, and none of them broken. -/
structure IsBlock (lines : List (List Char)) : Prop where
  unbroken : ∀ l ∈ lines, '\n' ∉ l
  layout : ∃ heading below, lines = heading :: below ∧ isIndented heading = false ∧
    ∀ l ∈ below, isIndented l = true

theorem IsBlock.head_not_indented {lines : List (List Char)} (h : IsBlock lines) :
    ∃ hne : lines ≠ [], isIndented (lines.head hne) = false := by
  obtain ⟨heading, below, rfl, hheading, -⟩ := h.layout
  exact ⟨List.cons_ne_nil _ _, hheading⟩

theorem IsBlock.isChain {lines : List (List Char)} (h : IsBlock lines) :
    lines.IsChain fun _ next => isIndented next = true := by
  obtain ⟨heading, below, rfl, -, hbelow⟩ := h.layout
  exact (List.pairwise_cons.mpr
    ⟨hbelow, List.pairwise_of_forall_mem_list fun _ _ l hl => hbelow l hl⟩).isChain

/-- Blocks that follow one another are told apart. -/
theorem blocks_of_ended {text : String} {bs : List (List (List Char))}
    (h : ∀ b ∈ bs, IsBlock b) (htext : text.toList = bs.flatMap ended) : blocks text = bs := by
  have hlines : ∀ l ∈ bs.flatten, '\n' ∉ l := by
    intro l hl
    obtain ⟨b, hb, hmem⟩ := List.mem_flatten.mp hl
    exact (h b hb).unbroken l hmem
  have hended : text.toList = ended bs.flatten := by
    rw [htext, ended, List.flatten_eq_flatMap, List.flatMap_assoc]
    rfl
  have hne : [] ∉ bs := fun hmem => (h [] hmem).head_not_indented.1 rfl
  have hturns : bs.IsChain fun a b => ∃ ha hb,
      (fun _ next => isIndented next) (a.getLast ha) (b.head hb) = false := by
    refine (List.pairwise_of_forall_mem_list fun a ha b hb => ?_).isChain
    obtain ⟨hbne, hhead⟩ := (h b hb).head_not_indented
    exact ⟨ne_of_mem_of_not_mem ha hne, hbne, hhead⟩
  rw [blocks, hended, splitOn_ended hlines, List.dropLast_concat]
  exact List.splitBy_flatten hne (fun b hb => (h b hb).isChain) hturns

end Text

namespace Diagnostic

def heading (d : Diagnostic) : String :=
  Text.upper d.severity.label ++ d.codePart ++ ": " ++ d.message

def placeLine (d : Diagnostic) : String := "  --> " ++ Location.textOf d.location

def helpLines (d : Diagnostic) : List String :=
  match d.help with
  | some help => if help = "" then [] else ["  help: " ++ help]
  | none => []

def suggestionLines (d : Diagnostic) : List String :=
  match d.suggestions with
  | none => []
  | some [] => []
  | some items => "  suggestions:" :: items.map ("    - " ++ ·)

def lines (d : Diagnostic) : List (List Char) :=
  (d.heading :: d.placeLine :: (d.helpLines ++ d.suggestionLines)).map String.toList

theorem helpPart_toList (d : Diagnostic) :
    d.helpPart.toList = ended (d.helpLines.map String.toList) := by
  cases hhelp : d.help with
  | none => simp [helpPart, helpLines, hhelp, ended]
  | some help =>
    by_cases hnil : help = "" <;> simp [helpPart, helpLines, hhelp, hnil, ended]

theorem suggestionsPart_toList (d : Diagnostic) :
    d.suggestionsPart.toList = ended (d.suggestionLines.map String.toList) := by
  have hitems : ∀ (items : List String) (sofar : String),
      (items.foldl (fun text item => text ++ "    - " ++ item ++ "\n") sofar).toList =
        sofar.toList ++ ended ((items.map ("    - " ++ ·)).map String.toList) := by
    intro items
    induction items with
    | nil => simp [ended]
    | cons item items ih =>
      intro sofar
      rw [List.foldl_cons, ih]
      simp [ended_cons]
  cases hsome : d.suggestions with
  | none => simp [suggestionsPart, suggestionLines, hsome, ended]
  | some items =>
    cases items with
    | nil => simp [suggestionsPart, suggestionLines, hsome, ended]
    | cons item items =>
      simp only [suggestionsPart, suggestionLines, hsome, hitems, List.map_cons, ended_cons]
      rfl

/-- A diagnostic is written as its lines. -/
theorem text_toList (d : Diagnostic) : d.text.toList = ended d.lines := by
  simp only [text, String.toList_append, helpPart_toList, suggestionsPart_toList, lines,
    List.map_cons, List.map_append, ended_cons, ended_append]
  simp [heading, placeLine]

/-- A diagnostic as scans give them: an error or a warning with a code and a place, and without a
newline in the message, the name of the file or the advice. -/
structure IsClear (d : Diagnostic) : Prop where
  severity : d.severity = .error ∨ d.severity = .warning
  code : ∃ m : Mistake, d.code = some m.code
  message : '\n' ∉ d.message.toList
  location : ∃ l, d.location = some l ∧ '\n' ∉ l.file.toList
  help : ∀ help ∈ d.help, '\n' ∉ help.toList
  suggestions : ∀ items ∈ d.suggestions, ∀ item ∈ items, '\n' ∉ item.toList

/-- What is read back. The offset is not written. -/
structure Summary where
  code : Option String
  message : String
  file : Option String
  line : Option Int
  column : Option Int
deriving DecidableEq

def summary (d : Diagnostic) : Summary where
  code := d.code
  message := d.message
  file := d.location.map Location.file
  line := d.location.map Location.line
  column := d.location.map Location.column

/-- The code is in the brackets of the heading and the message behind them; the line and the column
are behind the last two colons of the next line. -/
def Summary.ofBlock : List (List Char) → Option Summary
  | heading :: place :: _ =>
    let (code, message) := cutAt ']' (cutAt '[' heading).2
    let (front, column) := cutAtLast ':' (place.drop "  --> ".length)
    let (file, line) := cutAtLast ':' front
    some
      { code := String.ofList code
        message := String.ofList (message.drop ": ".length)
        file := String.ofList file
        line := (String.ofList line).toInt?
        column := (String.ofList column).toInt? }
  | _ => none

def summaries (text : String) : List Summary := (blocks text).filterMap Summary.ofBlock

section

variable {d : Diagnostic}

theorem upper_label (h : d.severity = .error ∨ d.severity = .warning) :
    upper d.severity.label = "ERROR" ∨ upper d.severity.label = "WARNING" := by
  rcases h with h | h <;> rw [h]
  · exact .inl (by decide +kernel)
  · exact .inr (by decide +kernel)

theorem IsClear.heading_toList (h : d.IsClear) : ∃ (label : String) (m : Mistake),
    (label = "ERROR" ∨ label = "WARNING") ∧ d.code = some m.code ∧ d.heading.toList =
      label.toList ++ '[' :: (m.code.toList ++ ']' :: ':' :: ' ' :: d.message.toList) := by
  obtain ⟨m, hcode⟩ := h.code
  refine ⟨_, m, upper_label h.severity, hcode, ?_⟩
  have hpart : d.codePart = "[" ++ m.code ++ "]" := by
    rw [codePart, hcode]
    cases m <;> rfl
  simp [heading, hpart]

theorem placeLine_toList {l : Location} (h : d.location = some l) : d.placeLine.toList =
    "  --> ".toList ++ ((l.file.toList ++ ':' :: (toString l.line).toList) ++
      ':' :: (toString l.column).toList) := by
  simp [placeLine, h, Location.textOf, Location.text]

theorem IsClear.summary_lines (h : d.IsClear) : Summary.ofBlock d.lines = some d.summary := by
  obtain ⟨label, m, hlabel, hcode, hheading⟩ := h.heading_toList
  obtain ⟨l, hl, -⟩ := h.location
  have hbracket : '[' ∉ label.toList := by
    rcases hlabel with rfl | rfl <;> decide
  have hclosing : ']' ∉ m.code.toList := by
    cases m <;> decide
  have hcolon : ∀ n : Int, ':' ∉ (toString n).toList := not_mem_toList_int rfl (by decide)
  have hnumber : ∀ n : Int, (toString n).toInt? = some n := Int.toInt?_repr
  have hdrop : d.placeLine.toList.drop "  --> ".length =
      (l.file.toList ++ ':' :: (toString l.line).toList) ++ ':' :: (toString l.column).toList := by
    rw [placeLine_toList hl]
    exact List.drop_left
  have hmessage : (':' :: ' ' :: d.message.toList).drop ": ".length = d.message.toList := rfl
  simp only [lines, List.map_cons, Summary.ofBlock, hheading, hdrop, hmessage,
    cutAt_append hbracket, cutAt_append hclosing, cutAtLast_append (hcolon _),
    String.ofList_toList, hnumber]
  simp [summary, hl, hcode]

/-- What stands below a heading: an indented line. -/
theorem below_of_mark {mark text : String} (hindented : isIndented mark.toList = true)
    (hmark : '\n' ∉ mark.toList) (h : '\n' ∉ text.toList) :
    isIndented (mark ++ text).toList = true ∧ '\n' ∉ (mark ++ text).toList := by
  simp_all [isIndented, String.toList_append, List.head?_append]

theorem IsClear.below (h : d.IsClear) :
    ∀ line ∈ d.placeLine :: (d.helpLines ++ d.suggestionLines),
      isIndented line.toList = true ∧ '\n' ∉ line.toList := by
  obtain ⟨l, hl, hfile⟩ := h.location
  have hnumber : ∀ n : Int, '\n' ∉ (toString n).toList := not_mem_toList_int rfl (by decide)
  have hplace : '\n' ∉ (Location.textOf d.location).toList := by
    simpa [hl, Location.textOf, Location.text, hfile] using ⟨hnumber l.line, hnumber l.column⟩
  intro line hline
  rcases List.mem_cons.mp hline with rfl | hline
  · exact below_of_mark (by decide) (by decide) hplace
  rcases List.mem_append.mp hline with hline | hline
  · cases hhelp : d.help with
    | none => simp [helpLines, hhelp] at hline
    | some help =>
      obtain ⟨-, rfl⟩ : help ≠ "" ∧ line = "  help: " ++ help := by
        simpa [helpLines, hhelp] using hline
      exact below_of_mark (by decide) (by decide) (h.help help hhelp)
  · cases hsome : d.suggestions with
    | none => simp [suggestionLines, hsome] at hline
    | some items =>
      obtain rfl | ⟨item, hitem, rfl⟩ :
          line = "  suggestions:" ∨ ∃ item ∈ items, "    - " ++ item = line := by
        cases items with
        | nil => simp [suggestionLines, hsome] at hline
        | cons => simpa [suggestionLines, hsome, eq_comm] using hline
      · decide
      · exact below_of_mark (by decide) (by decide) (h.suggestions items hsome item hitem)

theorem IsClear.isBlock (h : d.IsClear) : IsBlock d.lines := by
  obtain ⟨label, m, hlabel, -, hheading⟩ := h.heading_toList
  have hbelow : ∀ l ∈ (d.placeLine :: (d.helpLines ++ d.suggestionLines)).map String.toList,
      isIndented l = true ∧ '\n' ∉ l := by
    intro l hl
    obtain ⟨line, hline, rfl⟩ := List.mem_map.mp hl
    exact h.below line hline
  have hcode : '\n' ∉ m.code.toList := by
    cases m <;> decide
  refine ⟨List.forall_mem_cons.mpr ⟨?_, fun l hl => (hbelow l hl).2⟩, _, _, rfl, ?_,
    fun l hl => (hbelow l hl).1⟩
  · rw [hheading]
    rcases hlabel with rfl | rfl <;> simp [hcode, h.message]
  · rw [hheading]
    rcases hlabel with rfl | rfl <;> rfl

theorem IsClear.hasLines (h : d.IsClear) : HasLines d.text d.lines.length :=
  ⟨d.lines, d.text_toList, rfl, h.isBlock.unbroken⟩

/-- Of diagnostics that are written one behind another, each is read back. -/
theorem summaries_join {ds : List Diagnostic} (h : ∀ d ∈ ds, d.IsClear) :
    summaries (String.join (ds.map text)) = ds.map summary := by
  have hblocks : blocks (String.join (ds.map text)) = ds.map lines := by
    apply blocks_of_ended
    · intro b hb
      obtain ⟨d, hd, rfl⟩ := List.mem_map.mp hb
      exact (h d hd).isBlock
    · rw [String.toList_join, List.flatMap_map, List.flatMap_map]
      exact List.flatMap_congr fun d _ => d.text_toList
  rw [summaries, hblocks, List.filterMap_map, ← List.filterMap_eq_map]
  exact List.filterMap_congr fun d hd => (h d hd).summary_lines

end

/-- A fault that pulls bring up from some text, in a file whose name has no newline. -/
def IsRaised (d : Diagnostic) : Prop :=
  ∃ settings text f, '\n' ∉ settings.file.toList ∧
    .fault f ∈ (Session.ofText settings text).outcomes.1 ∧
    d = f.item.diagnostic (f.start.inFile settings.file)

/-- A warning that pulls leave behind, in a file whose name has no newline. -/
def IsRecorded (d : Diagnostic) : Prop :=
  ∃ settings text w, '\n' ∉ settings.file.toList ∧
    w ∈ (Session.ofText settings text).outcomes.2.warnings.toList ∧
    d = w.item.diagnostic (w.start.inFile settings.file)

end Diagnostic

theorem Fault.isClear_diagnostic {f : Fault} {l : Location} (hfile : '\n' ∉ l.file.toList)
    (h : '\n' ∉ f.text.toList) : (f.diagnostic l).IsClear := by
  cases f with
  | openString text =>
    refine ⟨.inl rfl, ⟨_, rfl⟩, ?_, ⟨l, rfl, hfile⟩, ?_, ?_⟩ <;>
      simp_all [Fault.text, diagnostic, Diagnostic.openStringError, Diagnostic.openStringMessage,
        Mistake.title]
  | digitlessNumeral text =>
    refine ⟨.inl rfl, ⟨_, rfl⟩, ?_, ⟨l, rfl, hfile⟩, ?_, ?_⟩ <;>
      simp_all [Fault.text, diagnostic, Diagnostic.numeralError, Mistake.title]

theorem Warning.isClear_diagnostic {w : Warning} {l : Location} (hfile : '\n' ∉ l.file.toList)
    (h : '\n' ∉ w.text.toList) : (w.diagnostic l).IsClear := by
  refine ⟨.inr rfl, ⟨_, rfl⟩, ?_, ⟨l, rfl, hfile⟩, ?_, ?_⟩ <;>
    simp_all [diagnostic, Diagnostic.openStringWarning, Diagnostic.openStringMessage, Mistake.title]

theorem Fault.lines_length (f : Fault) (l : Location) : (f.diagnostic l).lines.length = 5 := by
  cases f <;> rfl

theorem Warning.lines_length (w : Warning) (l : Location) : (w.diagnostic l).lines.length = 3 :=
  rfl

section

variable {s : Session} {text : List Char} {r : Run} {strict : Bool}

theorem Session.Sound.unbroken (h : s.Sound text) (hr : r ∈ s.runs) (hform : r.form ≠ .bare) :
    '\n' ∉ r.text := by
  obtain ⟨-, -, hchars, -⟩ := h.quoted hr hform
  exact fun hmem => (hchars _ hmem).2 rfl

theorem Session.Sound.unbroken_of_offends (h : s.Sound text) (hr : r ∈ s.runs)
    (hoffends : r.Offends strict) : '\n' ∉ r.text := by
  rcases hoffends with ⟨-, htext | htext⟩ | ⟨hform, -⟩
  · simp [htext]
  · simp [htext]
  · exact h.unbroken hr (by simp [hform])

end

namespace Diagnostic

variable {d : Diagnostic}

theorem IsRaised.exists_fault (h : d.IsRaised) : ∃ (f : Fault) (l : Location),
    '\n' ∉ f.text.toList ∧ '\n' ∉ l.file.toList ∧ d = f.diagnostic l := by
  obtain ⟨settings, text, f, hfile, hmem, rfl⟩ := h
  refine ⟨f.item, f.start.inFile settings.file, ?_, hfile, rfl⟩
  rw [(Session.outcomes_eq _).1, List.mem_filterMap] at hmem
  obtain ⟨r, hr, houtcome⟩ := hmem
  have hoffends := Run.offends_of_fault houtcome
  obtain rfl : ⟨r.offence, r.start⟩ = f := by simpa [hoffends.outcome?] using houtcome
  rw [Run.text_offence, String.toList_ofList]
  exact (Session.ofText_sound settings text).unbroken_of_offends hr hoffends

theorem IsRecorded.exists_warning (h : d.IsRecorded) : ∃ (w : Warning) (l : Location),
    '\n' ∉ w.text.toList ∧ '\n' ∉ l.file.toList ∧ d = w.diagnostic l := by
  obtain ⟨settings, text, w, hfile, hmem, rfl⟩ := h
  refine ⟨w.item, w.start.inFile settings.file, ?_, hfile, rfl⟩
  rw [(Session.outcomes_eq _).2.1.warnings] at hmem
  obtain ⟨r, hr, hnotice⟩ := List.mem_filterMap.mp hmem
  obtain ⟨⟨hform, -⟩, rfl⟩ := Run.notice?_eq_some_iff.mp hnotice
  rw [String.toList_ofList]
  exact (Session.ofText_sound settings text).unbroken hr (by simp [hform])

theorem IsRaised.clear_five (h : d.IsRaised) : d.IsClear ∧ d.lines.length = 5 := by
  obtain ⟨f, l, htext, hfile, rfl⟩ := h.exists_fault
  exact ⟨f.isClear_diagnostic hfile htext, f.lines_length l⟩

theorem IsRecorded.clear_three (h : d.IsRecorded) : d.IsClear ∧ d.lines.length = 3 := by
  obtain ⟨w, l, htext, hfile, rfl⟩ := h.exists_warning
  exact ⟨w.isClear_diagnostic hfile htext, w.lines_length l⟩

section

variable {settings : Settings} {text : List Char} (hfile : '\n' ∉ settings.file.toList)
include hfile

theorem isRaised_of_scan {f : Placed Fault} (hf : (scan settings text).fault = some f) :
    (f.item.diagnostic (f.start.inFile settings.file)).IsRaised := by
  obtain ⟨r, hr, hoffends, rfl⟩ := exists_offender_of_scan hf
  refine ⟨settings, text, _, hfile, ?_, rfl⟩
  rw [(Session.outcomes_eq _).1]
  exact List.mem_filterMap.mpr ⟨r, hr, hoffends.outcome?⟩

theorem isRecorded_of_scan {w : Placed Warning}
    (hw : w ∈ (scan settings text).session.warnings.toList) :
    (w.item.diagnostic (w.start.inFile settings.file)).IsRecorded := by
  obtain ⟨r, hr, hnotice⟩ := exists_notice_of_scan hw
  refine ⟨settings, text, w, hfile, ?_, rfl⟩
  rw [(Session.outcomes_eq _).2.1.warnings]
  exact List.mem_filterMap.mpr ⟨r, hr, hnotice⟩

end

/-- Every fault is told in five lines and every warning in three, as no message has a newline; this
goes for the fault that stops a scan and for the warnings up to it. Written one behind another, in
any order and from any texts, they tell their codes and messages, and the file, the line and the
column of each. -/
theorem diagnostics_read_back :
    (∀ settings text, '\n' ∉ settings.file.toList →
      (∀ f ∈ (scan settings text).fault,
        (f.item.diagnostic (f.start.inFile settings.file)).IsRaised) ∧
      ∀ w ∈ (scan settings text).session.warnings.toList,
        (w.item.diagnostic (w.start.inFile settings.file)).IsRecorded) ∧
    (∀ d : Diagnostic, d.IsRaised → '\n' ∉ d.message.toList ∧ HasLines d.text 5) ∧
    (∀ d : Diagnostic, d.IsRecorded → '\n' ∉ d.message.toList ∧ HasLines d.text 3) ∧
    ∀ ds : List Diagnostic, (∀ d ∈ ds, d.IsRaised ∨ d.IsRecorded) →
      summaries (String.join (ds.map text)) = ds.map summary := by
  refine ⟨fun settings text hfile => ⟨fun f hf => ?_, fun w hw => ?_⟩, fun d hd => ?_,
    fun d hd => ?_, fun ds hds => summaries_join fun d hd => ?_⟩
  · exact isRaised_of_scan hfile hf
  · exact isRecorded_of_scan hfile hw
  · obtain ⟨hclear, hlength⟩ := hd.clear_five
    exact ⟨hclear.message, hlength ▸ hclear.hasLines⟩
  · obtain ⟨hclear, hlength⟩ := hd.clear_three
    exact ⟨hclear.message, hlength ▸ hclear.hasLines⟩
  · rcases hds d hd with hraised | hrecorded
    · exact hraised.clear_five.1
    · exact hrecorded.clear_three.1

/-- A file's name with colons, and a string that reads like a diagnostic. -/
theorem diagnostics_read_back_colons :
    let file := "c:7:1"
    let warned : Diagnostic :=
      .openStringWarning "]: \r  --> x:1:1\tERROR[L003]:" (some ⟨file, 2, 4, 6⟩)
    let refused : Diagnostic :=
      .numeralError "-." "A numeric literal needs at least one digit." (some ⟨file, 1, 1, 0⟩)
    warned.IsRecorded ∧ refused.IsRaised ∧ HasLines warned.text 3 ∧ HasLines refused.text 5 ∧
      summaries (String.join [warned.text, refused.text, warned.text]) =
        [warned.summary, refused.summary, warned.summary] := by
  intro file warned refused
  have hfile : '\n' ∉ file.toList := by decide
  have hwarned : warned.IsRecorded :=
    ⟨{ strict := false, file := file }, "-.\nab \"]: \r  --> x:1:1\tERROR[L003]:".toList,
      ⟨⟨"]: \r  --> x:1:1\tERROR[L003]:"⟩, ⟨6, 2, 4⟩⟩, hfile, by decide +kernel, rfl⟩
  have hrefused : refused.IsRaised :=
    ⟨{ strict := true, file := file }, "-.".toList,
      ⟨.digitlessNumeral "-.", ⟨0, 1, 1⟩⟩, hfile, by decide +kernel, rfl⟩
  obtain ⟨-, hraised, hrecorded, hlist⟩ := diagnostics_read_back
  refine ⟨hwarned, hrefused, (hrecorded _ hwarned).2, (hraised _ hrefused).2, ?_⟩
  exact hlist [warned, refused, warned] (by simp [hwarned, hrefused])

end Diagnostic
end ExprLex
