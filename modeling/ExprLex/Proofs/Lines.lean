import ExprLex.Proofs.Continuation
import ExprLex.Proofs.Findings

/-!
# Lines

A newline ends whatever is being read, and behind it everything begins anew. So the runs of a text
are those of its lines, except that a newline which nothing consumes is a run of its own without
characters, and what a scan finds in a text is what it finds in the lines one after another, each
line further down and further on.
-/
namespace ExprLex
open Text

/-- A blank that nothing else consumes. -/
def Run.isVoid (r : Run) : Bool := r.form = .bare && r.text.isEmpty

/-- The runs that can have an outcome or a warning. -/
def visible (rs : List Run) : List Run := rs.filter (!·.isVoid)

theorem visible_cons_of_isVoid {r : Run} (rs : List Run) (h : r.isVoid = true) :
    visible (r :: rs) = visible rs := by simp [visible, h]

theorem visible_cons (r : Run) (rs : List Run) : visible (r :: rs) = visible [r] ++ visible rs :=
  List.filter_append [r] rs

theorem Findings.ofRun_isVoid {strict : Bool} {r : Run} (h : r.isVoid = true) :
    ofRun strict r = empty := by
  obtain ⟨start, form, text⟩ := r
  simp only [Run.isVoid, Bool.and_eq_true, decide_eq_true_eq, List.isEmpty_iff] at h
  obtain ⟨rfl, rfl⟩ := h
  rfl

theorem Findings.ofRuns_visible (strict : Bool) (rs : List Run) :
    ofRuns strict (visible rs) = ofRuns strict rs := by
  induction rs with
  | nil => rfl
  | cons r rs ih =>
    cases h : r.isVoid with
    | true => rw [visible_cons_of_isVoid rs h, ih, ofRuns_cons, ofRun_isVoid h, empty_followedBy]
    | false =>
      have hcons : visible (r :: rs) = r :: visible rs := by simp [visible, h]
      rw [hcons, ofRuns_cons, ih, ofRuns_cons]

/-- The run is text between quotes that the end of the text, at this offset, has cut off: neither a
quote nor a newline ends it. -/
def Run.IsCutOff (stop : Nat) (r : Run) : Prop :=
  r.form = .unclosed ∧ r.start.offset + 1 + r.text.length = stop

instance (stop : Nat) : DecidablePred (Run.IsCutOff stop) :=
  fun _ => inferInstanceAs (Decidable (_ ∧ _))

section

variable {symbols : SymbolSet} {fresh : Bool} {start : Position} {text more : List Char}

theorem Piece.isCutOff_of_isOpen (hquote : text.head? = some '"')
    (hopen : IsOpen symbols fresh text) (start : Position) :
    ((first symbols fresh text).run start).IsCutOff (start.offset + text.length) := by
  obtain ⟨rest, rfl⟩ : ∃ rest, text = '"' :: rest := List.head?_eq_some_iff.mp hquote
  have hall : rest.takeWhile Cursor.inQuotes = rest := hopen
  simp only [Run.IsCutOff, Piece.run, first_quote, quoted, hall, List.drop_length]
  refine ⟨rfl, ?_⟩
  rw [List.length_cons]
  omega

theorem Piece.isOpen_of_isCutOff
    (h : ((first symbols fresh text).run start).IsCutOff (start.offset + text.length)) :
    text.head? = some '"' ∧ IsOpen symbols fresh text := by
  by_cases hquote : text.head? = some '"'
  · obtain ⟨rest, rfl⟩ : ∃ rest, text = '"' :: rest := List.head?_eq_some_iff.mp hquote
    have hlength : start.offset + 1 + (rest.takeWhile Cursor.inQuotes).length =
        start.offset + ('"' :: rest).length := h.2
    rw [List.length_cons] at hlength
    have hall : rest.takeWhile Cursor.inQuotes = rest :=
      (List.takeWhile_prefix _).eq_of_length (by omega)
    exact ⟨hquote, hall⟩
  · have hform := h.1
    rw [first_bare symbols fresh hquote, run, bare_form] at hform
    cases hform

theorem visible_runsFrom_blank {x : Char} (hx : isBlank x = true) :
    visible (runsFrom symbols fresh start (x :: more)) =
      visible (runsFrom symbols true (start.next x) more) := by
  by_cases hs : x = ' '
  · rw [hs, runsFrom_space]
  · have hhead : (x :: more).head? ≠ some ' ' := by simpa using hs
    have hquote : (x :: more).head? ≠ some '"' := by
      simp only [List.head?_cons, ne_eq, Option.some.injEq]
      rintro rfl
      cases hx
    have hfirst : Piece.first symbols fresh (x :: more) = ⟨.bare, [], [x]⟩ := by
      rw [Piece.first_bare _ _ hquote, Piece.bare_of_block_nil (Piece.block_blank hx), if_pos hx]
    rw [runsFrom_piece (List.cons_ne_nil x more) hhead, hfirst, visible_cons_of_isVoid _ rfl]
    simp [Piece.written, freshAfter, hx]

/-- Whether a blank is consumed with the run before it or not makes no difference behind it. -/
theorem visible_runsFrom_closing :
    visible (runsFrom symbols (freshAfter symbols fresh (Piece.closingBlank more))
        (start.after (Piece.closingBlank more)) (more.drop (Piece.closingBlank more).length)) =
      visible (runsFrom symbols fresh start more) := by
  cases more with
  | nil => rfl
  | cons x more =>
    cases hx : isBlank x with
    | false => simp [Piece.closingBlank, hx]
    | true =>
      rw [visible_runsFrom_blank hx]
      simp [Piece.closingBlank, hx, freshAfter]

/-- With more behind a text its first run stays as it is, and the text goes on behind this run. -/
theorem visible_runsFrom_first_append (hne : text ≠ []) (hhead : text.head? ≠ some ' ')
    (hstop : Piece.Stops symbols text more)
    (hcut : text.head? = some '"' → Piece.IsOpen symbols fresh text → more.head? = some '\n') :
    let k := Piece.first symbols fresh text
    visible (runsFrom symbols fresh start (text ++ more)) =
      visible (k.run start :: runsFrom symbols (freshAfter symbols fresh k.written)
        (start.after k.written) (text.drop k.written.length ++ more)) := by
  intro k
  have hhead' : (text ++ more).head? ≠ some ' ' := by
    rwa [List.head?_append_of_ne_nil _ hne]
  rw [runsFrom_piece (List.append_ne_nil_of_left_ne_nil hne more) hhead',
    Piece.first_append hne hstop hcut]
  by_cases hopen : Piece.IsOpen symbols fresh text
  · obtain ⟨hclosing, hwritten⟩ := Piece.written_of_isOpen hne hopen
    have hend : text.drop k.written.length = [] := by simp [k, hwritten]
    rw [if_pos hopen, Piece.written_with_closing hclosing, List.length_append, ← List.drop_drop,
      hend, freshAfter_append, Position.after_append, hwritten, List.drop_left, List.nil_append]
    rw [visible_cons, visible_runsFrom_closing, ← visible_cons]
    rfl
  · have hle := (Piece.first_written_isPrefix symbols fresh text).length_le
    rw [if_neg hopen, List.drop_append_of_le_length hle]

/-- The runs of a text with more behind it are those of the text by itself and then those of the
rest, provided that the rest stops a run that the text ends with. -/
theorem visible_runsFrom_append (hstop : Piece.Stops symbols text more)
    (hquote : more.head? = some '\n' ∨
      ∀ r ∈ runsFrom symbols fresh start text, ¬ r.IsCutOff (start.offset + text.length)) :
    visible (runsFrom symbols fresh start (text ++ more)) =
      visible (runsFrom symbols fresh start text) ++
        visible (runsFrom symbols (freshAfter symbols fresh text) (start.after text) more) := by
  fun_induction runsFrom symbols fresh start text with
  | case1 fresh start => rfl
  | case2 fresh start rest ih =>
    have hlength : (start.next ' ').offset + rest.length = start.offset + (' ' :: rest).length :=
      Position.after_offset_drop start (List.prefix_append [' '] rest)
    have hfresh : freshAfter symbols fresh (' ' :: rest) = freshAfter symbols true rest :=
      freshAfter_append symbols fresh [' '] rest
    rw [← hlength] at hquote
    rw [List.cons_append, runsFrom_space, ih (hstop.drop 1) hquote, hfresh, Position.after_cons]
  | case3 fresh start x rest hx k ih =>
    have hne : x :: rest ≠ [] := List.cons_ne_nil x rest
    have hhead : (x :: rest).head? ≠ some ' ' := by simpa using hx
    have hcut : (x :: rest).head? = some '"' → Piece.IsOpen symbols fresh (x :: rest) →
        more.head? = some '\n' := by
      intro hq hopen
      rcases hquote with hline | hnone
      · exact hline
      · exact absurd (Piece.isCutOff_of_isOpen hq hopen start) (hnone _ (by simp))
    have hprefix := Piece.first_written_isPrefix symbols fresh (x :: rest)
    have hsplit : k.written ++ (x :: rest).drop k.written.length = x :: rest :=
      Piece.first_written_append symbols fresh _
    have hlength : (start.after k.written).offset + ((x :: rest).drop k.written.length).length =
        start.offset + (x :: rest).length := Position.after_offset_drop start hprefix
    have hlater : more.head? = some '\n' ∨ ∀ r ∈ runsFrom symbols
        (freshAfter symbols fresh k.written) (start.after k.written)
          ((x :: rest).drop k.written.length), ¬ r.IsCutOff ((start.after k.written).offset +
        ((x :: rest).drop k.written.length).length) := by
      rw [hlength]
      exact hquote.imp_right fun hnone r hr => hnone r (List.mem_cons_of_mem _ hr)
    rw [visible_runsFrom_first_append hne hhead hstop hcut, visible_cons,
      ih (hstop.drop _) hlater, ← List.append_assoc, ← visible_cons, ← freshAfter_append,
      ← Position.after_append, hsplit]

theorem visible_runsFrom_newline :
    visible (runsFrom symbols fresh start (text ++ '\n' :: more)) =
      visible (runsFrom symbols fresh start text) ++
        visible (runsFrom symbols true (start.after (text ++ ['\n'])) more) := by
  have hblank : isBlank '\n' = true := rfl
  rw [visible_runsFrom_append (Piece.stops_of_isBlank hblank) (.inl rfl),
    visible_runsFrom_blank hblank, Position.after_append]
  rfl

end

/-- What a scan finds on lines one after another, of which the first has so many lines and
characters in front of it. -/
def Findings.ofLines (settings : Settings) : Nat → Nat → List (List Char) → Findings
  | _, _, [] => empty
  | lines, chars, line :: rest =>
    ((scan settings line).findings.moved (Position.below lines chars)).followedBy
      (ofLines settings (lines + 1) (chars + (line.length + 1)) rest)

theorem findings_newline (settings : Settings) (text more : List Char) :
    (scan settings (text ++ '\n' :: more)).findings =
      (scan settings text).findings.followedBy ((scan settings more).findings.moved
        (Position.below (1 + text.count '\n') (text.length + 1))) := by
  have hstart : Position.start.after (text ++ ['\n']) =
      Position.start.below (1 + text.count '\n') (text.length + 1) := by
    rw [Position.after_newline]
    simp [Position.start, Position.below]
  rw [scan_findings, ← Findings.ofRuns_visible, visible_runsFrom_newline, Findings.ofRuns_append,
    Findings.ofRuns_visible, Findings.ofRuns_visible, hstart,
    runsFrom_moved fun read _ => Position.below_after _ _ _ read, Findings.ofRuns_moved,
    scan_findings, scan_findings]

theorem Findings.moved_moved (g h : Position → Position) (a : Findings) :
    (a.moved g).moved h = a.moved (h ∘ g) := by
  obtain ⟨tokens, warnings, fault⟩ := a
  cases fault <;> simp [moved, Placed.moved, Function.comp_def]

theorem Findings.moved_id (a : Findings) : a.moved id = a := by
  obtain ⟨tokens, warnings, fault⟩ := a
  have htokens : Placed.moved (α := Token) id = id := rfl
  have hwarnings : Placed.moved (α := Warning) id = id := rfl
  cases fault <;> simp [moved, htokens, hwarnings, Placed.moved]

theorem findings_ofLines (settings : Settings) (lines chars : Nat) (text : List Char) :
    (scan settings text).findings.moved (Position.below lines chars) =
      Findings.ofLines settings lines chars (text.splitOn '\n') := by
  induction h : text.length using Nat.strong_induction_on generalizing lines chars text with
  | _ n ih =>
    by_cases hmem : '\n' ∈ text
    · obtain ⟨line, more, rfl, hline⟩ := List.eq_append_cons_of_mem hmem
      have hlength : more.length < n := by
        rw [← h, List.length_append, List.length_cons]
        omega
      rw [List.splitOn_append_cons_self_of_not_mem hline, Findings.ofLines, findings_newline,
        Findings.moved_followedBy, Findings.moved_moved, Position.below_comp,
        List.count_eq_zero_of_not_mem hline, ih more.length hlength _ _ more rfl]
    · rw [List.splitOn_eq_singleton hmem]
      simp [Findings.ofLines]

/-- A newline always begins anew: what is found in a text with a newline is what is found before
it and then, one line further down than the lines before, what is found behind it. So a text scans
as its lines do one after another. -/
theorem scan_by_lines (settings : Settings) :
    (∀ text more : List Char, (scan settings (text ++ '\n' :: more)).findings =
      (scan settings text).findings.followedBy ((scan settings more).findings.moved
        (Position.below (1 + text.count '\n') (text.length + 1)))) ∧
    ∀ text : List Char, (scan settings text).findings =
      Findings.ofLines settings 0 0 (text.splitOn '\n') := by
  constructor
  · exact findings_newline settings
  · intro text
    rw [← findings_ofLines]
    exact (Findings.moved_id _).symm

end ExprLex
