import ExprLex.Proofs.Continuation
import ExprLex.Proofs.Taking

/-!
# Text that is not reached

Text behind the place where a reading stops has no part in it. A piece that ends before the end of
the text is the same with more text at the end: its last character was seen to be the last, and the
character that a dash at its front is judged by stands in the text. So pulls that leave the cursor
before the end of a text do the same in every text that begins with it.
-/
namespace ExprLex
open Text

namespace Piece

variable {symbols : SymbolSet} {fresh : Bool} {text : List Char}

theorem sign_extend (hlength : 2 ≤ text.length) (h : sign symbols fresh text ≠ text)
    (more : List Char) : sign symbols fresh (text ++ more) = sign symbols fresh text := by
  -- the character that makes a dash a sign stands in the text
  have hsecond : (text ++ more).getD 1 '\x00' = text.getD 1 '\x00' := by
    rw [List.getD_eq_getElem?_getD, List.getD_eq_getElem?_getD, List.getElem?_append_left hlength]
  rw [sign, sign, hsecond]
  rw [sign] at h
  split at h
  · rename_i hcond
    rw [if_pos hcond, if_pos hcond, takeWhile_append_of_ne h]
  · rename_i hcond
    rw [if_neg hcond, if_neg hcond]

theorem block_extend (hlength : 2 ≤ text.length) (h : block symbols fresh text ≠ text)
    (more : List Char) : block symbols fresh (text ++ more) = block symbols fresh text := by
  have hprefix := sign_isPrefix symbols fresh text
  have hsplit := List.prefix_iff_eq_append.mp hprefix
  have hsign : sign symbols fresh text ≠ text := by
    intro hall
    apply h
    rw [block, hall, List.drop_length, List.takeWhile_nil, List.append_nil]
  have hplain : (text.drop (sign symbols fresh text).length).takeWhile symbols.isPlain ≠
      text.drop (sign symbols fresh text).length := by
    intro hall
    apply h
    rw [block, hall, hsplit]
  rw [block, sign_extend hlength hsign, List.drop_append_of_le_length hprefix.length_le,
    takeWhile_append_of_ne hplain]
  rfl

theorem block_length_le (symbols : SymbolSet) (fresh : Bool) (text : List Char) :
    (block symbols fresh text).length ≤ (bare symbols fresh text).written.length := by
  by_cases h : block symbols fresh text = []
  · simp [h]
  · rw [bare_written, bare_of_block h, List.length_append]
    exact Nat.le_add_right _ _

theorem closingBlank_extend {rest : List Char} (h : rest ≠ []) (more : List Char) :
    closingBlank (rest ++ more) = closingBlank rest := by
  obtain ⟨x, rest, rfl⟩ := List.exists_cons_of_ne_nil h
  rfl

theorem bare_extend (hlength : 2 ≤ text.length)
    (h : (bare symbols fresh text).written.length < text.length) (more : List Char) :
    bare symbols fresh (text ++ more) = bare symbols fresh text := by
  have hshort := (block_length_le symbols fresh text).trans_lt h
  have hblock : block symbols fresh (text ++ more) = block symbols fresh text :=
    block_extend hlength (fun hall => absurd (congrArg List.length hall) hshort.ne) more
  by_cases hnil : block symbols fresh text = []
  · obtain ⟨x, rest, rfl⟩ := List.exists_cons_of_length_pos (Nat.lt_of_lt_of_le Nat.two_pos hlength)
    rw [bare_of_block_nil hnil]
    exact bare_of_block_nil (hblock.trans hnil)
  · have hrest : text.drop (block symbols fresh text).length ≠ [] := by
      rw [Ne, List.drop_eq_nil_iff]
      omega
    rw [bare_of_block hnil, bare_of_block (hblock ▸ hnil), hblock,
      List.drop_append_of_le_length hshort.le, closingBlank_extend hrest]

theorem quoted_extend (h : (quoted text).written.length < text.length + 1) (more : List Char) :
    quoted (text ++ more) = quoted text := by
  have hshort : text.takeWhile Cursor.inQuotes ≠ text := by
    intro hall
    have htext : (quoted text).text = text := hall
    rw [quoted_written, htext, List.length_cons, List.length_append] at h
    omega
  rw [quoted_append fun hall => absurd hall hshort, if_neg hshort]

/-- A piece that ends before the end of the text stays as it is with more text at the end. -/
theorem first_extend (hne : text ≠ [])
    (h : (first symbols fresh text).written.length < text.length) (more : List Char) :
    first symbols fresh (text ++ more) = first symbols fresh text := by
  have hpos := List.length_pos_iff.mpr (first_written_ne_nil symbols fresh hne)
  have hhead : (text ++ more).head? = text.head? := List.head?_append_of_ne_nil _ hne
  by_cases hquote : text.head? = some '"'
  · obtain ⟨tail, rfl⟩ := List.head?_eq_some_iff.mp hquote
    exact quoted_extend h more
  · rw [first_bare symbols fresh hquote] at h hpos ⊢
    rw [first_bare symbols fresh (hhead ▸ hquote)]
    exact bare_extend (by omega) h more

end Piece

namespace Cursor

variable {symbols : SymbolSet} {c after : Cursor} {r : Run}

/-- The cursor in the text with more at the end. -/
def extend (more : List Char) (c : Cursor) : Cursor := ⟨c.behind, c.ahead ++ more, c.position⟩

theorem extend_advanceBy (more : List Char) {read rest : List Char} (h : read ++ rest = c.ahead) :
    (c.extend more).advanceBy read.length = (c.advanceBy read.length).extend more := by
  have hextend : (c.extend more).ahead = read ++ (rest ++ more) := by simp [extend, ← h]
  rw [advanceBy_of_ahead hextend, advanceBy_of_ahead h.symm]
  rfl

theorem extend_skipSpaces (more : List Char) (h : c.skipSpaces.ahead ≠ []) :
    (c.extend more).skipSpaces = c.skipSpaces.extend more := by
  have hshort : c.ahead.takeWhile (· = ' ') ≠ c.ahead := by
    intro hall
    rw [skipSpaces, advanceBy_ahead, hall, List.drop_length] at h
    exact h rfl
  have hspaces : (c.ahead ++ more).takeWhile (· = ' ') = c.ahead.takeWhile (· = ' ') :=
    takeWhile_append_of_ne hshort more
  rw [skipSpaces, skipSpaces, ← extend_advanceBy more List.takeWhile_append_dropWhile, ← hspaces]
  rfl

theorem extend_readRun? (more : List Char) (h : c.readRun? symbols = some (r, after))
    (hleft : after.ahead ≠ []) :
    (c.extend more).readRun? symbols = some (r, after.extend more) := by
  obtain ⟨hne, rfl, rfl⟩ := readRun?_piece h
  have hlength :
      (Piece.first symbols (c.skipSpaces.fresh symbols) c.skipSpaces.ahead).written.length <
        c.skipSpaces.ahead.length := by
    rw [advanceBy_ahead, Ne, List.drop_eq_nil_iff] at hleft
    omega
  have hfirst := Piece.first_extend hne hlength more
  have hahead : (c.skipSpaces.extend more).ahead = c.skipSpaces.ahead ++ more := rfl
  have hfresh : (c.skipSpaces.extend more).fresh symbols = c.skipSpaces.fresh symbols := rfl
  rw [readRun?, extend_skipSpaces more hne,
    runHere?_eq hahead (List.append_ne_nil_of_left_ne_nil hne more), hfresh, hfirst,
    extend_advanceBy more (Piece.first_written_append _ _ _)]
  rfl

end Cursor

namespace Session

variable {s : Session}

def extend (more : List Char) (s : Session) : Session := s.moveTo (s.cursor.extend more)

theorem extend_judge (more : List Char) (r : Run) (after : Cursor) :
    (s.extend more).judge r (after.extend more) = (s.judge r after).extend more := by
  have hsettings : (s.extend more).settings = s.settings := rfl
  simp only [judge, accept, hsettings]
  split <;> split <;> rfl

theorem extend_next_of_readRun? (more : List Char) {r : Run} {after : Cursor}
    (h : s.cursor.readRun? s.settings.symbols = some (r, after)) (hleft : after.ahead ≠ []) :
    (s.extend more).next = match r.outcome? s.settings.strict with
      | none => ((s.judge r after).extend more).next
      | some o => (some o, (s.judge r after).extend more) := by
  have hread : (s.extend more).cursor.readRun? (s.extend more).settings.symbols =
      some (r, after.extend more) := Cursor.extend_readRun? more h hleft
  rw [next_of_readRun? hread, extend_judge]
  rfl

theorem extend_next (more : List Char) (h : s.next.2.cursor.ahead ≠ []) :
    (s.extend more).next = (s.next.1, s.next.2.extend more) := by
  induction s using next_induct with
  | exhausted s hread hnext =>
    rw [hnext] at h
    exact absurd s.cursor.toEnd_ahead h
  | idle s r after hread ho hnext ih =>
    rw [hnext] at h ⊢
    have hleft : after.ahead ≠ [] := by
      -- behind a run that ends the text the pull would stay at the end
      intro hend
      rw [← judge_cursor s r after] at hend
      rw [next_of_end hend] at h
      exact h hend
    rw [extend_next_of_readRun? more hread hleft, ho]
    exact ih h
  | found s r after o hread ho hnext =>
    rw [hnext, judge_cursor] at h
    rw [hnext, extend_next_of_readRun? more hread h, ho]

theorem extend_step (more : List Char) (h : (s.answer .next).2.cursor.ahead ≠ []) :
    (s.extend more).step .next = ((s.step .next).1, (s.step .next).2.extend more) := by
  have hnext : (s.extend more).answer .next =
      ((s.answer .next).1, (s.answer .next).2.extend more) := by
    simp only [answer, answerNext_eq] at h ⊢
    rw [extend_next more h]
  simp only [step, hnext]
  rfl

theorem extend_pulls (more : List Char) (k : Nat)
    (h : (s.afterCalls (List.replicate k .next)).cursor.ahead ≠ []) :
    (s.extend more).transcript (List.replicate k .next) = s.transcript (List.replicate k .next) ∧
      (s.extend more).afterCalls (List.replicate k .next) =
        (s.afterCalls (List.replicate k .next)).extend more := by
  induction k generalizing s with
  | zero => exact ⟨rfl, rfl⟩
  | succ k ih =>
    rw [List.replicate_succ, afterCalls_cons] at h
    have hfirst : (s.answer .next).2.cursor.ahead ≠ [] := by
      intro hend
      have hstay := (answers_of_end hend (List.replicate k .next)).1
      rw [List.map_replicate] at hstay
      exact h ((congrArg (fun x => x.cursor.ahead) hstay).trans hend)
    have hstep := extend_step more hfirst
    obtain ⟨htranscript, hafter⟩ := ih h
    have hsecond : ((s.extend more).answer .next).2 = (s.answer .next).2.extend more :=
      congrArg Prod.snd hstep
    rw [List.replicate_succ, transcript_cons, transcript_cons, afterCalls_cons, afterCalls_cons,
      hsecond, htranscript, hafter, hstep]
    exact ⟨rfl, rfl⟩

end Session

/-- Pulls that leave the cursor before the end of a text do all the same in a text that goes on
behind it: their answers, what they note and where they leave the cursor are the same. -/
theorem pulls_unread (settings : Settings) (text more : List Char) (k : Nat)
    (h : ((Session.ofText settings text).afterCalls
      (List.replicate k .next)).cursor.position.offset < text.length) :
    let pulls := List.replicate k Call.next
    let s := Session.ofText settings text
    let longer := Session.ofText settings (text ++ more)
    longer.transcript pulls = s.transcript pulls ∧
      (longer.afterCalls pulls).warnings = (s.afterCalls pulls).warnings ∧
      (longer.afterCalls pulls).cursor.position = (s.afterCalls pulls).cursor.position := by
  intro pulls s longer
  have hsound : (s.afterCalls pulls).Sound text :=
    (Session.afterCalls_onward (Session.ofText_sound settings text) pulls).sound
  have hahead : (s.afterCalls pulls).cursor.ahead ≠ [] := by
    intro hend
    have hoffset := hsound.offset_add
    rw [hend, List.length_nil, Nat.add_zero] at hoffset
    exact absurd hoffset h.ne
  obtain ⟨htranscript, hafter⟩ := Session.extend_pulls more k hahead
  have hlonger : longer = s.extend more := rfl
  rw [hlonger, hafter]
  exact ⟨htranscript, rfl, rfl⟩

theorem pulls_unread_faults :
    let text := "a -.\n\"o\n--1 b".toList
    let pulls := List.replicate 4 Call.next
    let s := Session.ofText .standard text
    let longer := Session.ofText .standard (text ++ "\"-.".toList)
    (s.afterCalls pulls).cursor.position.offset < text.length ∧
      longer.transcript pulls = s.transcript pulls ∧
      (longer.afterCalls pulls).warnings = (s.afterCalls pulls).warnings ∧
      (longer.afterCalls pulls).cursor.position = (s.afterCalls pulls).cursor.position := by
  intro text pulls s longer
  have h : (s.afterCalls pulls).cursor.position.offset < text.length := by decide +kernel
  exact ⟨h, pulls_unread .standard text "\"-.".toList 4 h⟩

end ExprLex
