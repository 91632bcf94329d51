import ExprLex.Proofs.Extraction

/-!
# The runs of a text

`runsFrom` lists the runs of a text from its front to its end. It depends on what came before only
through the position and through the flag that tells whether anything is left to subtract from.
The runs that a cursor reads one after another are the runs of the text ahead of it.
-/
namespace ExprLex
open Text

theorem Piece.written_length_le (symbols : SymbolSet) (fresh : Bool) (text : List Char) :
    (first symbols fresh text).written.length ≤ text.length :=
  (first_written_isPrefix symbols fresh text).length_le

theorem Piece.drop_written_length_lt {symbols : SymbolSet} {fresh : Bool} {text : List Char}
    (h : text ≠ []) :
    (text.drop (first symbols fresh text).written.length).length < text.length := by
  have hpos := List.length_pos_iff.mpr (first_written_ne_nil symbols fresh h)
  have hle := written_length_le symbols fresh text
  rw [List.length_drop]
  omega

def Run.Ascending (rs : List Run) : Prop :=
  rs.Pairwise fun a b => a.start.offset < b.start.offset

def runsFrom (symbols : SymbolSet) (fresh : Bool) (start : Position) (text : List Char) :
    List Run :=
  match _h : text with
  | [] => []
  | x :: rest =>
    if x = ' ' then runsFrom symbols true (start.next x) rest
    else
      let k := Piece.first symbols fresh text
      k.run start :: runsFrom symbols (freshAfter symbols fresh k.written)
        (start.after k.written) (text.drop k.written.length)
termination_by text.length
decreasing_by
  · simp
  · subst _h
    exact Piece.drop_written_length_lt (List.cons_ne_nil x rest)

section

variable {symbols : SymbolSet} {fresh : Bool} {start : Position}

@[simp] theorem runsFrom_nil : runsFrom symbols fresh start [] = [] := by rw [runsFrom]

theorem runsFrom_space (rest : List Char) : runsFrom symbols fresh start (' ' :: rest) =
    runsFrom symbols true (start.next ' ') rest := by
  rw [runsFrom]
  simp

theorem runsFrom_piece {text : List Char} (hne : text ≠ []) (hs : text.head? ≠ some ' ') :
    runsFrom symbols fresh start text =
      (Piece.first symbols fresh text).run start ::
        runsFrom symbols (freshAfter symbols fresh (Piece.first symbols fresh text).written)
          (start.after (Piece.first symbols fresh text).written)
          (text.drop (Piece.first symbols fresh text).written.length) := by
  obtain ⟨x, rest, rfl⟩ := List.exists_cons_of_ne_nil hne
  rw [runsFrom]
  simp_all

theorem runsFrom_spaces {spaces : List Char} (h : ∀ x ∈ spaces, x = ' ') (rest : List Char) :
    runsFrom symbols fresh start (spaces ++ rest) =
      runsFrom symbols (freshAfter symbols fresh spaces) (start.after spaces) rest := by
  induction spaces generalizing fresh start with
  | nil => rfl
  | cons x spaces ih =>
    obtain rfl : x = ' ' := h x (by simp)
    have hfresh : freshAfter symbols fresh (' ' :: spaces) = freshAfter symbols true spaces :=
      freshAfter_append symbols fresh [' '] spaces
    rw [List.cons_append, runsFrom_space, ih fun y hy => h y (by simp [hy]), hfresh,
      Position.after_cons]

/-- Every run is the first piece of what is left of the text when it is reached. -/
theorem exists_of_mem_runsFrom {text : List Char} {r : Run}
    (h : r ∈ runsFrom symbols fresh start text) :
    ∃ read rest now, read ++ rest = text ∧ rest ≠ [] ∧
      r = (Piece.first symbols now rest).run (start.after read) := by
  fun_induction runsFrom symbols fresh start text with
  | case1 => cases h
  | case2 fresh start rest ih =>
    obtain ⟨read, left, now, rfl, hne, rfl⟩ := ih h
    exact ⟨' ' :: read, left, now, rfl, hne, rfl⟩
  | case3 fresh start x rest hx k ih =>
    rcases List.mem_cons.mp h with rfl | h
    · exact ⟨[], x :: rest, fresh, rfl, List.cons_ne_nil x rest, rfl⟩
    · obtain ⟨read, left, now, hsplit, hne, rfl⟩ := ih h
      refine ⟨k.written ++ read, left, now, ?_, hne, by rw [Position.after_append]⟩
      rw [List.append_assoc, hsplit]
      exact Piece.first_written_append symbols fresh (x :: rest)

theorem runsFrom_offset_le {text : List Char} :
    ∀ r ∈ runsFrom symbols fresh start text, start.offset ≤ r.start.offset := by
  intro r hr
  obtain ⟨read, rest, now, -, -, rfl⟩ := exists_of_mem_runsFrom hr
  change start.offset ≤ (start.after read).offset
  rw [Position.after_offset]
  exact Nat.le_add_right _ _

theorem runsFrom_ascending {text : List Char} :
    Run.Ascending (runsFrom symbols fresh start text) := by
  fun_induction runsFrom symbols fresh start text with
  | case1 => exact .nil
  | case2 fresh start rest ih => exact ih
  | case3 fresh start x rest hx k ih =>
    apply List.Pairwise.cons _ ih
    intro r hr
    have hle := runsFrom_offset_le r hr
    have hpos : 0 < k.written.length := List.length_pos_iff.mpr
      (Piece.first_written_ne_nil symbols fresh (List.cons_ne_nil x rest))
    rw [Position.after_offset] at hle
    change start.offset < r.start.offset
    omega

def Run.moved (g : Position → Position) (r : Run) : Run := { r with start := g r.start }

/-- The runs of a text that is found elsewhere, provided that positions in it move alike. -/
theorem runsFrom_moved {g : Position → Position} {text : List Char}
    (hg : ∀ read, read <+: text → g (start.after read) = (g start).after read) :
    runsFrom symbols fresh (g start) text =
      (runsFrom symbols fresh start text).map (Run.moved g) := by
  fun_induction runsFrom symbols fresh start text with
  | case1 => simp
  | case2 fresh start rest ih =>
    have hnext : g (start.next ' ') = (g start).next ' ' := hg [' '] ⟨rest, rfl⟩
    rw [runsFrom_space, ← hnext, ih fun read hread => ?_]
    rw [← Position.after_cons, hg _ ((List.prefix_cons_inj ' ').mpr hread), Position.after_cons,
      hnext]
  | case3 fresh start x rest hx k ih =>
    have hhead : (x :: rest).head? ≠ some ' ' := by simpa using hx
    have hpiece : k.written <+: x :: rest := Piece.first_written_isPrefix symbols fresh _
    rw [runsFrom_piece (by simp) hhead, ← hg _ hpiece, ih fun read hread => ?_]
    · rfl
    · have hlonger : k.written ++ read <+: x :: rest := by
        have := (List.prefix_append_right_inj k.written).mpr hread
        rwa [List.prefix_iff_eq_append.mp hpiece] at this
      rw [← Position.after_append, hg _ hlonger, Position.after_append, ← hg _ hpiece]

end

namespace Cursor

def runs (symbols : SymbolSet) (c : Cursor) : List Run :=
  runsFrom symbols (c.fresh symbols) c.position c.ahead

theorem runs_advanceBy {symbols : SymbolSet} {c : Cursor} {read rest : List Char}
    (h : c.ahead = read ++ rest) : (c.advanceBy read.length).runs symbols =
      runsFrom symbols (freshAfter symbols (c.fresh symbols) read) (c.position.after read) rest := by
  rw [runs, fresh_advanceBy h, advanceBy_of_ahead h]

theorem skipSpaces_runs (symbols : SymbolSet) (c : Cursor) :
    c.skipSpaces.runs symbols = c.runs symbols := by
  have hsplit : c.ahead = c.ahead.takeWhile (· = ' ') ++ c.ahead.dropWhile (· = ' ') :=
    List.takeWhile_append_dropWhile.symm
  have hspaces : ∀ x ∈ c.ahead.takeWhile (· = ' '), x = ' ' := fun x hx => by
    simpa using List.mem_takeWhile_imp hx
  rw [skipSpaces, runs_advanceBy hsplit, runs]
  conv_rhs => rw [hsplit]
  rw [runsFrom_spaces hspaces]

theorem skipSpaces_ahead (c : Cursor) : c.skipSpaces.ahead = c.ahead.dropWhile (· = ' ') := by
  rw [skipSpaces, advanceBy_ahead, drop_length_takeWhile]

theorem skipSpaces_head? (c : Cursor) : c.skipSpaces.ahead.head? ≠ some ' ' := by
  intro h
  have := List.head?_dropWhile_not (· = ' ') c.ahead
  rw [← skipSpaces_ahead, h] at this
  simp at this

theorem skipSpaces_toEnd (c : Cursor) : c.skipSpaces.toEnd = c.toEnd :=
  toEnd_advanceBy (List.takeWhile_prefix _).length_le

theorem readRun?_none {symbols : SymbolSet} {c : Cursor} (h : c.readRun? symbols = none) :
    c.runs symbols = [] ∧ c.skipSpaces = c.toEnd := by
  have hend : c.skipSpaces.ahead = [] := by
    by_contra hne
    simp [readRun?, runHere?_eq rfl hne] at h
  rw [← skipSpaces_runs, ← skipSpaces_toEnd, toEnd_of_end hend, runs, hend]
  exact ⟨runsFrom_nil, rfl⟩

theorem readRun?_piece {symbols : SymbolSet} {c after : Cursor} {r : Run}
    (h : c.readRun? symbols = some (r, after)) :
    let here := c.skipSpaces
    let k := Piece.first symbols (here.fresh symbols) here.ahead
    here.ahead ≠ [] ∧ r = k.run here.position ∧ after = here.advanceBy k.written.length := by
  have hne : c.skipSpaces.ahead ≠ [] := by
    intro hend
    simp [readRun?, runHere?_end hend] at h
  rw [readRun?, runHere?_eq rfl hne, Option.some.injEq, Prod.mk.injEq] at h
  exact ⟨hne, h.1.symm, h.2.symm⟩

theorem readRun?_some {symbols : SymbolSet} {c after : Cursor} {r : Run}
    (h : c.readRun? symbols = some (r, after)) :
    c.runs symbols = r :: after.runs symbols ∧ after.toEnd = c.toEnd := by
  obtain ⟨hne, rfl, rfl⟩ := readRun?_piece h
  have hsplit := Piece.first_written_append symbols (c.skipSpaces.fresh symbols) c.skipSpaces.ahead
  rw [runs_advanceBy hsplit.symm, ← skipSpaces_runs, runs, runsFrom_piece hne c.skipSpaces_head?,
    ← skipSpaces_toEnd c, toEnd_advanceBy (Piece.written_length_le _ _ _)]
  exact ⟨rfl, rfl⟩

end Cursor
end ExprLex
