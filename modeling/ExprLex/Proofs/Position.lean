import Mathlib.Data.List.DropRight
import ExprLex.Location

/-!
# Positions

A position counts the characters, the lines and the characters of the line. What it counts can be
told from the text before it at once, as `ofRead` does. `below` moves a position as a text moves
when whole lines are put in front of it, and `behind` when any text is; both go together with
reading on.
-/
namespace ExprLex.Position

theorem after_offset (p : Position) (read : List Char) :
    (p.after read).offset = p.offset + read.length := by
  induction read generalizing p with
  | nil => rfl
  | cons x read ih =>
    have hnext : (p.next x).offset = p.offset + 1 := by
      simp only [next]
      split <;> rfl
    rw [after_cons, ih, hnext, List.length_cons]
    omega

theorem after_offset_drop (p : Position) {read text : List Char} (h : read <+: text) :
    (p.after read).offset + (text.drop read.length).length = p.offset + text.length := by
  have hle := h.length_le
  rw [after_offset, List.length_drop]
  omega

theorem after_line (p : Position) (read : List Char) :
    (p.after read).line = p.line + read.count '\n' := by
  induction read generalizing p with
  | nil => rfl
  | cons x read ih =>
    rw [after_cons, ih, List.count_cons]
    simp only [next]
    split <;> simp_all
    omega

/-- The position that a text leads to, counted in the text as a whole. -/
def ofRead (read : List Char) : Position :=
  ⟨read.length, 1 + read.count '\n', 1 + (read.rtakeWhile (· ≠ '\n')).length⟩

theorem ofRead_concat (read : List Char) (x : Char) :
    ofRead (read ++ [x]) = (ofRead read).next x := by
  simp only [ofRead, next, List.rtakeWhile_concat, List.count_append, List.length_append,
    List.length_cons, List.length_nil]
  by_cases hx : x = '\n' <;> simp [hx] <;> omega

theorem start_after (read : List Char) : start.after read = ofRead read := by
  induction read using List.reverseRecOn with
  | nil => rfl
  | append_singleton read x ih => rw [after_append, ih, ofRead_concat, after_cons, after_nil]

theorem ofRead_after (front read : List Char) :
    (ofRead front).after read = ofRead (front ++ read) := by
  rw [← start_after, ← start_after, after_append]

theorem after_newline (p : Position) (read : List Char) :
    p.after (read ++ ['\n']) =
      ⟨p.offset + (read.length + 1), p.line + (1 + read.count '\n'), 1⟩ := by
  rw [after_append, after_cons, after_nil, next, if_pos rfl, after_offset, after_line]
  simp only [mk.injEq, and_true]
  omega

/-- The position as many lines further down and as many characters further on. -/
def below (lines chars : Nat) (p : Position) : Position :=
  ⟨p.offset + chars, p.line + lines, p.column⟩

theorem below_next (lines chars : Nat) (p : Position) (x : Char) :
    (p.next x).below lines chars = (p.below lines chars).next x := by
  simp only [next, below]
  split <;> simp only [mk.injEq, and_true] <;> omega

theorem below_after (lines chars : Nat) (p : Position) (read : List Char) :
    (p.after read).below lines chars = (p.below lines chars).after read := by
  induction read generalizing p with
  | nil => rfl
  | cons x read ih => rw [after_cons, ih, below_next, after_cons]

theorem below_below (a b c d : Nat) (p : Position) :
    (p.below a b).below c d = p.below (c + a) (d + b) := by
  simp only [below, mk.injEq, and_true]
  omega

/-- The position as it is when `front` is put before the text. Only on the first line are columns
counted from within `front`. -/
def behind (front : List Char) (p : Position) : Position :=
  ⟨p.offset + front.length, p.line + front.count '\n',
    if p.line = 1 then p.column + (front.rtakeWhile (· ≠ '\n')).length else p.column⟩

theorem behind_next (front : List Char) {p : Position} (h : 1 ≤ p.line) (x : Char) :
    (p.next x).behind front = (p.behind front).next x := by
  simp only [next, behind]
  by_cases hx : x = '\n'
  · have hline : p.line + 1 ≠ 1 := by omega
    simp only [hx, if_true, hline, if_false, mk.injEq, and_true]
    omega
  · simp only [hx, if_false, mk.injEq]
    refine ⟨by omega, trivial, ?_⟩
    split
    · exact Nat.add_right_comm _ 1 _
    · rfl

theorem start_behind (front : List Char) : start.behind front = start.after front := by
  rw [start_after]
  simp [behind, start, ofRead]

theorem after_behind (front : List Char) {p : Position} (h : 1 ≤ p.line) (read : List Char) :
    (p.after read).behind front = (p.behind front).after read := by
  induction read generalizing p with
  | nil => rfl
  | cons x read ih =>
    have hline : 1 ≤ (p.next x).line := by
      have := after_line p [x]
      rw [after_cons, after_nil] at this
      omega
    rw [after_cons, ih hline, behind_next front h, after_cons]

theorem below_comp (a b c d : Nat) : below c d ∘ below a b = below (c + a) (d + b) := by
  funext p
  exact below_below a b c d p

end ExprLex.Position
