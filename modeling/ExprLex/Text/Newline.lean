/-!
# Line ends of stored text

A stored text may end its lines with a newline, with a carriage return, or with a carriage return
and a newline. `unify` turns each of the three into one newline; a carriage return and the
newline right after it are one line end and not two.
-/
namespace ExprLex.Text

/-- Puts a character in front of text already unified; the flag tells whether that text began
with a newline before it was unified. -/
def unifyStep (c : Char) : List Char × Bool → List Char × Bool
  | (text, beforeNewline) =>
    if c = '\r' then (if beforeNewline then text else '\n' :: text, false)
    else (c :: text, c = '\n')

def unifyLineEnds (text : List Char) : List Char := (text.foldr unifyStep ([], false)).1

theorem unifyLineEnds_of_no_return {text : List Char} (h : '\r' ∉ text) :
    unifyLineEnds text = text := by
  induction text with
  | nil => rfl
  | cons c rest ih =>
    obtain ⟨hc, hrest⟩ := not_or.mp (mt List.mem_cons.mpr h)
    have hne : c ≠ '\r' := fun e => hc e.symm
    have hstep : unifyLineEnds (c :: rest) = c :: unifyLineEnds rest := by
      simp [unifyLineEnds, unifyStep, hne]
    rw [hstep, ih hrest]

end ExprLex.Text
