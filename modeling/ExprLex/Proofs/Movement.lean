import ExprLex.Proofs.Position
import ExprLex.Run

/-!
# Movement of a cursor

Reading a stretch of text puts a cursor right behind it: the stretch lies behind, in reverse, the
rest lies ahead, and the position counts the stretch. All that a cursor remembers of what it has
passed is whether the last character leaves nothing that a sign could be subtracted from.
-/
namespace ExprLex
open Text

/-- Whether nothing is left to subtract from once `read` has been passed. -/
def freshAfter (symbols : SymbolSet) (fresh : Bool) (read : List Char) : Bool :=
  match read.getLast? with
  | none => fresh
  | some x => isBlank x || x ∈ symbols

@[simp] theorem freshAfter_nil (symbols : SymbolSet) (fresh : Bool) :
    freshAfter symbols fresh [] = fresh := rfl

@[simp] theorem freshAfter_concat (symbols : SymbolSet) (fresh : Bool) (read : List Char)
    (x : Char) : freshAfter symbols fresh (read ++ [x]) = (isBlank x || x ∈ symbols) := by
  simp [freshAfter]

theorem freshAfter_append (symbols : SymbolSet) (fresh : Bool) (a b : List Char) :
    freshAfter symbols fresh (a ++ b) = freshAfter symbols (freshAfter symbols fresh a) b := by
  rcases List.eq_nil_or_concat b with rfl | ⟨b, x, rfl⟩
  · simp
  · rw [List.concat_eq_append, ← List.append_assoc, freshAfter_concat, freshAfter_concat]

namespace Cursor

theorem advance_of_ahead {c : Cursor} {x : Char} {rest : List Char} (h : c.ahead = x :: rest) :
    c.advance = ⟨x :: c.behind, rest, c.position.next x⟩ := by
  simp only [advance]
  split <;> simp_all

theorem advance_of_end {c : Cursor} (h : c.ahead = []) : c.advance = c := by
  simp only [advance]
  split <;> simp_all

theorem advanceBy_of_ahead {c : Cursor} {read rest : List Char} (h : c.ahead = read ++ rest) :
    c.advanceBy read.length = ⟨read.reverse ++ c.behind, rest, c.position.after read⟩ := by
  induction read generalizing c with
  | nil =>
    obtain ⟨behind, ahead, position⟩ := c
    simp only [List.nil_append] at h
    simp [advanceBy, h]
  | cons x read ih =>
    have hstep : c.advance = ⟨x :: c.behind, read ++ rest, c.position.next x⟩ := advance_of_ahead h
    rw [List.length_cons, advanceBy, hstep, ih rfl]
    simp

theorem advanceBy_add (m n : Nat) (c : Cursor) :
    c.advanceBy (m + n) = (c.advanceBy m).advanceBy n := by
  induction m generalizing c with
  | zero => simp [advanceBy]
  | succ m ih => rw [Nat.succ_add, advanceBy, advanceBy, ih]

theorem fresh_eq_freshAfter (symbols : SymbolSet) (c : Cursor) :
    c.fresh symbols = freshAfter symbols true c.behind.reverse := by
  simp only [fresh, freshAfter]
  rw [List.getLast?_reverse]
  cases c.behind <;> rfl

theorem fresh_advanceBy {symbols : SymbolSet} {c : Cursor} {read rest : List Char}
    (h : c.ahead = read ++ rest) :
    (c.advanceBy read.length).fresh symbols = freshAfter symbols (c.fresh symbols) read := by
  rw [advanceBy_of_ahead h, fresh_eq_freshAfter, fresh_eq_freshAfter, ← freshAfter_append]
  simp

def toEnd (c : Cursor) : Cursor := c.advanceBy c.ahead.length

theorem toEnd_ahead (c : Cursor) : c.toEnd.ahead = [] := by simp [toEnd]

theorem toEnd_of_end {c : Cursor} (h : c.ahead = []) : c.toEnd = c := by simp [toEnd, h, advanceBy]

theorem toEnd_advanceBy {c : Cursor} {n : Nat} (h : n ≤ c.ahead.length) :
    (c.advanceBy n).toEnd = c.toEnd := by
  rw [toEnd, toEnd, advanceBy_ahead, List.length_drop, ← advanceBy_add]
  congr 1
  omega

theorem ofText_toEnd (text : List Char) :
    (ofText text).toEnd = ⟨text.reverse, [], Position.start.after text⟩ := by
  have h : (ofText text).ahead = text ++ [] := by simp [ofText]
  have hend := advanceBy_of_ahead h
  simpa [toEnd, ofText] using hend

end Cursor
end ExprLex
