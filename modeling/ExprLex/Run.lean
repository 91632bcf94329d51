import ExprLex.Cursor
import ExprLex.Diagnostic
import ExprLex.Number.Numeral
import ExprLex.SymbolSet
import ExprLex.Token

/-!
# Runs

A run is a stretch of text that is read in one go: the text between double quotes, or, outside
quotes, the characters up to a blank or a symbol. A blank that ends a run is consumed with it.
A symbol is left for the next run, unless it is itself the first character, when it is the whole
run. Dashes that are symbols may still begin a longer run: a sign is the dashes before a digit, a
point or a further dash, where no name, number or string touches them from the left.

What a run stands for is decided from its text alone: a numeral is a number, a text that begins
with a letter is a name, any other single character is a symbol, and all else is a string. The
text of quotes is always a string. A run without characters stands for nothing.
-/
namespace ExprLex
open Text

namespace Cursor

/-- Whether nothing that a sign could be subtracted from touches the cursor from the left. -/
def fresh (symbols : SymbolSet) (c : Cursor) : Bool :=
  match c.behind with
  | [] => true
  | x :: _ => isBlank x || x ∈ symbols

def opensNumeral (x : Char) : Bool := x.isDigit || x = '.' || x = '-'

/-- Whether a dash at the cursor belongs to the sign of a run whose latest character is given. -/
def continuesSign (symbols : SymbolSet) (latest : Option Char) (c : Cursor) : Bool :=
  match latest with
  | none => c.fresh symbols && opensNumeral (c.peek 1)
  | some x => x = '-'

/-- Reads on outside quotes after the characters `sofar`, latest first. -/
def readBareAfter (symbols : SymbolSet) (sofar : List Char) (c : Cursor) :
    List Char × Cursor :=
  match _h : c.ahead with
  | [] => (sofar.reverse, c)
  | x :: _ =>
    if isBlank x then (sofar.reverse, c.advance)
    else if x ∈ symbols then
      if x = '-' && c.continuesSign symbols sofar.head? then
        readBareAfter symbols (x :: sofar) c.advance
      else if sofar.isEmpty then ([x], c.advance)
      else (sofar.reverse, c)
    else readBareAfter symbols (x :: sofar) c.advance
termination_by c.ahead.length
decreasing_by all_goals simp [_h]

def readBare (symbols : SymbolSet) (c : Cursor) : List Char × Cursor :=
  c.readBareAfter symbols []

theorem readBareAfter_length (symbols : SymbolSet) (sofar : List Char) (c : Cursor) :
    (c.readBareAfter symbols sofar).2.ahead.length ≤ c.ahead.length := by
  fun_induction readBareAfter symbols sofar c with
  | case1 => simp
  | case2 => simp
  | case3 sofar c x rest h hb hs hd ih => simp_all; omega
  | case4 => simp
  | case5 => simp
  | case6 sofar c x rest h hb hs ih => simp_all; omega

theorem readBare_length {symbols : SymbolSet} {c : Cursor} (h : c.ahead ≠ []) :
    (c.readBare symbols).2.ahead.length < c.ahead.length := by
  obtain ⟨x, rest, hx⟩ := List.exists_cons_of_ne_nil h
  have hadvance : c.advance.ahead.length < c.ahead.length := by simp [hx]
  unfold readBare readBareAfter
  split
  · simp_all
  · split
    · exact hadvance
    · split
      · split
        · exact Nat.lt_of_le_of_lt (readBareAfter_length _ _ _) hadvance
        · exact hadvance
      · exact Nat.lt_of_le_of_lt (readBareAfter_length _ _ _) hadvance

def inQuotes (x : Char) : Bool := x ≠ '"' && x ≠ '\n'

/-- Reads behind an opening quote; the flag tells whether a quote closes the text. The character
that ends the text is consumed, be it the quote or the newline. -/
def readQuoted (c : Cursor) : List Char × Bool × Cursor :=
  let text := c.ahead.takeWhile inQuotes
  let ending := c.advanceBy text.length
  (text, ending.ahead.head? = some '"', ending.advance)

theorem readQuoted_length (c : Cursor) : c.readQuoted.2.2.ahead.length ≤ c.ahead.length := by
  simp only [readQuoted, advance_ahead, advanceBy_ahead, List.length_tail, List.length_drop]
  omega

end Cursor

/-- Outside quotes, between quotes, or behind a quote that is not closed on its line. -/
inductive Run.Form
  | bare
  | closed
  | unclosed
deriving DecidableEq

structure Run where
  start : Position
  form : Run.Form
  text : List Char
deriving DecidableEq

namespace Cursor

def quotedRun (start : Position) (c : Cursor) : Run × Cursor :=
  let (text, closed, after) := c.readQuoted
  (⟨start, if closed then .closed else .unclosed, text⟩, after)

def bareRun (symbols : SymbolSet) (c : Cursor) : Run × Cursor :=
  let (text, after) := c.readBare symbols
  (⟨c.position, .bare, text⟩, after)

def runHere? (symbols : SymbolSet) (c : Cursor) : Option (Run × Cursor) :=
  match c.ahead with
  | [] => none
  | x :: _ =>
    some (if x = '"' then c.advance.quotedRun c.position else c.bareRun symbols)

/-- The next run, after any spaces; there is none at the end of the text. -/
def readRun? (symbols : SymbolSet) (c : Cursor) : Option (Run × Cursor) :=
  c.skipSpaces.runHere? symbols

theorem runHere?_length {symbols : SymbolSet} {c after : Cursor} {r : Run}
    (h : c.runHere? symbols = some (r, after)) : after.ahead.length < c.ahead.length := by
  unfold runHere? at h
  split at h
  · cases h
  · rename_i x rest hx
    split at h
    · cases h
      have hq := c.advance.readQuoted_length
      simp only [advance_ahead, hx, List.tail_cons] at hq
      rw [hx]
      exact Nat.lt_succ_of_le hq
    · cases h
      exact readBare_length (by simp [hx])

theorem readRun?_length {symbols : SymbolSet} {c after : Cursor} {r : Run}
    (h : c.readRun? symbols = some (r, after)) : after.ahead.length < c.ahead.length :=
  Nat.lt_of_lt_of_le (runHere?_length h) c.skipSpaces_length

end Cursor

inductive Verdict
  | nothing
  | token (token : Token)
  | fault (fault : Fault)
deriving DecidableEq

namespace Verdict

def ofNumeral (text : List Char) : Verdict :=
  match Numeral.value? text with
  | some v => token (.number v)
  | none => fault (.digitlessNumeral (String.ofList text))

def ofBare (text : List Char) : Verdict :=
  match text with
  | [] => nothing
  | x :: rest =>
    if Numeral.isNumeral text then ofNumeral text
    else if isLetter x then token (.name (String.ofList text))
    else if rest.isEmpty then token (.symbol x)
    else token (.string (String.ofList text))

def ofQuoted (text : List Char) : Verdict :=
  if text.isEmpty then nothing else token (.string (String.ofList text))

end Verdict

namespace Run

def verdict (strict : Bool) (r : Run) : Verdict :=
  match r.form with
  | .bare => .ofBare r.text
  | .closed => .ofQuoted r.text
  | .unclosed =>
    if strict then .fault (.openString (String.ofList r.text)) else .ofQuoted r.text

def warning? (strict : Bool) (r : Run) : Option Warning :=
  if r.form = .unclosed ∧ strict = false then some ⟨String.ofList r.text⟩ else none

end Run
end ExprLex
