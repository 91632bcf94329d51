import ExprLex.Proofs.Bookkeeping
import ExprLex.Proofs.NumeralParts

/-!
# Reading by index

A session knows the text ahead of it as a list and cannot look past its end. Here the same reading
is done with nothing but the text and the number of characters that have been read. Characters are
fetched by their index, the value of a numeral comes from a conversion that may refuse it, and a
symbol is checked to be one character. Each of these operations may break the reading down, but
none ever does: what is guarded against is never tried, and so the reading by index comes to what
the session comes to.
-/
namespace ExprLex
open Text

/-- What breaks a reading down: an index at which there is no character, a numeral that is refused,
or a text that is no symbol. -/
inductive Breakdown
  | index (i : Nat)
  | numeral (text : List Char)
  | symbol (error : Token.NotCharacter)

def charAt (text : List Char) (i : Nat) : Except Breakdown Char :=
  match text[i]? with
  | some x => .ok x
  | none => .error (.index i)

/-- A text and how far it has been read. -/
structure Reader where
  text : List Char
  position : Position

def Cursor.reader (c : Cursor) : Reader := ⟨c.text, c.position⟩

namespace Reader

def cursor (r : Reader) : Cursor :=
  ⟨(r.text.take r.position.offset).reverse, r.text.drop r.position.offset, r.position⟩

def hasMore (r : Reader) : Bool := r.position.offset < r.text.length

def left (r : Reader) : Nat := r.text.length - r.position.offset

def current (r : Reader) : Except Breakdown Char := charAt r.text r.position.offset

def peek (r : Reader) (n : Nat) : Except Breakdown Char :=
  if r.position.offset + n < r.text.length then charAt r.text (r.position.offset + n)
  else .ok '\x00'

def advance (r : Reader) : Except Breakdown Reader :=
  if r.hasMore then do
    let x ← r.current
    .ok { r with position := r.position.next x }
  else .ok r

theorem advance_of_current {r : Reader} {x : Char} (hmore : r.hasMore = true)
    (hx : r.current = .ok x) : r.advance = .ok { r with position := r.position.next x } := by
  rw [advance, if_pos hmore, hx]
  rfl

theorem advance_left {r after : Reader} (hmore : r.hasMore = true) (h : r.advance = .ok after) :
    after.left < r.left := by
  cases hx : r.current with
  | error e =>
    rw [advance, if_pos hmore, hx] at h
    cases h
  | ok x =>
    rw [advance_of_current hmore hx] at h
    cases h
    have hlt : r.position.offset < r.text.length := of_decide_eq_true hmore
    have hoffset : (r.position.next x).offset = r.position.offset + 1 :=
      Position.after_offset r.position [x]
    simp only [left, hoffset]
    omega

/-- Passes a character and goes on with what is then left. -/
def passing {α : Type} (r : Reader) (hmore : r.hasMore = true)
    (goOn : (next : Reader) → next.left < r.left → Except Breakdown α) : Except Breakdown α :=
  match h : r.advance with
  | .error e => .error e
  | .ok next => goOn next (advance_left hmore h)

theorem passing_of_advance {α : Type} {r next : Reader} (hmore : r.hasMore = true)
    (h : r.advance = .ok next)
    (goOn : (next : Reader) → next.left < r.left → Except Breakdown α) :
    r.passing hmore goOn = goOn next (advance_left hmore h) := by
  rw [passing]
  split
  · rename_i e he
    rw [h] at he
    cases he
  · rename_i after he
    obtain rfl : next = after := by simpa [h] using he
    rfl

def skipSpaces (r : Reader) : Except Breakdown Reader :=
  if hmore : r.hasMore then do
    let x ← r.current
    if x = ' ' then r.passing hmore fun next _ => next.skipSpaces else .ok r
  else .ok r
termination_by r.left

def fresh (symbols : SymbolSet) (r : Reader) : Except Breakdown Bool :=
  match r.position.offset with
  | 0 => .ok true
  | i + 1 => do
    let x ← charAt r.text i
    .ok (isBlank x || x ∈ symbols)

def continuesSign (symbols : SymbolSet) (sofar : List Char) (r : Reader) :
    Except Breakdown Bool :=
  if sofar.isEmpty then do
    let fresh ← r.fresh symbols
    if fresh then do
      let x ← r.peek 1
      .ok (Cursor.opensNumeral x)
    else .ok false
  else do
    let x ← charAt sofar 0
    .ok (x = '-')

/-- Whether the character is a symbol that does not belong to the sign of the run. -/
def breaksRun (symbols : SymbolSet) (sofar : List Char) (x : Char) (r : Reader) :
    Except Breakdown Bool :=
  if x ∈ symbols then
    if x = '-' then do
      let sign ← r.continuesSign symbols sofar
      .ok !sign
    else .ok true
  else .ok false

/-- Ends a run and passes the character that ends it. -/
def finish (sofar : List Char) (r : Reader) : Except Breakdown (List Char × Reader) := do
  let after ← r.advance
  .ok (sofar.reverse, after)

def readBareAfter (symbols : SymbolSet) (sofar : List Char) (r : Reader) :
    Except Breakdown (List Char × Reader) :=
  if hmore : r.hasMore then do
    let x ← r.current
    if isBlank x then r.finish sofar
    else do
      let breaks ← r.breaksRun symbols sofar x
      if breaks then
        if sofar.isEmpty then r.finish [x] else .ok (sofar.reverse, r)
      else r.passing hmore fun next _ => next.readBareAfter symbols (x :: sofar)
  else r.finish sofar
termination_by r.left

def readQuotedAfter (sofar : List Char) (r : Reader) : Except Breakdown (List Char × Reader) :=
  if hmore : r.hasMore then do
    let x ← r.current
    if Cursor.inQuotes x then r.passing hmore fun next _ => next.readQuotedAfter (x :: sofar)
    else .ok (sofar.reverse, r)
  else .ok (sofar.reverse, r)
termination_by r.left

def atQuote (r : Reader) : Except Breakdown Bool :=
  if r.hasMore then do
    let x ← r.current
    .ok (x = '"')
  else .ok false

def quotedRun (start : Position) (r : Reader) : Except Breakdown (Run × Reader) := do
  let (text, ending) ← r.readQuotedAfter []
  let closed ← ending.atQuote
  let after ← ending.advance
  .ok (⟨start, if closed then .closed else .unclosed, text⟩, after)

def bareRun (symbols : SymbolSet) (r : Reader) : Except Breakdown (Run × Reader) := do
  let (text, after) ← r.readBareAfter symbols []
  .ok (⟨r.position, .bare, text⟩, after)

def runHere (symbols : SymbolSet) (r : Reader) : Except Breakdown (Run × Reader) := do
  let x ← r.current
  if x = '"' then do
    let inside ← r.advance
    inside.quotedRun r.position
  else r.bareRun symbols

/-- The next run, after any spaces, and where the reading then stands. -/
def readRun? (symbols : SymbolSet) (r : Reader) : Except Breakdown (Option Run × Reader) := do
  let here ← r.skipSpaces
  if here.hasMore then do
    let (run, after) ← here.runHere symbols
    .ok (some run, after)
  else .ok (none, here)

theorem cursor_reader (r : Reader) : r.cursor.reader = r := by
  simp [cursor, Cursor.reader, Cursor.text]

end Reader

namespace Cursor

/-- A cursor that stands where its position says. -/
def Tracked (c : Cursor) : Prop := c.reader.cursor = c

variable {symbols : SymbolSet} {c : Cursor} {x : Char} {rest : List Char}

theorem tracked_of_reader (r : Reader) : r.cursor.Tracked := by rw [Tracked, r.cursor_reader]

theorem Tracked.behind (h : c.Tracked) :
    c.behind = (c.text.take c.position.offset).reverse := congrArg Cursor.behind h.symm

theorem Tracked.ahead (h : c.Tracked) : c.ahead = c.text.drop c.position.offset :=
  congrArg Cursor.ahead h.symm

theorem Tracked.getElem? (h : c.Tracked) (n : Nat) :
    c.text[c.position.offset + n]? = c.ahead[n]? := by
  rw [h.ahead, List.getElem?_drop]

theorem Tracked.left (h : c.Tracked) : c.reader.left = c.ahead.length := by
  rw [h.ahead, List.length_drop]
  rfl

theorem Tracked.lt_length (h : c.Tracked) (hx : c.ahead = x :: rest) :
    c.position.offset < c.text.length := by
  have hpos : 0 < (c.text.drop c.position.offset).length := by simp [← h.ahead, hx]
  rw [List.length_drop] at hpos
  omega

theorem Tracked.hasMore (h : c.Tracked) (hx : c.ahead = x :: rest) : c.reader.hasMore = true :=
  decide_eq_true (h.lt_length hx)

theorem Tracked.hasMore_of_end (h : c.Tracked) (hend : c.ahead = []) :
    c.reader.hasMore = false := by
  rw [h.ahead, List.drop_eq_nil_iff] at hend
  exact decide_eq_false (Nat.not_lt.mpr hend)

theorem Tracked.current (h : c.Tracked) (hx : c.ahead = x :: rest) :
    c.reader.current = .ok x := by
  have hget := h.getElem? 0
  rw [hx] at hget
  simp only [Nat.add_zero, List.getElem?_cons_zero] at hget
  simp only [Reader.current, reader, charAt, hget]

theorem Tracked.advance (h : c.Tracked) : c.advance.Tracked := by
  cases hx : c.ahead with
  | nil => rwa [advance_of_end hx]
  | cons x rest =>
    have hget := h.getElem? 0
    rw [hx, Nat.add_zero, List.getElem?_cons_zero] at hget
    have hoffset : (c.position.next x).offset = c.position.offset + 1 :=
      Position.after_offset c.position [x]
    have hrest : c.text.drop (c.position.offset + 1) = rest := by
      rw [← List.tail_drop, ← h.ahead, hx, List.tail_cons]
    have htext : c.advance.text = c.text := advance_text c
    rw [advance_of_ahead hx] at htext ⊢
    simp only [Tracked, reader, Reader.cursor, htext, hoffset, hrest, List.take_add_one, hget,
      Option.toList_some, List.reverse_append, List.reverse_singleton, List.singleton_append,
      ← h.behind]

theorem Tracked.advanceBy (h : c.Tracked) (n : Nat) : (c.advanceBy n).Tracked := by
  induction n generalizing c with
  | zero => exact h
  | succ n ih => exact ih h.advance

theorem Tracked.reader_advance (h : c.Tracked) : c.reader.advance = .ok c.advance.reader := by
  cases hx : c.ahead with
  | nil => simp [Reader.advance, h.hasMore_of_end hx, advance_of_end hx]
  | cons x rest =>
    have htext : c.advance.text = c.text := advance_text c
    have hposition : c.advance.position = c.position.next x := by rw [advance_of_ahead hx]
    rw [Reader.advance_of_current (h.hasMore hx) (h.current hx), reader, reader, htext, hposition]

theorem Tracked.reader_peek (h : c.Tracked) (n : Nat) : c.reader.peek n = .ok (c.peek n) := by
  have hget := h.getElem? n
  rw [Cursor.peek, List.getD_eq_getElem?_getD, ← hget]
  by_cases hlt : c.position.offset + n < c.text.length
  · have hpeek : c.reader.peek n = charAt c.text (c.position.offset + n) := if_pos hlt
    rw [hpeek, charAt, List.getElem?_eq_getElem hlt]
    rfl
  · rw [List.getElem?_eq_none (Nat.le_of_not_lt hlt)]
    exact if_neg hlt

/-- Where there is a character ahead, the one behind has an index too. -/
theorem Tracked.reader_fresh (h : c.Tracked) (hx : c.ahead = x :: rest) :
    c.reader.fresh symbols = .ok (c.fresh symbols) := by
  have hlt := h.lt_length hx
  cases hoffset : c.position.offset with
  | zero =>
    have hbehind : c.behind = [] := by rw [h.behind, hoffset, List.take_zero, List.reverse_nil]
    simp only [Reader.fresh, reader, hoffset, Cursor.fresh, hbehind]
  | succ i =>
    have hi : i < c.text.length := by omega
    obtain ⟨y, ys, hget, hbehind⟩ : ∃ y ys, c.text[i]? = some y ∧ c.behind = y :: ys := by
      refine ⟨c.text[i], (c.text.take i).reverse, List.getElem?_eq_getElem hi, ?_⟩
      rw [h.behind, hoffset, List.take_add_one, List.getElem?_eq_getElem hi, Option.toList_some,
        List.reverse_concat]
    simp only [Reader.fresh, reader, hoffset, charAt, hget, Cursor.fresh, hbehind]
    rfl

theorem Tracked.reader_continuesSign (h : c.Tracked) (hx : c.ahead = x :: rest)
    (sofar : List Char) :
    c.reader.continuesSign symbols sofar = .ok (c.continuesSign symbols sofar.head?) := by
  cases sofar with
  | nil =>
    simp only [Reader.continuesSign, h.reader_fresh hx, h.reader_peek, bind, Except.bind]
    cases hf : c.fresh symbols <;> simp [continuesSign, hf]
  | cons y sofar => simp [Reader.continuesSign, charAt, bind, Except.bind, continuesSign]

theorem Tracked.reader_skipSpaces (h : c.Tracked) :
    c.reader.skipSpaces = .ok c.skipSpaces.reader := by
  generalize htext : c.ahead = text
  induction text generalizing c with
  | nil =>
    rw [Reader.skipSpaces, dif_neg (by simp [h.hasMore_of_end htext]), skipSpaces, htext]
    rfl
  | cons x rest ih =>
    have hahead : c.advance.ahead = rest := by simp [htext]
    rw [Reader.skipSpaces, dif_pos (h.hasMore htext), h.current htext, skipSpaces, htext]
    simp only [bind, Except.bind]
    by_cases hx : x = ' '
    · rw [if_pos hx, Reader.passing_of_advance _ h.reader_advance, ih h.advance hahead, skipSpaces,
        hahead]
      simp [hx, Cursor.advanceBy]
    · simp [hx, Cursor.advanceBy]

theorem Tracked.reader_finish (h : c.Tracked) (sofar : List Char) :
    c.reader.finish sofar = .ok (sofar.reverse, c.advance.reader) := by
  rw [Reader.finish, h.reader_advance]
  rfl

theorem Tracked.reader_breaksRun (h : c.Tracked) (hx : c.ahead = x :: rest)
    (sofar : List Char) : c.reader.breaksRun symbols sofar x =
      .ok (x ∈ symbols && !(x = '-' && c.continuesSign symbols sofar.head?)) := by
  rw [Reader.breaksRun, h.reader_continuesSign hx]
  by_cases hsymbol : x ∈ symbols
  · by_cases hdash : x = '-'
    · rw [if_pos hsymbol, if_pos hdash, decide_eq_true hsymbol, decide_eq_true hdash]
      rfl
    · simp [hsymbol, hdash]
  · simp [hsymbol]

theorem Tracked.reader_readBareAfter_cons (h : c.Tracked) (hx : c.ahead = x :: rest)
    (sofar : List Char) : c.reader.readBareAfter symbols sofar =
      if isBlank x then .ok (sofar.reverse, c.advance.reader)
      else if x ∈ symbols && !(x = '-' && c.continuesSign symbols sofar.head?) then
        if sofar.isEmpty then .ok ([x], c.advance.reader) else .ok (sofar.reverse, c.reader)
      else c.advance.reader.readBareAfter symbols (x :: sofar) := by
  rw [Reader.readBareAfter, dif_pos (h.hasMore hx), h.current hx]
  simp only [bind, Except.bind]
  rw [h.reader_breaksRun hx, h.reader_finish, h.reader_finish,
    Reader.passing_of_advance _ h.reader_advance]
  rfl

theorem Tracked.reader_readBareAfter (h : c.Tracked) (sofar : List Char) :
    c.reader.readBareAfter symbols sofar =
      .ok ((c.readBareAfter symbols sofar).map id Cursor.reader) := by
  fun_induction Cursor.readBareAfter symbols sofar c with
  | case1 sofar c hend =>
    rw [Reader.readBareAfter, dif_neg (by simp [h.hasMore_of_end hend]), h.reader_finish,
      advance_of_end hend]
    rfl
  | case2 sofar c x rest hx hblank =>
    rw [h.reader_readBareAfter_cons hx, if_pos hblank]
    rfl
  | case3 sofar c x rest hx hblank hsymbol hsign ih =>
    rw [h.reader_readBareAfter_cons hx, if_neg hblank, hsign, if_neg (by simp), ih h.advance]
  | case4 sofar c x rest hx hblank hsymbol hsign hnil =>
    rw [Bool.not_eq_true] at hsign
    rw [h.reader_readBareAfter_cons hx, if_neg hblank, hsign, if_pos (by simp [hsymbol]),
      if_pos hnil]
    rfl
  | case5 sofar c x rest hx hblank hsymbol hsign hne =>
    rw [Bool.not_eq_true] at hsign
    rw [h.reader_readBareAfter_cons hx, if_neg hblank, hsign, if_pos (by simp [hsymbol]),
      if_neg hne]
    rfl
  | case6 sofar c x rest hx hblank hsymbol ih =>
    rw [h.reader_readBareAfter_cons hx, if_neg hblank, if_neg (by simp [hsymbol]), ih h.advance]

theorem Tracked.reader_readQuotedAfter (h : c.Tracked) (sofar : List Char) :
    c.reader.readQuotedAfter sofar =
      .ok (sofar.reverse ++ c.ahead.takeWhile inQuotes,
        (c.advanceBy (c.ahead.takeWhile inQuotes).length).reader) := by
  generalize htext : c.ahead = text
  induction text generalizing c sofar with
  | nil =>
    rw [Reader.readQuotedAfter, dif_neg (by simp [h.hasMore_of_end htext])]
    simp [Cursor.advanceBy]
  | cons x rest ih =>
    have hahead : c.advance.ahead = rest := by simp [htext]
    rw [Reader.readQuotedAfter, dif_pos (h.hasMore htext), h.current htext]
    simp only [bind, Except.bind]
    by_cases hx : inQuotes x = true
    · rw [if_pos hx, Reader.passing_of_advance _ h.reader_advance, ih h.advance _ hahead]
      simp [hx, Cursor.advanceBy]
    · simp [hx, Cursor.advanceBy]

theorem Tracked.reader_atQuote (h : c.Tracked) :
    c.reader.atQuote = .ok (c.ahead.head? = some '"') := by
  cases hx : c.ahead with
  | nil => simp [Reader.atQuote, h.hasMore_of_end hx]
  | cons x rest => simp [Reader.atQuote, h.hasMore hx, h.current hx, bind, Except.bind]

theorem Tracked.reader_quotedRun (h : c.Tracked) (start : Position) :
    c.reader.quotedRun start = .ok ((c.quotedRun start).map id Cursor.reader) := by
  have hending := h.advanceBy (c.ahead.takeWhile inQuotes).length
  simp only [Reader.quotedRun, h.reader_readQuotedAfter, bind, Except.bind,
    hending.reader_atQuote, hending.reader_advance]
  simp [quotedRun, readQuoted]

theorem Tracked.reader_bareRun (h : c.Tracked) :
    c.reader.bareRun symbols = .ok ((c.bareRun symbols).map id Cursor.reader) := by
  rw [Reader.bareRun, h.reader_readBareAfter]
  rfl

theorem Tracked.reader_runHere (h : c.Tracked) {run : Run} {after : Cursor}
    (hrun : c.runHere? symbols = some (run, after)) :
    c.reader.runHere symbols = .ok (run, after.reader) := by
  simp only [runHere?] at hrun
  split at hrun
  · cases hrun
  · rename_i x rest hx
    rw [Option.some.injEq] at hrun
    rw [Reader.runHere, h.current hx]
    simp only [bind, Except.bind]
    by_cases hquote : x = '"'
    · rw [if_pos hquote] at hrun ⊢
      rw [h.reader_advance]
      change c.advance.reader.quotedRun c.position = _
      rw [h.advance.reader_quotedRun, hrun]
      rfl
    · rw [if_neg hquote] at hrun ⊢
      rw [h.reader_bareRun, hrun]
      rfl

theorem Tracked.reader_readRun?_none (h : c.Tracked) (hrun : c.readRun? symbols = none) :
    c.reader.readRun? symbols = .ok (none, c.skipSpaces.reader) := by
  have hhere : c.skipSpaces.Tracked := h.advanceBy _
  have hend : c.skipSpaces.ahead = [] := by
    rw [(readRun?_none hrun).2, toEnd_ahead]
  rw [Reader.readRun?, h.reader_skipSpaces]
  simp [bind, Except.bind, hhere.hasMore_of_end hend]

theorem Tracked.reader_readRun?_some (h : c.Tracked) {run : Run} {after : Cursor}
    (hrun : c.readRun? symbols = some (run, after)) :
    c.reader.readRun? symbols = .ok (some run, after.reader) := by
  have hhere : c.skipSpaces.Tracked := h.advanceBy _
  obtain ⟨x, rest, hx⟩ := List.exists_cons_of_ne_nil (readRun?_piece hrun).1
  rw [Reader.readRun?, h.reader_skipSpaces]
  simp [bind, Except.bind, hhere.hasMore hx, hhere.reader_runHere hrun]

theorem Tracked.of_readRun? (h : c.Tracked) {run : Run} {after : Cursor}
    (hrun : c.readRun? symbols = some (run, after)) : after.Tracked := by
  obtain ⟨-, j, -, rfl⟩ := readRun?_advanceBy hrun
  exact h.advanceBy j

end Cursor

/-- What is read is passed, so a reading by index comes to an end. -/
theorem Reader.readRun?_left {symbols : SymbolSet} {r after : Reader} {run : Run}
    (h : r.readRun? symbols = .ok (some run, after)) : after.left < r.left := by
  have htracked := Cursor.tracked_of_reader r
  rw [← r.cursor_reader] at h ⊢
  cases hrun : r.cursor.readRun? symbols with
  | none =>
    rw [htracked.reader_readRun?_none hrun] at h
    cases h
  | some p =>
    rw [htracked.reader_readRun?_some hrun] at h
    cases h
    rw [htracked.left, (htracked.of_readRun? hrun).left]
    exact Cursor.readRun?_length hrun

end ExprLex
