import ExprLex.Event
import ExprLex.Run
import ExprLex.Settings

/-!
# Sessions

A session reads one text under fixed settings. `next` reads runs until one of them is a token or
a fault, and gives nothing once the text is exhausted; the session may go on after a fault.
`drain` takes tokens until the text ends or a fault stops it. Warnings and events are kept in
the order in which they arise.
-/
namespace ExprLex

structure Session where
  settings : Settings
  cursor : Cursor
  warnings : Array (Placed Warning)
  log : Array (Placed Event)
deriving DecidableEq

inductive Outcome
  | token (token : Placed Token)
  | fault (fault : Placed Fault)
deriving DecidableEq

namespace Session

def ofText (settings : Settings) (text : List Char) : Session :=
  ⟨settings, .ofText text, #[], #[]⟩

def locate (s : Session) (p : Position) : Location := p.inFile s.settings.file

def record (s : Session) (start : Position) (e : Event) : Session :=
  { s with log := s.log.push ⟨e, start⟩ }

def warn (s : Session) (start : Position) (w : Warning) : Session :=
  { s with warnings := s.warnings.push ⟨w, start⟩ }.record start .unterminated

def moveTo (s : Session) (c : Cursor) : Session := { s with cursor := c }

/-- The session once a run has been read and before it is judged. -/
def accept (s : Session) (r : Run) (after : Cursor) : Session :=
  match r.warning? s.settings.strict with
  | some w => (s.moveTo after).warn r.start w
  | none => s.moveTo after

@[simp] theorem record_cursor (s : Session) (start : Position) (e : Event) :
    (s.record start e).cursor = s.cursor := rfl

@[simp] theorem accept_cursor (s : Session) (r : Run) (after : Cursor) :
    (s.accept r after).cursor = after := by
  unfold accept
  split <;> rfl

def next (s : Session) : Option Outcome × Session :=
  match _h : s.cursor.readRun? s.settings.symbols with
  | none => (none, s.moveTo s.cursor.skipSpaces)
  | some (r, after) =>
    match r.verdict s.settings.strict with
    | .nothing => next ((s.accept r after).record r.start .discarded)
    | .token t => (some (.token ⟨t, r.start⟩), (s.accept r after).record r.start (.scanned t))
    | .fault f => (some (.fault ⟨f, r.start⟩), s.accept r after)
termination_by s.cursor.ahead.length
decreasing_by
  simp only [record_cursor, accept_cursor]
  exact Cursor.readRun?_length _h

theorem next_length {s after : Session} {o : Outcome} (h : s.next = (some o, after)) :
    after.cursor.ahead.length < s.cursor.ahead.length := by
  fun_induction next s with
  | case1 => cases h
  | case2 s r c hread hv ih =>
    have := ih h
    simp only [record_cursor, accept_cursor] at this
    exact Nat.lt_trans this (Cursor.readRun?_length hread)
  | case3 s r c hread t hv =>
    cases h
    simpa using Cursor.readRun?_length hread
  | case4 s r c hread f hv =>
    cases h
    simpa using Cursor.readRun?_length hread

end Session

/-- The tokens that were read, the fault that stopped the reading, if any, and the session as it
is left. -/
structure Scan where
  tokens : List (Placed Token)
  fault : Option (Placed Fault)
  session : Session
deriving DecidableEq

namespace Session

def drainAfter (sofar : List (Placed Token)) (s : Session) : Scan :=
  match _h : s.next with
  | (none, after) => ⟨sofar.reverse, none, after⟩
  | (some (.fault f), after) => ⟨sofar.reverse, some f, after⟩
  | (some (.token t), after) => drainAfter (t :: sofar) after
termination_by s.cursor.ahead.length
decreasing_by exact next_length _h

def drain (s : Session) : Scan := s.drainAfter []

end Session

def scan (settings : Settings) (text : List Char) : Scan := (Session.ofText settings text).drain

def tokens (settings : Settings) (text : List Char) :
    Except (Placed Fault) (List (Placed Token)) :=
  let result := scan settings text
  match result.fault with
  | some f => .error f
  | none => .ok result.tokens

end ExprLex
