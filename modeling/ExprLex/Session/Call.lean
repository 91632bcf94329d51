import ExprLex.Session

/-!
# Calls on a session

Everything a consumer can ask of a session, from the next token down to the single steps that
reading is made of. A call gives an answer or fails, and leaves a session either way, on which
the next call is made; `transcript` lists what a sequence of calls brings about.
-/
namespace ExprLex

inductive Call
  /-- The next token, or nothing at the end. -/
  | next
  /-- The next token; the end is a failure. -/
  | pull
  /-- All remaining tokens. -/
  | drain
  | hasMore
  | hasWarnings
  | warnings
  | peek (distance : Nat)
  | advance
  | skipSpaces
  | location
  | fresh
  /-- Whether a dash at the cursor would belong to the sign of a run that begins like this. -/
  | continuesSign (sofar : List Char)
  | bareRun
  /-- Reads as if an opening quote had just been passed. -/
  | quotedRun
  /-- The token of a run at the cursor, from its text alone. -/
  | classify (text : List Char) (inQuotes : Bool)
  /-- The double that a text names. -/
  | numeralValue (text : List Char)
deriving DecidableEq

inductive Answer
  | nothing
  | token (token : Placed Token)
  | tokens (tokens : List (Placed Token))
  | flag (value : Bool)
  | warnings (warnings : List (Placed Warning))
  | char (char : Char)
  | place (position : Position)
  | text (text : List Char)
  | number (value : Binary64)
deriving DecidableEq

inductive Failure
  | fault (fault : Placed Fault)
  | exhausted
  | emptyRun
  /-- A text with a digit that names no double. -/
  | notNumber (text : String)
deriving DecidableEq

namespace Session

def answerNext (s : Session) : Except Failure Answer × Session :=
  match s.next with
  | (none, after) => (.ok .nothing, after)
  | (some (.token t), after) => (.ok (.token t), after)
  | (some (.fault f), after) => (.error (.fault f), after)

def answerPull (s : Session) : Except Failure Answer × Session :=
  match s.answerNext with
  | (.ok .nothing, after) => (.error .exhausted, after)
  | r => r

def answerDrain (s : Session) : Except Failure Answer × Session :=
  let result := s.drain
  match result.fault with
  | none => (.ok (.tokens result.tokens), result.session)
  | some f => (.error (.fault f), result.session)

def answerQuoted (s : Session) : Except Failure Answer × Session :=
  let start := s.cursor.position
  let (r, after) := s.cursor.quotedRun start
  match r.verdict s.settings.strict with
  | .fault f => (.error (.fault ⟨f, start⟩), s.accept r after)
  | _ => (.ok (.text r.text), s.accept r after)

def answerBare (s : Session) : Except Failure Answer × Session :=
  let (r, after) := s.cursor.bareRun s.settings.symbols
  (.ok (.text r.text), s.moveTo after)

def classify (start : Position) (text : List Char) (inQuotes : Bool) : Except Failure Answer :=
  if inQuotes then .ok (.token ⟨.string (String.ofList text), start⟩)
  else
    match Verdict.ofBare text with
    | .nothing => .error .emptyRun
    | .token t => .ok (.token ⟨t, start⟩)
    | .fault f => .error (.fault ⟨f, start⟩)

def numeralValue (start : Position) (text : List Char) : Except Failure Answer :=
  if Numeral.hasDigit text then
    match Binary64.ofText? text with
    | some v => .ok (.number v)
    | none => .error (.notNumber (String.ofList text))
  else .error (.fault ⟨.digitlessNumeral (String.ofList text), start⟩)

def answer (s : Session) : Call → Except Failure Answer × Session
  | .next => s.answerNext
  | .pull => s.answerPull
  | .drain => s.answerDrain
  | .hasMore => (.ok (.flag (!s.cursor.atEnd)), s)
  | .hasWarnings => (.ok (.flag (!s.warnings.isEmpty)), s)
  | .warnings => (.ok (.warnings s.warnings.toList), s)
  | .peek n => (.ok (.char (s.cursor.peek n)), s)
  | .advance => (.ok .nothing, s.moveTo s.cursor.advance)
  | .skipSpaces => (.ok .nothing, s.moveTo s.cursor.skipSpaces)
  | .location => (.ok (.place s.cursor.position), s)
  | .fresh => (.ok (.flag (s.cursor.fresh s.settings.symbols)), s)
  | .continuesSign sofar =>
    (.ok (.flag (s.cursor.continuesSign s.settings.symbols sofar.getLast?)), s)
  | .bareRun => s.answerBare
  | .quotedRun => s.answerQuoted
  | .classify text inQuotes => (classify s.cursor.position text inQuotes, s)
  | .numeralValue text => (numeralValue s.cursor.position text, s)

/-- What a call brings about: its answer, the events it gives rise to, and the position and the
number of warnings it leaves. -/
structure Step where
  result : Except Failure Answer
  events : List (Placed Event)
  position : Position
  warnings : Nat

def step (s : Session) (c : Call) : Step × Session :=
  let noted := s.log.size
  let (result, after) := s.answer c
  (⟨result, (after.log.extract noted after.log.size).toList, after.cursor.position,
    after.warnings.size⟩, after)

def transcript (s : Session) : List Call → List Step
  | [] => []
  | c :: rest =>
    let (now, after) := s.step c
    now :: after.transcript rest

def afterCalls (s : Session) (calls : List Call) : Session :=
  calls.foldl (fun s c => (s.answer c).2) s

end Session
end ExprLex
