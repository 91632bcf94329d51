import ExprLex.Proofs.Bookkeeping

/-!
# Taking outcomes

The outcomes of a text are taken one at a time, in two ways that tell the end differently, or all
that are left at once. A call that takes one moves the cursor on; at the end of the text nothing
moves any more. However the calls are mixed, they take the outcomes in the one order in which they
come up; only when a fault stops a call that takes all, the tokens before the fault are taken and
not told.
-/
namespace ExprLex
open Text

inductive Take
  | next
  | pull
  | drain
deriving DecidableEq

namespace Take

def call : Take → Call
  | next => .next
  | pull => .pull
  | drain => .drain

def answerAtEnd : Take → Except Failure Answer
  | next => .ok .nothing
  | pull => .error .exhausted
  | drain => .ok (.tokens [])

/-- The answer of a call that takes the first outcomes and leaves others. Of a drain that a fault
stops, only the fault is told. -/
inductive Answers : Take → List Outcome → List Outcome → Except Failure Answer → Prop
  | next (o : Outcome) (left : List Outcome) : Answers next [o] left o.answer
  | nextAtEnd : Answers next [] [] (.ok .nothing)
  | pull (o : Outcome) (left : List Outcome) : Answers pull [o] left o.answer
  | pullAtEnd : Answers pull [] [] (.error .exhausted)
  | drain (ts : List (Placed Token)) : Answers drain (ts.map .token) [] (.ok (.tokens ts))
  | drainToFault (ts : List (Placed Token)) (f : Placed Fault) (left : List Outcome) :
      Answers drain (ts.map .token ++ [.fault f]) left (.error (.fault f))

/-- The answers of calls one after another, which take some outcomes and leave others. -/
inductive AnswerAll : List Take → List Outcome → List Outcome → List (Except Failure Answer) → Prop
  | nil (left : List Outcome) : AnswerAll [] [] left []
  | cons {take : Take} {takes : List Take} {first rest left : List Outcome}
      {a : Except Failure Answer} {answers : List (Except Failure Answer)} :
      take.Answers first (rest ++ left) a → AnswerAll takes rest left answers →
      AnswerAll (take :: takes) (first ++ rest) left (a :: answers)

end Take

namespace Session

variable {s after : Session} {text : List Char}

def answers (s : Session) (calls : List Call) : List (Except Failure Answer) :=
  (s.transcript calls).map Step.result

theorem answers_cons (s : Session) (c : Call) (calls : List Call) :
    s.answers (c :: calls) = (s.answer c).1 :: (s.answer c).2.answers calls := rfl

section AtEnd

theorem ahead_of_next_none (h : s.next = (none, after)) : after.cursor.ahead = [] := by
  rw [(next_none h).2.1, Cursor.toEnd_ahead]

theorem next_of_end (h : s.cursor.ahead = []) : s.next = (none, s) := by
  have hruns : s.runs = [] := by rw [runs, Cursor.runs, h, runsFrom_nil]
  rw [next_of_runs_nil hruns, Cursor.toEnd_of_end h]
  rfl

theorem drain_of_end (h : s.cursor.ahead = []) : s.drain = ⟨[], none, s⟩ := by
  rw [drain, drainAfter]
  split <;> simp_all [next_of_end h]

theorem answer_of_end (h : s.cursor.ahead = []) (take : Take) :
    s.answer take.call = (take.answerAtEnd, s) := by
  cases take with
  | next =>
    rw [Take.call, answer, answerNext_eq, next_of_end h]
    rfl
  | pull =>
    rw [Take.call, answer, answerPull_eq, next_of_end h]
    rfl
  | drain =>
    simp only [Take.call, answer, answerDrain, drain_of_end h]
    rfl

theorem answers_of_end (h : s.cursor.ahead = []) (takes : List Take) :
    s.afterCalls (takes.map Take.call) = s ∧
      s.answers (takes.map Take.call) = takes.map Take.answerAtEnd := by
  induction takes with
  | nil => exact ⟨rfl, rfl⟩
  | cons take takes ih =>
    obtain ⟨hafter, hanswers⟩ := ih
    rw [List.map_cons, afterCalls_cons, answers_cons, answer_of_end h, hafter, hanswers]
    exact ⟨rfl, rfl⟩

end AtEnd

theorem outcomes_of_next_none (h : s.next = (none, after)) : s.outcomes.1 = [] := by
  rw [outcomes]
  split <;> simp_all

theorem outcomes_of_next_some {o : Outcome} (h : s.next = (some o, after)) :
    s.outcomes.1 = o :: after.outcomes.1 := by
  rw [outcomes]
  split <;> simp_all

theorem outcomes_of_end (h : s.cursor.ahead = []) : s.outcomes.1 = [] :=
  outcomes_of_next_none (next_of_end h)

/-- What a drain takes: tokens, and the fault that stops it if there is one. -/
theorem drainAfter_outcomes (sofar : List (Placed Token)) (s : Session) :
    let result := s.drainAfter sofar
    ∃ ts, result.tokens = sofar.reverse ++ ts ∧
      match result.fault with
      | none => s.outcomes.1 = ts.map .token ∧ result.session.outcomes.1 = []
      | some f => s.outcomes.1 = ts.map .token ++ .fault f :: result.session.outcomes.1 := by
  fun_induction drainAfter sofar s with
  | case1 sofar s after h =>
    refine ⟨[], by simp, outcomes_of_next_none h, ?_⟩
    exact outcomes_of_end (ahead_of_next_none h)
  | case2 sofar s f after h => exact ⟨[], by simp, outcomes_of_next_some h⟩
  | case3 sofar s t after h ih =>
    obtain ⟨ts, htokens, hrest⟩ := ih
    refine ⟨t :: ts, by simpa using htokens, ?_⟩
    rw [outcomes_of_next_some h]
    split at hrest
    · exact ⟨congrArg (List.cons (.token t)) hrest.1, hrest.2⟩
    · exact congrArg (List.cons (.token t)) hrest

theorem next_takes (s : Session) :
    (∃ o, s.next.1 = some o ∧ s.outcomes.1 = o :: s.next.2.outcomes.1) ∨
      s.next.1 = none ∧ s.outcomes.1 = [] ∧ s.next.2.outcomes.1 = [] := by
  cases h : s.next with
  | mk outcome after =>
    cases outcome with
    | none =>
      exact .inr ⟨rfl, outcomes_of_next_none h, outcomes_of_end (ahead_of_next_none h)⟩
    | some o => exact .inl ⟨o, rfl, outcomes_of_next_some h⟩

theorem answer_take (s : Session) (take : Take) :
    let left := (s.answer take.call).2.outcomes.1
    ∃ taken, take.Answers taken left (s.answer take.call).1 ∧ s.outcomes.1 = taken ++ left := by
  cases take with
  | next =>
    simp only [Take.call, answer, answerNext_eq]
    rcases s.next_takes with ⟨o, ho, hsplit⟩ | ⟨hnone, hall, hleft⟩
    · rw [ho]
      exact ⟨[o], .next o _, hsplit⟩
    · rw [hnone, hleft]
      exact ⟨[], .nextAtEnd, hall⟩
  | pull =>
    simp only [Take.call, answer, answerPull_eq]
    rcases s.next_takes with ⟨o, ho, hsplit⟩ | ⟨hnone, hall, hleft⟩
    · rw [ho]
      exact ⟨[o], .pull o _, hsplit⟩
    · rw [hnone, hleft]
      exact ⟨[], .pullAtEnd, hall⟩
  | drain =>
    obtain ⟨ts, htokens, hrest⟩ := drainAfter_outcomes [] s
    simp only [Take.call, answer, answerDrain, drain]
    cases hfault : (s.drainAfter []).fault with
    | none =>
      rw [hfault] at hrest
      obtain ⟨hall, hleft⟩ := hrest
      rw [htokens, hleft]
      exact ⟨ts.map .token, .drain ts, by rw [hall, List.append_nil]⟩
    | some f =>
      rw [hfault] at hrest
      exact ⟨_, .drainToFault ts f _, by rw [hrest, List.append_cons]⟩

theorem answers_takes (s : Session) (takes : List Take) :
    let left := (s.afterCalls (takes.map Take.call)).outcomes.1
    ∃ taken, Take.AnswerAll takes taken left (s.answers (takes.map Take.call)) ∧
      s.outcomes.1 = taken ++ left := by
  induction takes generalizing s with
  | nil => exact ⟨[], .nil _, rfl⟩
  | cons take takes ih =>
    obtain ⟨first, hfirst, hsplit⟩ := s.answer_take take
    obtain ⟨rest, hrest, hleft⟩ := ih (s.answer take.call).2
    rw [hleft] at hfirst hsplit
    refine ⟨first ++ rest, .cons hfirst hrest, ?_⟩
    rw [hsplit, List.append_assoc]
    rfl

end Session

section Count

variable {symbols : SymbolSet} {strict fresh : Bool} {start : Position} {text : List Char}

/-- A piece whose run has an outcome has more to it than blanks. -/
theorem Piece.not_blank_of_outcome? {o : Outcome} (hne : text ≠ [])
    (h : ((first symbols fresh text).run start).outcome? strict = some o) :
    0 < (first symbols fresh text).written.countP (!isBlank ·) := by
  rw [List.countP_pos_iff]
  by_cases hquote : text.head? = some '"'
  · obtain ⟨tail, rfl⟩ := List.head?_eq_some_iff.mp hquote
    exact ⟨'"', by simp [first_quote, quoted_written], rfl⟩
  · rw [first_bare symbols fresh hquote] at h ⊢
    have htext : (bare symbols fresh text).text ≠ [] := by
      intro hnil
      simp [Run.outcome?, Run.verdict, run, bare_form, hnil, Verdict.ofBare] at h
    obtain ⟨x, hx⟩ := List.exists_mem_of_ne_nil _ htext
    refine ⟨x, by simp [bare_written, hx], ?_⟩
    rw [bare_text_not_blank symbols fresh text x hx]
    rfl

theorem outcomes_runsFrom_length_le :
    ((runsFrom symbols fresh start text).filterMap (Run.outcome? strict)).length ≤
      text.countP (!isBlank ·) := by
  fun_induction runsFrom symbols fresh start text with
  | case1 => exact le_rfl
  | case2 fresh start rest ih =>
    rw [List.countP_cons]
    exact ih.trans (Nat.le_add_right _ _)
  | case3 fresh start x rest hx k ih =>
    have hsplit := Piece.first_written_append symbols fresh (x :: rest)
    have hcount : (x :: rest).countP (!isBlank ·) = k.written.countP (!isBlank ·) +
        ((x :: rest).drop k.written.length).countP (!isBlank ·) := by
      rw [← List.countP_append, hsplit]
    rw [List.filterMap_cons, hcount]
    split
    · exact ih.trans (Nat.le_add_left _ _)
    · rename_i o ho
      have hpos : 0 < k.written.countP (!isBlank ·) :=
        Piece.not_blank_of_outcome? (List.cons_ne_nil x rest) ho
      refine (Nat.succ_le_succ ih).trans ?_
      omega

end Count

/-- After any calls, the next outcome moves the cursor on; where there is none, the cursor is at the
end, and no call that takes outcomes finds any or changes anything. There are at most as many
outcomes as characters that are not blank, and calls of all kinds take them in the order in which
they come up one at a time. -/
theorem takes_in_order (settings : Settings) (text : List Char) (calls : List Call) :
    let s := (Session.ofText settings text).afterCalls calls
    (match s.next with
      | (some _, after) => s.cursor.position.offset < after.cursor.position.offset
      | (none, after) => after.cursor.position.offset = text.length ∧ ∀ takes : List Take,
          after.afterCalls (takes.map Take.call) = after ∧
          after.answers (takes.map Take.call) = takes.map Take.answerAtEnd) ∧
    s.outcomes.1.length ≤ text.countP (!isBlank ·) ∧
    ∀ takes : List Take,
      let left := (s.afterCalls (takes.map Take.call)).outcomes.1
      ∃ taken, Take.AnswerAll takes taken left (s.answers (takes.map Take.call)) ∧
        s.outcomes.1 = taken ++ left := by
  intro s
  have hsound : s.Sound text :=
    (Session.afterCalls_onward (Session.ofText_sound settings text) calls).sound
  refine ⟨?_, ?_, s.answers_takes⟩
  · obtain ⟨honward, -⟩ := Session.next_onward hsound
    have hbefore := hsound.offset_add
    split
    · rename_i o after hnext
      rw [hnext] at honward
      have hafter : after.cursor.position.offset + after.cursor.ahead.length = text.length :=
        honward.sound.offset_add
      have hlength := Session.next_length hnext
      omega
    · rename_i after hnext
      rw [hnext] at honward
      have hend := Session.ahead_of_next_none hnext
      have hafter : after.cursor.position.offset + after.cursor.ahead.length = text.length :=
        honward.sound.offset_add
      rw [hend] at hafter
      exact ⟨hafter, Session.answers_of_end hend⟩
  · have hahead : s.cursor.ahead.countP (!isBlank ·) ≤ text.countP (!isBlank ·) := by
      obtain ⟨n, -, hcursor⟩ := hsound.cursor
      rw [hcursor]
      exact (List.drop_sublist n text).countP_le
    rw [s.outcomes_eq.1]
    exact outcomes_runsFrom_length_le.trans hahead

end ExprLex
