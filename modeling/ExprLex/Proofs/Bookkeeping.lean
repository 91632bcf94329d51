import Mathlib.Data.List.Infix
import ExprLex.Proofs.Findings
import ExprLex.Session.Call

/-!
# What calls keep

Whatever is asked of a session, in whatever order, and whether it is answered or fails: the cursor
stands somewhere in the text and its position counts the text behind it, it does not move back, and
warnings are only added at the end. Every place that is told has the line and the column that the
text before it gives, and questions leave the cursor and the warnings alone.
-/
namespace ExprLex

/-- A position that the text in front of it leads to. -/
def Position.IsIn (text : List Char) (p : Position) : Prop :=
  p.offset ≤ text.length ∧ p = .ofRead (text.take p.offset)

theorem Position.ofRead_isIn {text read : List Char} (h : read <+: text) :
    (Position.ofRead read).IsIn text := by
  refine ⟨h.length_le, ?_⟩
  change _ = Position.ofRead (text.take read.length)
  rw [← List.prefix_iff_eq_take.mp h]

namespace Cursor

/-- The cursor in a text with so many characters behind it. -/
def inText (text : List Char) (n : Nat) : Cursor :=
  ⟨(text.take n).reverse, text.drop n, .ofRead (text.take n)⟩

variable {text : List Char} {n : Nat}

theorem inText_offset (h : n ≤ text.length) : (inText text n).position.offset = n := by
  simp [inText, Position.ofRead, h]

theorem inText_isIn (h : n ≤ text.length) : (inText text n).position.IsIn text := by
  have hoffset := inText_offset h
  refine ⟨hoffset.symm ▸ h, ?_⟩
  rw [hoffset]
  rfl

theorem inText_advance (h : n < text.length) :
    (inText text n).advance = inText text (n + 1) := by
  have hahead : (inText text n).ahead = text[n] :: text.drop (n + 1) :=
    List.drop_eq_getElem_cons h
  rw [advance_of_ahead hahead]
  simp only [inText, List.take_add_one, List.getElem?_eq_getElem h, Option.toList_some,
    Position.ofRead_concat, List.reverse_append, List.reverse_singleton, List.singleton_append]

theorem inText_advanceBy (h : n ≤ text.length) (k : Nat) :
    ∃ m, n ≤ m ∧ m ≤ text.length ∧ (inText text n).advanceBy k = inText text m := by
  induction k generalizing n with
  | zero => exact ⟨n, le_rfl, h, rfl⟩
  | succ k ih =>
    rw [advanceBy]
    rcases Nat.lt_or_eq_of_le h with hlt | heq
    · rw [inText_advance hlt]
      obtain ⟨m, hle, hm, hstop⟩ := ih hlt
      exact ⟨m, Nat.le_of_succ_le hle, hm, hstop⟩
    · have hend : (inText text n).ahead = [] := List.drop_eq_nil_of_le heq.ge
      rw [advance_of_end hend]
      exact ih h

theorem readRun?_advanceBy {symbols : SymbolSet} {c after : Cursor} {r : Run}
    (h : c.readRun? symbols = some (r, after)) :
    ∃ i j, r.start = (c.advanceBy i).position ∧ after = c.advanceBy j := by
  obtain ⟨-, rfl, rfl⟩ := readRun?_piece h
  exact ⟨_, _, rfl, (advanceBy_add _ _ c).symm⟩

end Cursor

namespace Call

/-- A call that only asks, be it about the session or about a run that is given with it. -/
def isQuery : Call → Bool
  | next | pull | drain | advance | skipSpaces | bareRun | quotedRun => false
  | hasMore | hasWarnings | warnings | peek _ | location | fresh | continuesSign _ | classify _ _
  | numeralValue _ => true

end Call

def Answer.places : Answer → List Position
  | token t => [t.start]
  | tokens ts => ts.map Placed.start
  | warnings ws => ws.map Placed.start
  | place p => [p]
  | nothing | flag _ | char _ | text _ | number _ => []

def Failure.places : Failure → List Position
  | fault f => [f.start]
  | exhausted | emptyRun | notNumber _ => []

/-- The positions that a caller is told. -/
def placesTold : Except Failure Answer → List Position
  | .ok a => a.places
  | .error e => e.places

def Outcome.answer : Outcome → Except Failure Answer
  | token t => .ok (.token t)
  | fault f => .error (.fault f)

theorem Outcome.places_answer (o : Outcome) : placesTold o.answer = [o.start] := by
  cases o <;> rfl

namespace Session

theorem answerNext_eq (s : Session) :
    s.answerNext = (s.next.1.elim (.ok .nothing) Outcome.answer, s.next.2) := by
  simp only [answerNext]
  split <;> rename_i h <;> rw [h] <;> rfl

theorem answerPull_eq (s : Session) :
    s.answerPull = (s.next.1.elim (.error .exhausted) Outcome.answer, s.next.2) := by
  simp only [answerPull, answerNext_eq]
  cases s.next.1 with
  | none => rfl
  | some o => cases o <;> rfl

theorem afterCalls_cons (s : Session) (c : Call) (calls : List Call) :
    s.afterCalls (c :: calls) = (s.answer c).2.afterCalls calls := rfl

theorem transcript_cons (s : Session) (c : Call) (calls : List Call) :
    s.transcript (c :: calls) = (s.step c).1 :: (s.answer c).2.transcript calls := rfl

/-- The session is in order: it stands in the text, and it has warned of places in the text only,
and of none when it is strict. -/
structure Sound (text : List Char) (s : Session) : Prop where
  cursor : ∃ n ≤ text.length, s.cursor = .inText text n
  warnings : ∀ w ∈ s.warnings.toList, w.start.IsIn text
  strict : s.settings.strict = true → s.warnings = #[]

/-- The session `s` has gone on in good order to become `after`. -/
structure Onward (text : List Char) (s after : Session) : Prop where
  sound : after.Sound text
  settings : after.settings = s.settings
  offset : s.cursor.position.offset ≤ after.cursor.position.offset
  warnings : s.warnings.toList <+: after.warnings.toList

variable {text : List Char} {s after : Session}

theorem ofText_sound (settings : Settings) (text : List Char) :
    (ofText settings text).Sound text where
  cursor := ⟨0, Nat.zero_le _, rfl⟩
  warnings := by simp [ofText]
  strict := fun _ => rfl

theorem Sound.isIn (h : s.Sound text) : s.cursor.position.IsIn text := by
  obtain ⟨n, hn, hcursor⟩ := h.cursor
  rw [hcursor]
  exact Cursor.inText_isIn hn

theorem Sound.offset_add (h : s.Sound text) :
    s.cursor.position.offset + s.cursor.ahead.length = text.length := by
  obtain ⟨n, hn, hcursor⟩ := h.cursor
  rw [hcursor, Cursor.inText_offset hn, Cursor.inText, List.length_drop]
  omega

theorem Sound.isIn_advanceBy (h : s.Sound text) (k : Nat) :
    (s.cursor.advanceBy k).position.IsIn text := by
  obtain ⟨n, hn, hcursor⟩ := h.cursor
  obtain ⟨m, -, hm, hstop⟩ := Cursor.inText_advanceBy hn k
  rw [hcursor, hstop]
  exact Cursor.inText_isIn hm

theorem Sound.onward (h : s.Sound text) : s.Onward text s :=
  ⟨h, rfl, le_rfl, List.prefix_rfl⟩

theorem Onward.trans {mid : Session} (h : s.Onward text mid) (h' : mid.Onward text after) :
    s.Onward text after where
  sound := h'.sound
  settings := h'.settings.trans h.settings
  offset := h.offset.trans h'.offset
  warnings := h.warnings.trans h'.warnings

theorem moveTo_onward (h : s.Sound text) (k : Nat) :
    s.Onward text (s.moveTo (s.cursor.advanceBy k)) := by
  obtain ⟨n, hn, hcursor⟩ := h.cursor
  obtain ⟨m, hle, hm, hstop⟩ := Cursor.inText_advanceBy hn k
  refine ⟨⟨⟨m, hm, ?_⟩, h.warnings, h.strict⟩, rfl, ?_, List.prefix_rfl⟩
  · rw [← hstop, ← hcursor]
    rfl
  · change s.cursor.position.offset ≤ (s.cursor.advanceBy k).position.offset
    rw [hcursor, hstop, Cursor.inText_offset hn, Cursor.inText_offset hm]
    exact hle

theorem record_onward (h : s.Sound text) (start : Position) (e : Event) :
    s.Onward text (s.record start e) :=
  ⟨⟨h.cursor, h.warnings, h.strict⟩, rfl, le_rfl, List.prefix_rfl⟩

theorem warn_onward (h : s.Sound text) {start : Position} (hstart : start.IsIn text)
    (hlenient : s.settings.strict = false) (w : Warning) : s.Onward text (s.warn start w) := by
  refine ⟨⟨h.cursor, ?_, ?_⟩, rfl, le_rfl, ?_⟩
  · intro x hx
    simp only [warn, record, Array.toList_push, List.mem_append, List.mem_singleton] at hx
    rcases hx with hx | rfl
    · exact h.warnings x hx
    · exact hstart
  · intro hstrict
    change s.settings.strict = true at hstrict
    rw [hlenient] at hstrict
    cases hstrict
  · simp [warn, record]

theorem accept_onward (h : s.Sound text) {r : Run} (hstart : r.start.IsIn text) (k : Nat) :
    s.Onward text (s.accept r (s.cursor.advanceBy k)) := by
  have hmoved := moveTo_onward h k
  simp only [accept]
  split
  · rename_i w hw
    have hlenient : s.settings.strict = false := by
      simp only [Run.warning?] at hw
      split at hw
      · rename_i hform
        exact hform.2
      · cases hw
    exact hmoved.trans (warn_onward hmoved.sound hstart hlenient w)
  · exact hmoved

theorem readRun?_onward (h : s.Sound text) {r : Run} {c : Cursor}
    (hread : s.cursor.readRun? s.settings.symbols = some (r, c)) :
    s.Onward text (s.accept r c) ∧ r.start.IsIn text := by
  obtain ⟨i, j, hstart, rfl⟩ := Cursor.readRun?_advanceBy hread
  have hin : r.start.IsIn text := hstart ▸ h.isIn_advanceBy i
  exact ⟨accept_onward h hin j, hin⟩

theorem judge_onward (h : s.Sound text) {r : Run} {c : Cursor}
    (hread : s.cursor.readRun? s.settings.symbols = some (r, c)) :
    s.Onward text (s.judge r c) ∧ r.start.IsIn text := by
  obtain ⟨haccept, hin⟩ := readRun?_onward h hread
  refine ⟨?_, hin⟩
  simp only [judge]
  split
  · exact haccept.trans (record_onward haccept.sound r.start _)
  · exact haccept.trans (record_onward haccept.sound r.start _)
  · exact haccept

theorem next_onward (h : s.Sound text) :
    s.Onward text s.next.2 ∧ ∀ o ∈ s.next.1, o.start.IsIn text := by
  induction s using next_induct with
  | exhausted s hread hnext =>
    rw [hnext]
    exact ⟨moveTo_onward h _, by simp⟩
  | idle s r c hread ho hnext ih =>
    obtain ⟨hfirst, -⟩ := judge_onward h hread
    obtain ⟨hrest, hplace⟩ := ih hfirst.sound
    rw [hnext]
    exact ⟨hfirst.trans hrest, hplace⟩
  | found s r c o hread ho hnext =>
    obtain ⟨hfirst, hin⟩ := judge_onward h hread
    rw [hnext]
    refine ⟨hfirst, ?_⟩
    rintro _ ⟨⟩
    rw [Run.outcome?_start ho]
    exact hin

theorem drainAfter_onward (h : s.Sound text) {sofar : List (Placed Token)}
    (hsofar : ∀ t ∈ sofar, t.start.IsIn text) :
    s.Onward text (s.drainAfter sofar).session ∧
      (∀ t ∈ (s.drainAfter sofar).tokens, t.start.IsIn text) ∧
      ∀ f ∈ (s.drainAfter sofar).fault, f.start.IsIn text := by
  fun_induction drainAfter sofar s with
  | case1 sofar s after hnext =>
    obtain ⟨honward, -⟩ := next_onward h
    rw [hnext] at honward
    exact ⟨honward, by simpa using hsofar, by simp⟩
  | case2 sofar s f after hnext =>
    obtain ⟨honward, hplace⟩ := next_onward h
    rw [hnext] at honward hplace
    refine ⟨honward, by simpa using hsofar, ?_⟩
    rintro g ⟨⟩
    exact hplace _ rfl
  | case3 sofar s t after hnext ih =>
    obtain ⟨honward, hplace⟩ := next_onward h
    rw [hnext] at honward hplace
    have hall : ∀ x ∈ t :: sofar, x.start.IsIn text :=
      List.forall_mem_cons.mpr ⟨hplace _ rfl, hsofar⟩
    obtain ⟨hrest, htold⟩ := ih honward.sound hall
    exact ⟨honward.trans hrest, htold⟩

theorem outcome_places (h : s.Sound text) {atEnd : Except Failure Answer}
    (hend : placesTold atEnd = []) :
    ∀ p ∈ placesTold (s.next.1.elim atEnd Outcome.answer), p.IsIn text := by
  obtain ⟨-, hplace⟩ := next_onward h
  cases hnext : s.next.1 with
  | none => simp [hend]
  | some o => simpa [o.places_answer] using hplace o hnext

theorem answerNext_onward (h : s.Sound text) : s.Onward text s.answerNext.2 ∧
    ∀ p ∈ placesTold s.answerNext.1, p.IsIn text := by
  rw [answerNext_eq]
  exact ⟨(next_onward h).1, outcome_places h rfl⟩

theorem answerPull_onward (h : s.Sound text) : s.Onward text s.answerPull.2 ∧
    ∀ p ∈ placesTold s.answerPull.1, p.IsIn text := by
  rw [answerPull_eq]
  exact ⟨(next_onward h).1, outcome_places h rfl⟩

theorem answerDrain_onward (h : s.Sound text) : s.Onward text s.answerDrain.2 ∧
    ∀ p ∈ placesTold s.answerDrain.1, p.IsIn text := by
  have hnone : ∀ t ∈ ([] : List (Placed Token)), t.start.IsIn text := by simp
  obtain ⟨honward, htokens, hfault⟩ := drainAfter_onward h hnone
  simp only [answerDrain, drain]
  split
  · exact ⟨honward, by simpa [placesTold, Answer.places] using htokens⟩
  · rename_i f hf
    exact ⟨honward, by simpa [placesTold, Failure.places] using hfault f hf⟩

theorem answerQuoted_onward (h : s.Sound text) : s.Onward text s.answerQuoted.2 ∧
    ∀ p ∈ placesTold s.answerQuoted.1, p.IsIn text := by
  have hread := Cursor.quotedRun_eq (c := s.cursor) rfl s.cursor.position
  simp only [answerQuoted, hread]
  have honward := accept_onward h (r := (Piece.quoted s.cursor.ahead).run s.cursor.position) h.isIn
    ((Piece.quoted s.cursor.ahead).text ++ (Piece.quoted s.cursor.ahead).closing).length
  split
  · exact ⟨honward, by simpa [placesTold, Failure.places] using h.isIn⟩
  · exact ⟨honward, by simp [placesTold, Answer.places]⟩

theorem classify_places {start : Position} (h : start.IsIn text) (run : List Char)
    (inQuotes : Bool) : ∀ p ∈ placesTold (classify start run inQuotes), p.IsIn text := by
  simp only [classify]
  split
  · simpa [placesTold, Answer.places] using h
  · split
    · simp [placesTold, Failure.places]
    · simpa [placesTold, Answer.places] using h
    · simpa [placesTold, Failure.places] using h

theorem numeralValue_places {start : Position} (h : start.IsIn text) (run : List Char) :
    ∀ p ∈ placesTold (numeralValue start run), p.IsIn text := by
  simp only [numeralValue]
  split
  · split
    · simp [placesTold, Answer.places]
    · simp [placesTold, Failure.places]
  · simpa [placesTold, Failure.places] using h

theorem answer_onward (h : s.Sound text) (c : Call) : s.Onward text (s.answer c).2 ∧
    ∀ p ∈ placesTold (s.answer c).1, p.IsIn text := by
  cases c with
  | next => exact answerNext_onward h
  | pull => exact answerPull_onward h
  | drain => exact answerDrain_onward h
  | advance => exact ⟨moveTo_onward h 1, by simp [answer, placesTold, Answer.places]⟩
  | skipSpaces => exact ⟨moveTo_onward h _, by simp [answer, placesTold, Answer.places]⟩
  | bareRun =>
    refine ⟨?_, by simp [answer, answerBare, placesTold, Answer.places]⟩
    simp only [answer, answerBare, Cursor.bareRun_eq rfl]
    exact moveTo_onward h _
  | quotedRun => exact answerQuoted_onward h
  | warnings => exact ⟨h.onward, by simpa [answer, placesTold, Answer.places] using h.warnings⟩
  | location => exact ⟨h.onward, by simpa [answer, placesTold, Answer.places] using h.isIn⟩
  | classify run inQuotes => exact ⟨h.onward, classify_places h.isIn run inQuotes⟩
  | numeralValue run => exact ⟨h.onward, numeralValue_places h.isIn run⟩
  | hasMore => exact ⟨h.onward, by simp [answer, placesTold, Answer.places]⟩
  | hasWarnings => exact ⟨h.onward, by simp [answer, placesTold, Answer.places]⟩
  | peek n => exact ⟨h.onward, by simp [answer, placesTold, Answer.places]⟩
  | fresh => exact ⟨h.onward, by simp [answer, placesTold, Answer.places]⟩
  | continuesSign sofar => exact ⟨h.onward, by simp [answer, placesTold, Answer.places]⟩

theorem answer_query (s : Session) {c : Call} (h : c.isQuery = true) : (s.answer c).2 = s := by
  cases c with
  | next | pull | drain | advance | skipSpaces | bareRun | quotedRun => cases h
  | _ => rfl

theorem afterCalls_onward (h : s.Sound text) (calls : List Call) :
    s.Onward text (s.afterCalls calls) := by
  induction calls generalizing s with
  | nil => exact h.onward
  | cons c calls ih =>
    obtain ⟨honward, -⟩ := answer_onward h c
    exact honward.trans (ih honward.sound)

end Session

/-- After any calls a further call leaves the cursor in the text, where the position counts what is
behind it and is not smaller than before, and adds warnings at the end only, in strict settings
none; if it only asks, it leaves everything as it is. All places that it tells or that warnings
have are counted in the text in the same way. -/
theorem calls_keep_places (settings : Settings) (text : List Char) (calls : List Call) (c : Call) :
    let s := (Session.ofText settings text).afterCalls calls
    let after := (s.answer c).2
    (after.cursor.position.offset ≤ text.length ∧
      after.cursor = .inText text after.cursor.position.offset) ∧
    s.cursor.position.offset ≤ after.cursor.position.offset ∧
    s.warnings.toList <+: after.warnings.toList ∧
    (settings.strict = true → after.warnings = #[]) ∧
    (c.isQuery = true → after = s) ∧
    (∀ p ∈ placesTold (s.answer c).1, p.IsIn text) ∧
    ∀ w ∈ after.warnings.toList, w.start.IsIn text := by
  intro s after
  have hcalls := Session.afterCalls_onward (Session.ofText_sound settings text) calls
  obtain ⟨honward, hplaces⟩ := Session.answer_onward hcalls.sound c
  have hstrict : settings.strict = true → after.settings.strict = true := by
    rw [honward.settings, hcalls.settings]
    exact id
  obtain ⟨n, hn, hcursor⟩ := honward.sound.cursor
  have hoffset : after.cursor.position.offset = n := by
    rw [hcursor, Cursor.inText_offset hn]
  exact ⟨⟨hoffset ▸ hn, hoffset ▸ hcursor⟩, honward.offset, honward.warnings,
    fun h => honward.sound.strict (hstrict h), s.answer_query, hplaces, honward.sound.warnings⟩

end ExprLex
