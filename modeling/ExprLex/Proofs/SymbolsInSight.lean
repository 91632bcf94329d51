import ExprLex.Proofs.Extension

/-!
# Symbols in sight

Between quotes no symbol is looked for, and no character from there is looked back upon. So it does
not matter to a scan whether the characters of quoted texts are symbols, nor those that do not occur
at all: under another set of symbols that agrees with the first on the other characters, every pull
does the same.
-/
namespace ExprLex
open Text

/-- The character at the offset stands in the text between the quotes of the run. -/
def Run.Encloses (r : Run) (i : Nat) : Prop :=
  r.form ≠ .bare ∧ r.start.offset < i ∧ i ≤ r.start.offset + r.text.length

instance (r : Run) (i : Nat) : Decidable (r.Encloses i) := inferInstanceAs (Decidable (_ ∧ _ ∧ _))

theorem takeWhile_congr {p q : Char → Bool} {text : List Char}
    (h : ∀ i ≤ (text.takeWhile p).length, ∀ x ∈ text[i]?, p x = q x) :
    text.takeWhile q = text.takeWhile p := by
  induction text with
  | nil => rfl
  | cons x rest ih =>
    have hx : p x = q x := h 0 (Nat.zero_le _) x rfl
    cases hp : p x with
    | false => simp [hp, ← hx]
    | true =>
      have hlength : ((x :: rest).takeWhile p).length = (rest.takeWhile p).length + 1 := by
        simp [hp]
      have hrest : rest.takeWhile q = rest.takeWhile p := by
        apply ih
        intro i hi y hy
        exact h (i + 1) (by omega) y hy
      simp [hp, ← hx, hrest]

variable {a b : SymbolSet}

theorem SymbolSet.not_mem_of_isDelimiter {symbols : SymbolSet} {x : Char}
    (h : isDelimiter x = true) : x ∉ symbols := by
  intro hx
  have hdelimiter := (symbols.admissible x hx).1
  rw [h] at hdelimiter
  cases hdelimiter

theorem freshAfter_congr {read : List Char} (hne : read ≠ [])
    (h : ∀ x ∈ read.getLast?, (x ∈ a ↔ x ∈ b)) (before now : Bool) :
    freshAfter a before read = freshAfter b now read := by
  obtain ⟨front, x, rfl⟩ := (List.eq_nil_or_concat read).resolve_left hne
  rw [List.concat_eq_append] at h ⊢
  have hx : x ∈ a ↔ x ∈ b := h x (by simp)
  rw [freshAfter_concat, freshAfter_concat]
  simp only [hx]

namespace Piece

variable {fresh : Bool} {text : List Char}

theorem sign_congr (h : ∀ x ∈ text.head?, (x ∈ a ↔ x ∈ b)) :
    sign b fresh text = sign a fresh text := by
  cases text with
  | nil => simp [sign]
  | cons x rest =>
    by_cases hdash : x = '-'
    · subst hdash
      have hmem : '-' ∈ a ↔ '-' ∈ b := h '-' rfl
      simp only [sign, hmem]
    · rw [sign_of_ne hdash, sign_of_ne hdash]

/-- A block is the same for symbols that agree on it and on the character behind it. -/
theorem block_congr
    (h : ∀ i ≤ (block a fresh text).length, ∀ x ∈ text[i]?, (x ∈ a ↔ x ∈ b)) :
    block b fresh text = block a fresh text := by
  have hsign : sign b fresh text = sign a fresh text := by
    apply sign_congr
    intro x hx
    rw [List.head?_eq_getElem?] at hx
    exact h 0 (Nat.zero_le _) x hx
  rw [block, block, hsign, takeWhile_congr]
  intro i hi x hx
  rw [List.getElem?_drop] at hx
  have hle : (sign a fresh text).length + i ≤ (block a fresh text).length := by
    rw [block, List.length_append]
    omega
  have hmem := h _ hle x hx
  simp only [SymbolSet.isPlain, hmem]

theorem first_congr (h : (first a fresh text).form = .bare →
      ∀ i ≤ (first a fresh text).written.length, ∀ x ∈ text[i]?, (x ∈ a ↔ x ∈ b)) :
    first b fresh text = first a fresh text := by
  by_cases hquote : text.head? = some '"'
  · obtain ⟨tail, rfl⟩ := List.head?_eq_some_iff.mp hquote
    rw [first_quote, first_quote]
  · rw [first_bare a fresh hquote] at h ⊢
    rw [first_bare b fresh hquote]
    have hblock : block b fresh text = block a fresh text := by
      apply block_congr
      intro i hi
      exact h (bare_form a fresh text) i (hi.trans (block_length_le a fresh text))
    simp only [bare, hblock]

/-- What is read of quotes goes beyond their text, unless nothing is left of the whole text. -/
theorem length_text_succ_lt (hform : (first a fresh text).form ≠ .bare)
    (hmore : text.drop (first a fresh text).written.length ≠ []) :
    (first a fresh text).text.length + 1 < (first a fresh text).written.length := by
  have hquote : text.head? = some '"' := by
    by_contra hne
    rw [first_bare a fresh hne] at hform
    exact hform (bare_form a fresh text)
  obtain ⟨tail, rfl⟩ := List.head?_eq_some_iff.mp hquote
  rw [first_quote] at hmore ⊢
  obtain ⟨rest, hsplit, ⟨-, hclosing⟩ | ⟨-, hclosing | ⟨hclosing, rfl⟩⟩⟩ := quoted_shape tail
  · simp [quoted_written, hclosing]
  · simp [quoted_written, hclosing]
  · rw [hclosing, List.append_nil, List.append_nil] at hsplit
    simp [quoted_written, hclosing, hsplit] at hmore

theorem length_text_lt (hform : (first a fresh text).form ≠ .bare) :
    (first a fresh text).text.length < (first a fresh text).written.length := by
  simp only [written, List.length_cons, List.length_append]
  omega

end Piece

namespace Cursor

variable {c after : Cursor} {r : Run}

/-- The sets of symbols agree on what a cursor may look at, ahead outside the texts of quotes and
behind. -/
structure Alike (a b : SymbolSet) (c : Cursor) : Prop where
  fresh : c.ahead ≠ [] → c.fresh a = c.fresh b
  ahead : ∀ i x, c.ahead[i]? = some x →
    (∀ r ∈ c.runs a, ¬ r.Encloses (c.position.offset + i)) → (x ∈ a ↔ x ∈ b)

/-- What is read may be left behind if its last character is the same for both sets. -/
theorem Alike.advanceBy (h : c.Alike a b) {read rest : List Char} (hsplit : c.ahead = read ++ rest)
    (hlast : rest ≠ [] → ∀ x ∈ read.getLast?, (x ∈ a ↔ x ∈ b))
    (hruns : ∀ r ∈ c.runs a, r ∈ (c.advanceBy read.length).runs a ∨
      ∀ i, ¬ r.Encloses (c.position.offset + read.length + i)) :
    (c.advanceBy read.length).Alike a b := by
  have hahead : (c.advanceBy read.length).ahead = rest := by
    rw [advanceBy_of_ahead hsplit]
  refine ⟨fun hne => ?_, fun i x hx hout => ?_⟩
  · rw [hahead] at hne
    rw [fresh_advanceBy hsplit, fresh_advanceBy hsplit]
    by_cases hread : read = []
    · subst hread
      have hmore : c.ahead ≠ [] := hsplit ▸ hne
      exact h.fresh hmore
    · exact freshAfter_congr hread (hlast hne) _ _
  · have hoffset : (c.advanceBy read.length).position.offset =
        c.position.offset + read.length := by
      rw [advanceBy_of_ahead hsplit, Position.after_offset]
    rw [hahead] at hx
    rw [hoffset] at hout
    have hget : c.ahead[read.length + i]? = some x := by
      rw [hsplit, List.getElem?_append_right (Nat.le_add_right _ _), Nat.add_sub_cancel_left, hx]
    refine h.ahead _ x hget fun r hr => ?_
    rw [← Nat.add_assoc]
    rcases hruns r hr with hlater | hnone
    · exact hout r hlater
    · exact hnone i

theorem Alike.skipSpaces (h : c.Alike a b) : c.skipSpaces.Alike a b := by
  refine h.advanceBy List.takeWhile_append_dropWhile.symm (fun _ x hx => ?_) (fun r hr => ?_)
  · have hspace : x = ' ' := by
      simpa using List.mem_takeWhile_imp (List.mem_of_getLast? hx)
    subst hspace
    exact iff_of_false (SymbolSet.not_mem_of_isDelimiter rfl) (SymbolSet.not_mem_of_isDelimiter rfl)
  · rw [← skipSpaces_runs] at hr
    exact .inl hr

/-- A run does not enclose what comes before it. -/
theorem not_encloses_of_le (hr : r ∈ c.runs a) {i : Nat} (hi : i ≤ c.position.offset) :
    ¬ r.Encloses i := by
  rintro ⟨-, hlt, -⟩
  have hle := runsFrom_offset_le r hr
  omega

/-- The piece that is read where the cursor stands. -/
def piece (symbols : SymbolSet) (c : Cursor) : Piece :=
  Piece.first symbols (c.fresh symbols) c.ahead

/-- The cursor behind this piece. -/
def behindPiece (symbols : SymbolSet) (c : Cursor) : Cursor :=
  c.advanceBy (c.piece symbols).written.length

theorem piece_append (c : Cursor) : c.ahead = (c.piece a).written ++
    c.ahead.drop (c.piece a).written.length :=
  (Piece.first_written_append a (c.fresh a) c.ahead).symm

theorem runs_eq_cons (hne : c.ahead ≠ []) (hspace : c.ahead.head? ≠ some ' ') :
    c.runs a = (c.piece a).run c.position :: (c.behindPiece a).runs a := by
  rw [behindPiece, runs_advanceBy (piece_append c), runs, runsFrom_piece hne hspace]
  rfl

theorem behindPiece_offset (c : Cursor) :
    (c.behindPiece a).position.offset = c.position.offset + (c.piece a).written.length := by
  rw [behindPiece, advanceBy_of_ahead (piece_append c), Position.after_offset]

section

variable (hne : c.ahead ≠ []) (hspace : c.ahead.head? ≠ some ' ')
include hne hspace

/-- Of what is read with the first run, and of the character behind it, only the text of quotes is
enclosed in a run. -/
theorem not_encloses {i : Nat} (hi : i ≤ (c.piece a).written.length)
    (hquotes : (c.piece a).form ≠ .bare → (c.piece a).text.length < i) :
    ∀ r ∈ c.runs a, ¬ r.Encloses (c.position.offset + i) := by
  intro r hr
  rw [runs_eq_cons hne hspace] at hr
  rcases List.mem_cons.mp hr with rfl | hr
  · rintro ⟨hform, -, hle⟩
    have hbeyond := hquotes hform
    change c.position.offset + i ≤ c.position.offset + (c.piece a).text.length at hle
    omega
  · exact not_encloses_of_le hr (by rw [behindPiece_offset]; omega)

theorem Alike.piece (h : c.Alike a b) : c.piece b = c.piece a := by
  rw [Cursor.piece, ← h.fresh hne]
  apply Piece.first_congr
  intro hbare i hi x hx
  exact h.ahead i x hx (not_encloses hne hspace hi (absurd hbare))

/-- The last character that is read is the closing one, or stands outside quotes. -/
theorem Alike.last (h : c.Alike a b) (hmore : c.ahead.drop (c.piece a).written.length ≠ []) :
    ∀ x ∈ (c.piece a).written.getLast?, (x ∈ a ↔ x ∈ b) := by
  intro x hx
  have hpos : 0 < (c.piece a).written.length := by
    rw [List.length_pos_iff]
    rintro hnil
    rw [hnil] at hx
    cases hx
  have hget : c.ahead[(c.piece a).written.length - 1]? = some x := by
    rw [piece_append (a := a) c, List.getElem?_append_left (by omega), ← List.getLast?_eq_getElem?]
    exact hx
  refine h.ahead _ x hget (not_encloses hne hspace (Nat.sub_le _ _) fun hform => ?_)
  have hlt := Piece.length_text_succ_lt hform hmore
  rw [Cursor.piece] at hpos ⊢
  omega

theorem Alike.behindPiece (h : c.Alike a b) : (c.behindPiece a).Alike a b := by
  refine h.advanceBy (piece_append c) (h.last hne hspace) fun r hr => ?_
  rw [runs_eq_cons hne hspace] at hr
  rcases List.mem_cons.mp hr with rfl | hr
  · right
    rintro i ⟨hform, -, hle⟩
    have hlt := Piece.length_text_lt hform
    change c.position.offset + (c.piece a).written.length + i ≤
      c.position.offset + (c.piece a).text.length at hle
    rw [Cursor.piece] at hle
    omega
  · exact .inl hr

end

theorem Alike.readRun? (h : c.Alike a b) : c.readRun? b = c.readRun? a ∧
    ∀ r after, c.readRun? a = some (r, after) → after.Alike a b := by
  have hhere := h.skipSpaces
  by_cases hend : c.skipSpaces.ahead = []
  · have hnone : ∀ symbols : SymbolSet, c.readRun? symbols = none := fun _ => runHere?_end hend
    rw [hnone, hnone]
    exact ⟨rfl, by simp⟩
  · have hread : ∀ symbols : SymbolSet, c.readRun? symbols =
        some ((c.skipSpaces.piece symbols).run c.skipSpaces.position,
          c.skipSpaces.behindPiece symbols) := fun _ => runHere?_eq rfl hend
    have hpiece := hhere.piece hend c.skipSpaces_head?
    have hbehind := hhere.behindPiece hend c.skipSpaces_head?
    rw [hread, hread, Cursor.behindPiece, hpiece]
    refine ⟨rfl, ?_⟩
    rintro _ _ ⟨⟩
    exact hbehind

end Cursor

namespace Session

variable {s : Session}

/-- The session with other symbols. -/
def withSymbols (symbols : SymbolSet) (s : Session) : Session :=
  { s with settings := { s.settings with symbols := symbols } }

theorem withSymbols_judge (symbols : SymbolSet) (s : Session) (r : Run) (after : Cursor) :
    (s.withSymbols symbols).judge r after = (s.judge r after).withSymbols symbols := by
  have hstrict : (s.withSymbols symbols).settings.strict = s.settings.strict := rfl
  simp only [judge, accept, hstrict]
  split <;> split <;> rfl

theorem withSymbols_next (h : s.cursor.Alike s.settings.symbols b) :
    (s.withSymbols b).next = (s.next.1, s.next.2.withSymbols b) ∧
      s.next.2.cursor.Alike s.settings.symbols b := by
  induction s using next_induct with
  | exhausted s hread hnext =>
    have hother : (s.withSymbols b).cursor.readRun? (s.withSymbols b).settings.symbols = none :=
      h.readRun?.1.trans hread
    rw [hnext, next_of_readRun?_none hother]
    refine ⟨rfl, fun hne => absurd s.cursor.toEnd_ahead hne, fun i x hx => ?_⟩
    change s.cursor.toEnd.ahead[i]? = some x at hx
    rw [s.cursor.toEnd_ahead] at hx
    cases hx
  | idle s r after hread ho hnext ih =>
    obtain ⟨hsame, hafter⟩ := h.readRun?
    have hother : (s.withSymbols b).cursor.readRun? (s.withSymbols b).settings.symbols =
        some (r, after) := hsame.trans hread
    have hidle : r.outcome? (s.withSymbols b).settings.strict = none := ho
    have hjudge := judge_settings s r after
    rw [hnext, next_of_readRun? hother, hidle, withSymbols_judge]
    rw [hjudge, judge_cursor] at ih
    exact ih (hafter r after hread)
  | found s r after o hread ho hnext =>
    obtain ⟨hsame, hafter⟩ := h.readRun?
    have hother : (s.withSymbols b).cursor.readRun? (s.withSymbols b).settings.symbols =
        some (r, after) := hsame.trans hread
    have hfound : r.outcome? (s.withSymbols b).settings.strict = some o := ho
    rw [hnext, next_of_readRun? hother, hfound, withSymbols_judge, judge_cursor]
    exact ⟨rfl, hafter r after hread⟩

theorem next_settings (s : Session) : s.next.2.settings = s.settings := by
  cases h : s.next with
  | mk result after =>
    cases result with
    | none => exact (next_none h).1.settings
    | some o =>
      obtain ⟨idle, r, hreads, -⟩ := next_some h
      exact hreads.settings

/-- Another session that does the same in a pull, and agrees with what the pull leaves. -/
theorem withSymbols_next_eq {after : Session} {result : Option Outcome}
    (h : s.cursor.Alike s.settings.symbols b) (hnext : s.next = (result, after)) :
    (s.withSymbols b).next = (result, after.withSymbols b) ∧
      after.cursor.Alike after.settings.symbols b := by
  have hsettings := s.next_settings
  obtain ⟨hother, hafter⟩ := withSymbols_next h
  rw [hnext] at hother hafter hsettings
  exact ⟨hother, hsettings ▸ hafter⟩

theorem withSymbols_outcomes (h : s.cursor.Alike s.settings.symbols b) :
    (s.withSymbols b).outcomes = (s.outcomes.1, s.outcomes.2.withSymbols b) := by
  fun_induction outcomes s with
  | case1 s after hnext =>
    rw [outcomes, (withSymbols_next_eq h hnext).1]
  | case2 s o after hnext ih =>
    obtain ⟨hother, hafter⟩ := withSymbols_next_eq h hnext
    rw [outcomes, hother]
    simp only [ih hafter]

theorem withSymbols_drainAfter (h : s.cursor.Alike s.settings.symbols b)
    (sofar : List (Placed Token)) :
    (s.withSymbols b).drainAfter sofar =
      { s.drainAfter sofar with session := (s.drainAfter sofar).session.withSymbols b } := by
  fun_induction drainAfter sofar s with
  | case1 sofar s after hnext => rw [drainAfter, (withSymbols_next_eq h hnext).1]
  | case2 sofar s f after hnext => rw [drainAfter, (withSymbols_next_eq h hnext).1]
  | case3 sofar s t after hnext ih =>
    obtain ⟨hother, hafter⟩ := withSymbols_next_eq h hnext
    rw [drainAfter, hother]
    exact ih hafter

end Session

/-- Two sets of symbols that agree on every character outside the texts between quotes, as one of
them has these, do the same: the same outcomes of every pull past all faults, the same tokens up to
the first fault, and the same warnings, events and place at the end. -/
theorem symbols_in_sight (strict : Bool) (file : String) (text : List Char)
    (h : ∀ i x, text[i]? = some x →
      (∀ r ∈ (Session.ofText ⟨a, strict, file⟩ text).runs, ¬ r.Encloses i) → (x ∈ a ↔ x ∈ b)) :
    let s := Session.ofText ⟨a, strict, file⟩ text
    let other := Session.ofText ⟨b, strict, file⟩ text
    s.Reads s.runs s.outcomes.2 ∧
      other.outcomes = (s.outcomes.1, s.outcomes.2.withSymbols b) ∧
      other.drain = { s.drain with session := s.drain.session.withSymbols b } := by
  intro s other
  have halike : s.cursor.Alike a b := by
    refine ⟨fun _ => rfl, fun i x hx hout => h i x hx fun r hr => ?_⟩
    have hnot := hout r hr
    rwa [show s.cursor.position.offset = 0 from rfl, Nat.zero_add] at hnot
  have hother : other = s.withSymbols b := rfl
  rw [hother]
  exact ⟨s.outcomes_eq.2.1, Session.withSymbols_outcomes (s := s) halike,
    Session.withSymbols_drainAfter (s := s) halike []⟩

/-- The symbols of the larger set stand between quotes only, the last one of them in an open string,
which is a fault. -/
theorem symbols_in_sight_quotes :
    let a := SymbolSet.empty.insert '+' (by decide)
    let b := ((a.insert '-' (by decide)).insert '?' (by decide)).insert '$' (by decide)
    let text := "1+\"-?\"x%\n\"$".toList
    let s := Session.ofText ⟨a, true, "f"⟩ text
    let other := Session.ofText ⟨b, true, "f"⟩ text
    (∀ i x, text[i]? = some x → (∀ r ∈ s.runs, ¬ r.Encloses i) → (x ∈ a ↔ x ∈ b)) ∧
      s.Reads s.runs s.outcomes.2 ∧
      other.outcomes = (s.outcomes.1, s.outcomes.2.withSymbols b) ∧
      other.drain = { s.drain with session := s.drain.session.withSymbols b } := by
  intro a b text s other
  have hcheck : ((List.range text.length).all fun i => text[i]?.all fun x =>
      s.runs.any (fun r => decide (r.Encloses i)) || decide (x ∈ a ↔ x ∈ b)) = true := by
    decide +kernel
  have h : ∀ i x, text[i]? = some x → (∀ r ∈ s.runs, ¬ r.Encloses i) → (x ∈ a ↔ x ∈ b) := by
    intro i x hx hout
    have hi := (List.getElem?_eq_some_iff.mp hx).1
    have hchar := List.all_eq_true.mp hcheck i (List.mem_range.mpr hi)
    have hnone : (s.runs.any fun r => decide (r.Encloses i)) = false := by
      simpa using hout
    rw [hx, Option.all_some, hnone, Bool.false_or] at hchar
    exact of_decide_eq_true hchar
  exact ⟨h, symbols_in_sight true "f" text h⟩

end ExprLex
