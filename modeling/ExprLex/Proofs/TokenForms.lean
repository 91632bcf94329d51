import ExprLex.Proofs.Bookkeeping
import ExprLex.Proofs.NumeralParts

/-!
# The forms of tokens

What a token may hold is told by its kind and by whether it was read between quotes. Names are
letters and what follows them up to a blank or a symbol, numbers are numerals with a digit, and a
symbol is a character that no name, number or string could begin with. A string outside quotes is
whatever else there is, and symbols are part of it only as the dashes of a sign.
-/
namespace ExprLex
open Text

/-- The text of a string that was read outside quotes. -/
structure IsBareString (symbols : SymbolSet) (text : List Char) : Prop where
  length : 2 ≤ text.length
  head : ∀ x ∈ text.head?, isLetter x = false ∧ x ≠ '"'
  not_blank : ∀ x ∈ text, isBlank x = false
  not_symbol : ∀ x ∈ text.dropWhile (· = '-'), x ∉ symbols
  sign : '-' ∈ symbols → text.head? = some '-' → ∃ x ∈ text[1]?, Cursor.opensNumeral x = true
  not_numeral : Numeral.isNumeral text = false

/-- The token is as one that was read from a run of this form and text has to be. -/
def Token.IsFormed (symbols : SymbolSet) (form : Run.Form) (run : List Char) : Token → Prop
  | .name text => form = .bare ∧ text.toList = run ∧ (∃ x ∈ run.head?, isLetter x = true) ∧
      ∀ x ∈ run, isBlank x = false ∧ x ∉ symbols
  | .number v => form = .bare ∧
      ∃ p : Numeral.Parts, p.digits ≠ [] ∧ p.text = run ∧ p.decimal.toBinary64 = v
  | .symbol x => form = .bare ∧ run = [x] ∧ SymbolSet.Admissible x
  | .string text => text.toList = run ∧
      if form = .bare then IsBareString symbols run
      else run ≠ [] ∧ ∀ x ∈ run, x ≠ '"' ∧ x ≠ '\n'

theorem Token.IsFormed.ne_nil {symbols : SymbolSet} {form : Run.Form} {run : List Char} {t : Token}
    (h : t.IsFormed symbols form run) : run ≠ [] := by
  rintro rfl
  cases t with
  | name text =>
    obtain ⟨-, -, ⟨x, hx, -⟩, -⟩ := h
    cases hx
  | number v =>
    obtain ⟨-, p, hdigits, htext, -⟩ := h
    have hdigit := p.hasDigit_text.mpr hdigits
    rw [htext] at hdigit
    cases hdigit
  | symbol x => cases h.2.1
  | string text =>
    obtain ⟨-, hrun⟩ := h
    split at hrun
    · exact absurd hrun.length (by decide)
    · exact hrun.1 rfl

/-- The text of the run stands at its place, and right behind it if a quote stands there. -/
def Run.IsAt (text : List Char) (r : Run) : Prop :=
  if r.form = .bare then
    (text.drop r.start.offset).head? ≠ some '"' ∧ r.text <+: text.drop r.start.offset
  else '"' :: r.text <+: text.drop r.start.offset

theorem Run.string_of_quotes {strict : Bool} {r : Run} {t : Token} (hform : r.form ≠ .bare)
    (h : r.verdict strict = .token t) : r.text ≠ [] ∧ t = .string (String.ofList r.text) := by
  have hfault : r.fault? strict = none := by simp [fault?, outcome?, h, Outcome.fault?]
  have hverdict : Verdict.ofQuoted r.text = .token t :=
    (verdict_of_quotes hform hfault).symm.trans h
  by_cases hnil : r.text = []
  · rw [hnil] at hverdict
    cases hverdict
  · rw [Verdict.ofQuoted_eq hnil] at hverdict
    cases hverdict
    exact ⟨hnil, rfl⟩

theorem Numeral.isNumeral_singleton (x : Char) : isNumeral [x] = (x.isDigit || x = '.') := by
  by_cases hdash : x = '-'
  · subst hdash
    rfl
  · have hhead : [x].head? ≠ some '-' := by simpa using hdash
    rw [isNumeral_of_no_dash hhead]
    by_cases hpoint : x = '.'
    · subst hpoint
      rfl
    · simp [isUnsigned, hpoint]

namespace Piece

variable {symbols : SymbolSet} {fresh : Bool} {text : List Char} {t : Token}

theorem isPlain_of_mem_block {x : Char} (h : x ∈ (block symbols fresh text).dropWhile (· = '-')) :
    symbols.isPlain x = true := by
  have hsign : ∀ y ∈ sign symbols fresh text, decide (y = '-') = true := by
    intro y hy
    simpa using mem_sign hy
  rw [block, List.dropWhile_append_of_pos hsign] at h
  exact List.mem_takeWhile_imp ((List.dropWhile_sublist _).subset h)

theorem opensNumeral_of_block (hmem : '-' ∈ symbols)
    (hhead : (block symbols fresh text).head? = some '-') :
    Cursor.opensNumeral (text.getD 1 '\x00') = true := by
  by_contra hopens
  have hsign : sign symbols fresh text = [] := by
    rw [sign, if_neg]
    rintro ⟨-, -, h⟩
    exact hopens h
  rw [block_of_no_sign hsign] at hhead
  have hdash := List.mem_takeWhile_imp (List.mem_of_mem_head? hhead)
  exact (isPlain_iff.mp hdash).2 hmem

theorem bare_head? (h : (bare symbols fresh text).text ≠ []) :
    (bare symbols fresh text).text.head? = text.head? := by
  obtain ⟨rest, hrest⟩ := bare_written_isPrefix symbols fresh text
  rw [bare_written, List.append_assoc] at hrest
  conv_rhs => rw [← hrest]
  rw [List.head?_append_of_ne_nil _ h]

theorem bare_text_of_long (h : 2 ≤ (bare symbols fresh text).text.length) :
    block symbols fresh text = (bare symbols fresh text).text := by
  by_cases hblock : block symbols fresh text = []
  · have hle := (List.filter_sublist (p := (!isBlank ·)) (l := text.take 1)).length_le
    simp only [bare, hblock, if_pos] at h
    have := List.length_take_le 1 text
    omega
  · rw [bare_of_block hblock]

theorem bare_text_plain {x : Char} (hx : (bare symbols fresh text).text.head? = some x)
    (hletter : isLetter x = true) :
    ∀ y ∈ (bare symbols fresh text).text, isBlank y = false ∧ y ∉ symbols := by
  intro y hy
  refine ⟨bare_text_not_blank symbols fresh text y hy, ?_⟩
  by_cases hlong : 2 ≤ (bare symbols fresh text).text.length
  · rw [← bare_text_of_long hlong] at hx hy
    obtain ⟨rest, hrest⟩ := List.head?_eq_some_iff.mp hx
    have hdash : x ≠ '-' := by
      rintro rfl
      cases hletter
    rw [hrest] at hy
    have hdrop : (block symbols fresh text).dropWhile (· = '-') = x :: rest := by
      rw [hrest, List.dropWhile_cons_of_neg (by simpa using hdash)]
    exact (isPlain_iff.mp (isPlain_of_mem_block (hdrop ▸ hy))).2
  · -- the text is the letter alone
    obtain ⟨rest, hrest⟩ := List.head?_eq_some_iff.mp hx
    rw [hrest] at hy hlong
    obtain rfl : rest = [] := by
      rw [List.length_cons] at hlong
      exact List.length_eq_zero_iff.mp (by omega)
    obtain rfl := List.mem_singleton.mp hy
    exact SymbolSet.not_mem_of_word (by simp [isWord, hletter])

theorem bare_isBareString (hlong : 2 ≤ (bare symbols fresh text).text.length)
    (hquote : text.head? ≠ some '"')
    (hletter : ∀ x ∈ (bare symbols fresh text).text.head?, isLetter x = false)
    (hnumeral : Numeral.isNumeral (bare symbols fresh text).text = false) :
    IsBareString symbols (bare symbols fresh text).text where
  length := hlong
  head x hx := by
    have hne := List.ne_nil_of_length_pos (Nat.lt_of_lt_of_le Nat.two_pos hlong)
    refine ⟨hletter x hx, ?_⟩
    rintro rfl
    exact hquote ((bare_head? hne).symm.trans hx)
  not_blank := bare_text_not_blank symbols fresh text
  not_symbol x hx := by
    rw [← bare_text_of_long hlong] at hx
    exact (isPlain_iff.mp (isPlain_of_mem_block hx)).2
  sign hmem hhead := by
    have hblock := bare_text_of_long hlong
    rw [← hblock] at hhead hlong ⊢
    have hopens := opensNumeral_of_block hmem hhead
    obtain ⟨rest, hrest⟩ := block_isPrefix symbols fresh text
    have hsecond : text[1]? = (block symbols fresh text)[1]? := by
      conv_lhs => rw [← hrest, List.getElem?_append_left hlong]
    rw [List.getD_eq_getElem?_getD, hsecond, List.getElem?_eq_getElem hlong] at hopens
    exact ⟨_, List.getElem?_eq_getElem hlong, hopens⟩
  not_numeral := hnumeral

theorem bare_isFormed (hquote : text.head? ≠ some '"')
    (h : Verdict.ofBare (bare symbols fresh text).text = .token t) :
    t.IsFormed symbols .bare (bare symbols fresh text).text := by
  generalize hrun : (bare symbols fresh text).text = run at h ⊢
  cases Verdict.stands_iff.mpr h with
  | number hnumeral hdigit =>
    obtain ⟨-, -, p, rfl⟩ := Numeral.isNumeral_iff.mp hnumeral
    exact ⟨rfl, p, p.hasDigit_text.mp hdigit, rfl, p.value_text.symm⟩
  | name hnumeral hletter =>
    have hhead : (bare symbols fresh text).text.head? = some _ := congrArg List.head? hrun
    exact ⟨rfl, String.toList_ofList, ⟨_, rfl, hletter⟩, hrun ▸ bare_text_plain hhead hletter⟩
  | symbol hnumeral hletter =>
    rename_i x
    have hblank : isBlank x = false := bare_text_not_blank symbols fresh text x (by simp [hrun])
    have hx : x ≠ '"' := by
      rintro rfl
      have hhead := bare_head? (by rw [hrun]; exact List.cons_ne_nil _ _)
      rw [hrun] at hhead
      exact hquote hhead.symm
    rw [Numeral.isNumeral_singleton, Bool.or_eq_false_iff, decide_eq_false_iff_not] at hnumeral
    exact ⟨rfl, rfl, not_delimiter_iff.mpr ⟨hblank, hx⟩, not_word_iff.mpr ⟨hletter, hnumeral⟩⟩
  | string hnumeral hletter =>
    refine ⟨String.toList_ofList, ?_⟩
    rw [← hrun] at hnumeral ⊢
    refine bare_isBareString ?_ hquote ?_ hnumeral
    · simp [hrun]
    · rw [hrun]
      rintro _ ⟨⟩
      exact hletter

theorem quoted_isFormed {tail : List Char} {start : Position} {strict : Bool}
    (h : ((quoted tail).run start).verdict strict = .token t) :
    t.IsFormed symbols (quoted tail).form (quoted tail).text := by
  have hform := quoted_form_ne_bare tail
  obtain ⟨hne, rfl⟩ := Run.string_of_quotes hform h
  refine ⟨String.toList_ofList, ?_⟩
  rw [if_neg hform]
  refine ⟨hne, fun x hx => ?_⟩
  simpa [Cursor.inQuotes] using List.mem_takeWhile_imp hx

theorem first_isFormed {start : Position} {strict : Bool}
    (h : ((first symbols fresh text).run start).verdict strict = .token t) :
    t.IsFormed symbols (first symbols fresh text).form (first symbols fresh text).text := by
  by_cases hquote : text.head? = some '"'
  · obtain ⟨tail, rfl⟩ := List.head?_eq_some_iff.mp hquote
    exact quoted_isFormed h
  · rw [first_bare symbols fresh hquote] at h ⊢
    rw [bare_form]
    simp only [Run.verdict, run, bare_form] at h
    exact bare_isFormed hquote h

theorem first_isAt {start : Position} {whole : List Char} (h : whole.drop start.offset = text) :
    ((first symbols fresh text).run start).IsAt whole := by
  have hprefix := first_written_isPrefix symbols fresh text
  rw [Run.IsAt, run, h]
  by_cases hquote : text.head? = some '"'
  · obtain ⟨tail, rfl⟩ := List.head?_eq_some_iff.mp hquote
    rw [first_quote, quoted_written, ← List.cons_append] at hprefix
    rw [first_quote, if_neg (quoted_form_ne_bare tail)]
    exact (List.prefix_append _ _).trans hprefix
  · rw [first_bare symbols fresh hquote, bare_written] at hprefix
    rw [first_bare symbols fresh hquote, if_pos (bare_form symbols fresh text)]
    exact ⟨hquote, (List.prefix_append _ _).trans hprefix⟩

end Piece

/-- Each run that is ahead of a session in a text is the first piece of the text from its place. -/
theorem Session.Sound.exists_piece {s : Session} {text : List Char} {r : Run} (h : s.Sound text)
    (hr : r ∈ s.runs) : ∃ fresh,
      r = (Piece.first s.settings.symbols fresh (text.drop r.start.offset)).run r.start := by
  obtain ⟨n, hn, hcursor⟩ := h.cursor
  rw [runs, Cursor.runs] at hr
  obtain ⟨read, rest, fresh, hsplit, -, rfl⟩ := exists_of_mem_runsFrom hr
  refine ⟨fresh, ?_⟩
  have hdrop : text.drop (s.cursor.position.after read).offset = rest := by
    rw [hcursor] at hsplit ⊢
    rw [Position.after_offset, Cursor.inText_offset hn, ← List.drop_drop]
    exact (congrArg (List.drop read.length) hsplit).symm.trans List.drop_left
  change _ = (Piece.first _ _ (text.drop (s.cursor.position.after read).offset)).run _
  rw [hdrop]
  rfl

/-- After any calls, a token that comes up next stands for a run of the text at its place, and it is
formed as such a token has to be. -/
theorem next_token_formed (settings : Settings) (text : List Char) (calls : List Call)
    (t : Placed Token)
    (h : ((Session.ofText settings text).afterCalls calls).next.1 = some (.token t)) :
    ∃ r ∈ ((Session.ofText settings text).afterCalls calls).runs,
      r.start = t.start ∧ r.verdict settings.strict = .token t.item ∧ r.text ≠ [] ∧
      r.IsAt text ∧ t.item.IsFormed settings.symbols r.form r.text := by
  have hcalls := Session.afterCalls_onward (Session.ofText_sound settings text) calls
  generalize (Session.ofText settings text).afterCalls calls = s at h hcalls
  have hsettings : s.settings = settings := hcalls.settings
  have hnext : s.next = (some (.token t), s.next.2) := Prod.ext h rfl
  obtain ⟨idle, r, hreads, -, hr⟩ := Session.next_some hnext
  have hmem : r ∈ s.runs := by simp [hreads.runs]
  have hverdict : r.verdict s.settings.strict = .token t.item := Run.verdict_of_outcome? hr
  obtain ⟨fresh, hpiece⟩ := hcalls.sound.exists_piece hmem
  have hformed : t.item.IsFormed s.settings.symbols r.form r.text := by
    rw [hpiece] at hverdict ⊢
    exact Piece.first_isFormed hverdict
  have hat : r.IsAt text := by
    rw [hpiece]
    exact Piece.first_isAt rfl
  rw [hsettings] at hformed hverdict
  exact ⟨r, hmem, (Run.outcome?_start hr).symm, hverdict, hformed.ne_nil, hat, hformed⟩

theorem next_token_formed_sign :
    let s := (Session.ofText .standard ". --=\n--x\" 1".toList).afterCalls [.next, .next, .next]
    let t : Placed Token := ⟨.string "--x\"", ⟨6, 2, 1⟩⟩
    s.next.1 = some (.token t) ∧
      ∃ r ∈ s.runs, r.start = t.start ∧ r.verdict false = .token t.item ∧ r.text ≠ [] ∧
        r.IsAt ". --=\n--x\" 1".toList ∧
        t.item.IsFormed Settings.standard.symbols r.form r.text := by
  intro s t
  have hnext : s.next.1 = some (.token t) := by decide +kernel
  exact ⟨hnext, next_token_formed .standard _ _ t hnext⟩

end ExprLex
