import ExprLex.Proofs.Classes
import ExprLex.Proofs.Continuation
import ExprLex.Proofs.Findings
import ExprLex.Proofs.NumeralParts

/-!
# Written items are read back

An item is a token as it is to be written: a name, a symbol and a numeral as they are, a string
between quotes, or, when it holds a quote itself, as it is. Items that fit the symbols and are
written with a space between any two are read back, whatever they stand next to: the space keeps
the runs apart, and behind it a sign may begin.
-/
namespace ExprLex
open Text

inductive Item
  | name (text : List Char)
  | symbol (x : Char)
  | numeral (parts : Numeral.Parts)
  | quoted (text : List Char)
  | bareString (text : List Char)

namespace Item

def form : Item → Run.Form
  | quoted _ => .closed
  | _ => .bare

def text : Item → List Char
  | name text => text
  | symbol x => [x]
  | numeral p => p.text
  | quoted text => text
  | bareString text => text

def written (i : Item) : List Char :=
  match i.form with
  | .bare => i.text
  | _ => '"' :: (i.text ++ ['"'])

def token : Item → Token
  | name text => .name (String.ofList text)
  | symbol x => .symbol x
  | numeral p => .number p.decimal.toBinary64
  | quoted text => .string (String.ofList text)
  | bareString text => .string (String.ofList text)

/-- The items that can be told from what is written. Dashes in front of a string without quotes
may be symbols, provided that they are a sign. -/
def Fits (symbols : SymbolSet) : Item → Prop
  | name text => text.head?.any isLetter = true ∧ text.all symbols.isPlain = true
  | symbol x => SymbolSet.Admissible x
  | numeral p => p.digits ≠ []
  | quoted text => text ≠ [] ∧ text.all Cursor.inQuotes = true
  | bareString text =>
    '"' ∈ text ∧ 2 ≤ text.length ∧ text.head? ≠ some '"' ∧ text.head?.any isLetter = false ∧
      text.all (!isBlank ·) = true ∧ (text.dropWhile (· = '-')).all (· ∉ symbols) = true ∧
      ('-' ∈ symbols → text.head? = some '-' → text[1]?.any Cursor.opensNumeral = true)

instance (symbols : SymbolSet) : DecidablePred (Fits symbols)
  | name _ => inferInstanceAs (Decidable (_ ∧ _))
  | symbol x => inferInstanceAs (Decidable (SymbolSet.Admissible x))
  | numeral p => inferInstanceAs (Decidable (p.digits ≠ []))
  | quoted _ => inferInstanceAs (Decidable (_ ∧ _))
  | bareString _ => inferInstanceAs (Decidable (_ ∧ _))

def render (items : List Item) : List Char := [' '].intercalate (items.map written)

def placed (start : Position) : List Item → List (Placed Token)
  | [] => []
  | i :: items => ⟨i.token, start⟩ :: placed (start.after (i.written ++ [' '])) items

def run (start : Position) (i : Item) : Run := ⟨start, i.form, i.text⟩

theorem placed_items (start : Position) (items : List Item) :
    (placed start items).map Placed.item = items.map token := by
  induction items generalizing start with
  | nil => rfl
  | cons i items ih => rw [placed, List.map_cons, List.map_cons, ih]

end Item

/-- Behind a space, and in front of another or of the end, the text is one run outside quotes. -/
def SymbolSet.IsWord (symbols : SymbolSet) (text : List Char) : Prop :=
  text ≠ [] ∧ (∀ x ∈ text.dropWhile (· = '-'), symbols.isPlain x = true) ∧
    ('-' ∈ symbols → text.head? = some '-' → Cursor.opensNumeral (text.getD 1 '\x00') = true)

namespace Piece

variable {symbols : SymbolSet} {text rest : List Char}

theorem block_word (h : symbols.IsWord text) : block symbols true text = text := by
  obtain ⟨hne, hplain, hopens⟩ := h
  have hsplit : text.takeWhile (· = '-') ++ text.dropWhile (· = '-') = text :=
    List.takeWhile_append_dropWhile
  by_cases hd : '-' ∈ symbols ∧ text.head? = some '-'
  · have hsign : sign symbols true text = text.takeWhile (· = '-') := by
      rw [sign, if_pos ⟨hd.1, rfl, hopens hd.1 hd.2⟩]
    rw [block, hsign, drop_length_takeWhile, List.takeWhile_eq_self_iff.mpr hplain, hsplit]
  · obtain ⟨x, more, rfl⟩ := List.exists_cons_of_ne_nil hne
    by_cases hx : x = '-'
    · subst hx
      have hmem : '-' ∉ symbols := fun hmem => hd ⟨hmem, rfl⟩
      have hdashes : ∀ y ∈ ('-' :: more).takeWhile (· = '-'), symbols.isPlain y = true := by
        intro y hy
        obtain rfl : y = '-' := by simpa using List.mem_takeWhile_imp hy
        exact isPlain_iff.mpr ⟨rfl, hmem⟩
      have hall : ∀ y ∈ '-' :: more, symbols.isPlain y = true := by
        rw [← hsplit]
        exact List.forall_mem_append.mpr ⟨hdashes, hplain⟩
      rw [block_of_no_sign (sign_of_not_mem true _ hmem), List.takeWhile_eq_self_iff.mpr hall]
    · rw [List.dropWhile_cons_of_neg (by simpa using hx)] at hplain
      rw [block_of_no_sign (sign_of_ne hx), List.takeWhile_eq_self_iff.mpr hplain]

/-- A word is one run if what comes next stops it, and a blank there is consumed. -/
theorem first_word_of_stops (h : symbols.IsWord text) (hquote : text.head? ≠ some '"')
    (hstop : Stops symbols text rest) :
    first symbols true (text ++ rest) = ⟨.bare, text, closingBlank rest⟩ := by
  have hblock := block_word h
  have hhead : (text ++ rest).head? ≠ some '"' := by
    rwa [List.head?_append_of_ne_nil _ h.1]
  have hne : block symbols true text ≠ [] := by
    rw [hblock]
    exact h.1
  rw [first_bare _ _ hhead, bare_append h.1 hstop, if_pos hblock, bare_of_block hne, hblock]

theorem first_word (h : symbols.IsWord text) (hquote : text.head? ≠ some '"')
    (hrest : ∀ x ∈ rest.head?, x = ' ') :
    first symbols true (text ++ rest) = ⟨.bare, text, rest.take 1⟩ := by
  have hclosing : closingBlank rest = rest.take 1 := by
    cases rest with
    | nil => rfl
    | cons x more =>
      obtain rfl := hrest x rfl
      rfl
  have hstop : Stops symbols text rest := by
    cases rest with
    | nil => exact nofun
    | cons x more =>
      obtain rfl := hrest x rfl
      exact stops_of_isBlank rfl
  rw [first_word_of_stops h hquote hstop, hclosing]

theorem quoted_closed (h : ∀ x ∈ text, Cursor.inQuotes x = true) (rest : List Char) :
    quoted (text ++ '"' :: rest) = ⟨.closed, text, ['"']⟩ := by
  have htake : (text ++ '"' :: rest).takeWhile Cursor.inQuotes = text := by
    rw [List.takeWhile_append_of_pos h]
    simp [Cursor.inQuotes]
  rw [quoted, htake, List.drop_left]
  rfl

end Piece

namespace Item

variable {symbols : SymbolSet}

theorem isWord_of_plain {text : List Char} (hne : text ≠ [])
    (h : ∀ x ∈ text, symbols.isPlain x = true) : symbols.IsWord text := by
  refine ⟨hne, ?_, ?_⟩
  · intro x hx
    apply h
    exact (List.dropWhile_sublist _).subset hx
  · -- a dash in front is plain, so it is no symbol
    intro hmem hhead
    have hdash := (Piece.isPlain_iff.mp (h '-' (List.mem_of_mem_head? hhead))).2
    exact absurd hmem hdash

theorem numeral_isWord {p : Numeral.Parts} (h : p.digits ≠ []) : symbols.IsWord p.text := by
  have hplain : ∀ x ∈ p.unsigned, symbols.isPlain x = true ∧ Cursor.opensNumeral x = true := by
    intro x hx
    have hword : isWord x = true ∧ Cursor.opensNumeral x = true := by
      rcases Numeral.isUnsigned_chars p.isUnsigned_unsigned x hx with hdigit | rfl
      · simp [isWord, Cursor.opensNumeral, hdigit]
      · exact ⟨by simp [isWord], rfl⟩
    have hblank := (not_delimiter_iff.mp (opensNumeral_not_delimiter hword.2)).1
    exact ⟨Piece.isPlain_iff.mpr ⟨hblank, SymbolSet.not_mem_of_word hword.1⟩, hword.2⟩
  have hne := Numeral.Parts.unsigned_ne_nil h
  simp only [Numeral.Parts.text]
  split
  · obtain ⟨x, rest, hx⟩ := List.exists_cons_of_ne_nil hne
    have hdrop : p.unsigned.dropWhile (· = '-') = p.unsigned := by
      rw [hx, List.dropWhile_cons_of_neg]
      have hhead := p.unsigned_no_dash
      simpa [hx] using hhead
    refine ⟨by simp, ?_, ?_⟩
    · intro y hy
      rw [List.dropWhile_cons_of_pos (by simp), hdrop] at hy
      exact (hplain y hy).1
    · intro _ _
      rw [hx]
      exact (hplain x (by simp [hx])).2
  · apply isWord_of_plain hne
    intro x hx
    exact (hplain x hx).1

theorem bareString_isWord {text : List Char} (h : (bareString text).Fits symbols) :
    symbols.IsWord text := by
  obtain ⟨-, hlength, -, -, hblank, hsymbols, hopens⟩ := h
  rw [List.all_eq_true] at hblank hsymbols
  refine ⟨?_, ?_, ?_⟩
  · rintro rfl
    simp at hlength
  · intro x hx
    have hx' := (List.dropWhile_sublist _).subset hx
    exact Piece.isPlain_iff.mpr ⟨by simpa using hblank x hx', by simpa using hsymbols x hx⟩
  · intro hmem hhead
    have hsecond := hopens hmem hhead
    rw [List.getD_eq_getElem?_getD]
    cases hget : text[1]? with
    | none => simp [hget] at hsecond
    | some x => simpa [hget] using hsecond

/-- What stands in front of a space is taken up as the run of the item, and the space with it
unless the item ends by itself. -/
theorem first_item {i : Item} (h : i.Fits symbols) {rest : List Char}
    (hrest : ∀ x ∈ rest.head?, x = ' ') :
    ∃ closing, Piece.first symbols true (i.written ++ rest) = ⟨i.form, i.text, closing⟩ ∧
      ((⟨i.form, i.text, closing⟩ : Piece).written = i.written ∨
        (⟨i.form, i.text, closing⟩ : Piece).written = i.written ++ rest.take 1) := by
  cases i with
  | name text =>
    obtain ⟨hletter, hplain⟩ := h
    obtain ⟨x, more, rfl⟩ : ∃ x more, text = x :: more := by
      cases text with
      | nil => simp at hletter
      | cons x more => exact ⟨x, more, rfl⟩
    have hword : symbols.IsWord (x :: more) :=
      isWord_of_plain (List.cons_ne_nil x more) (List.all_eq_true.mp hplain)
    have hx : isDelimiter x = false := letter_not_delimiter (by simpa using hletter)
    have hquote : (x :: more).head? ≠ some '"' := by simpa using (not_delimiter_iff.mp hx).2
    exact ⟨_, Piece.first_word hword hquote hrest, .inr rfl⟩
  | symbol x =>
    obtain ⟨hblank, hquote⟩ := not_delimiter_iff.mp h.1
    by_cases hx : x ∈ symbols
    · -- no sign without a character behind it that opens a numeral, even if the symbol is a dash
      have hopens : Cursor.opensNumeral ((x :: rest).getD 1 '\x00') = false := by
        cases rest with
        | nil => rfl
        | cons y more =>
          obtain rfl := hrest y rfl
          rfl
      exact ⟨[], Piece.first_symbol hx fun _ => .inr hopens, .inl rfl⟩
    · have hword : symbols.IsWord [x] := by
        apply isWord_of_plain (List.cons_ne_nil x [])
        intro y hy
        obtain rfl := List.mem_singleton.mp hy
        exact Piece.isPlain_iff.mpr ⟨hblank, hx⟩
      have hhead : [x].head? ≠ some '"' := by simpa using hquote
      exact ⟨_, Piece.first_word hword hhead hrest, .inr rfl⟩
  | numeral p =>
    have hquote := Numeral.Parts.head?_ne_quote h
    exact ⟨_, Piece.first_word (numeral_isWord h) hquote hrest, .inr rfl⟩
  | quoted text =>
    refine ⟨['"'], ?_, .inl rfl⟩
    have hsplit : (quoted text).written ++ rest = '"' :: (text ++ '"' :: rest) := by
      simp [written, form, Item.text]
    rw [hsplit, Piece.first_quote, Piece.quoted_closed (List.all_eq_true.mp h.2)]
    rfl
  | bareString text =>
    obtain ⟨-, -, hquote, -⟩ := id h
    exact ⟨_, Piece.first_word (bareString_isWord h) hquote hrest, .inr rfl⟩

theorem verdict_item {i : Item} (h : i.Fits symbols) (strict : Bool) (start : Position) :
    (i.run start).verdict strict = .token i.token := by
  cases i with
  | name text =>
    obtain ⟨hletter, -⟩ := h
    cases text with
    | nil => simp at hletter
    | cons x more =>
      have hx : isLetter x = true := by simpa using hletter
      have hnumeral : Numeral.isNumeral (x :: more) = false :=
        Numeral.not_isNumeral_of_mem (List.mem_cons_self) (letter_not_opensNumeral hx)
      exact Verdict.stands_iff.mp (.name hnumeral hx)
  | symbol x =>
    obtain ⟨hletter, hdigit, hpoint⟩ := not_word_iff.mp h.2
    have hnumeral : Numeral.isNumeral [x] = false := by
      by_cases hdash : x = '-'
      · subst hdash
        rfl
      · apply Numeral.not_isNumeral_of_mem (List.mem_singleton_self x)
        simp [Cursor.opensNumeral, hdigit, hpoint, hdash]
    exact Verdict.stands_iff.mp (.symbol hnumeral hletter)
  | numeral p =>
    have hnumeral := Numeral.Parts.isNumeral_text h
    have hdigit := p.hasDigit_text.mpr h
    rw [token, ← p.value_text]
    exact Verdict.stands_iff.mp (.number hnumeral hdigit)
  | quoted text => exact Verdict.ofQuoted_eq h.1
  | bareString text =>
    obtain ⟨hquote, hlength, -, hletter, -⟩ := h
    have hnumeral : Numeral.isNumeral text = false := Numeral.not_isNumeral_of_mem hquote rfl
    obtain ⟨x, rest, rfl⟩ := List.exists_cons_of_ne_nil (List.ne_nil_of_mem hquote)
    have hx : isLetter x = false := by simpa using hletter
    cases rest with
    | nil => simp at hlength
    | cons y more => exact Verdict.stands_iff.mp (.string hnumeral hx)

theorem notice?_item (i : Item) (strict : Bool) (start : Position) :
    (i.run start).notice? strict = none := by
  cases i <;> simp [Run.notice?, Run.warning?, run, form]

theorem ofRun_item {i : Item} (h : i.Fits symbols) (strict : Bool) (start : Position) :
    Findings.ofRun strict (i.run start) = ⟨[⟨i.token, start⟩], [], none⟩ := by
  have houtcome : (i.run start).outcome? strict = some (.token ⟨i.token, start⟩) := by
    rw [Run.outcome?, verdict_item h]
    rfl
  simp [Findings.ofRun, Run.token?, Run.fault?, houtcome, notice?_item, Outcome.token?,
    Outcome.fault?]

theorem written_head {i : Item} (h : i.Fits symbols) :
    ∃ x more, i.written = x :: more ∧ x ≠ ' ' := by
  cases hform : i.form with
  | closed => exact ⟨'"', i.text ++ ['"'], by rw [written, hform], by decide⟩
  | unclosed => exact ⟨'"', i.text ++ ['"'], by rw [written, hform], by decide⟩
  | bare =>
    have hverdict := verdict_item h false Position.start
    have hwritten : i.written = i.text := by rw [written, hform]
    cases htext : i.text with
    | nil => simp [run, Run.verdict, hform, htext, Verdict.ofBare] at hverdict
    | cons x more =>
      refine ⟨x, more, hwritten.trans htext, ?_⟩
      rintro rfl
      -- a space in front would be a run by itself, and it has no text
      have hnone : ∀ x ∈ ([] : List Char).head?, x = ' ' := by simp
      obtain ⟨closing, hfirst, -⟩ := first_item h hnone
      rw [hwritten, htext, List.append_nil, Piece.first_bare _ _ (by simp),
        Piece.bare_of_block_nil (Piece.block_blank rfl)] at hfirst
      cases congrArg Piece.text hfirst

theorem runsFrom_item {i : Item} (h : i.Fits symbols) {start : Position} {rest : List Char}
    (hrest : ∀ x ∈ rest.head?, x = ' ') :
    runsFrom symbols true start (i.written ++ rest) =
      i.run start :: runsFrom symbols true (start.after (i.written ++ rest.take 1)) rest.tail := by
  obtain ⟨closing, hfirst, hwritten⟩ := first_item h hrest
  obtain ⟨x, more, hx, hspace⟩ := written_head h
  have hhead : (i.written ++ rest).head? ≠ some ' ' := by simpa [hx] using hspace
  rw [runsFrom_piece (by simp [hx]) hhead, hfirst]
  congr 1
  rcases hwritten with hw | hw
  · rw [hw, List.drop_left]
    cases rest with
    | nil => simp
    | cons y rest =>
      obtain rfl := hrest y rfl
      rw [runsFrom_space, Position.after_append]
      rfl
  · rw [hw]
    cases rest with
    | nil => simp
    | cons y rest =>
      obtain rfl := hrest y rfl
      rw [List.take_one, List.head?_cons, Option.toList_some, freshAfter_concat,
        List.append_cons i.written ' ' rest, List.drop_left]
      rfl

theorem findings_render {items : List Item} (h : ∀ i ∈ items, i.Fits symbols) (strict : Bool)
    (start : Position) : Findings.ofRuns strict (runsFrom symbols true start (render items)) =
      ⟨placed start items, [], none⟩ := by
  induction items generalizing start with
  | nil => simp [render, placed, Findings.empty]
  | cons i items ih =>
    have hi : i.Fits symbols := h i (by simp)
    have hown := ofRun_item hi strict start
    have hrest := ih (fun j hj => h j (by simp [hj])) (start.after (i.written ++ [' ']))
    cases items with
    | nil =>
      have hnone : ∀ x ∈ ([] : List Char).head?, x = ' ' := by simp
      have hlast : runsFrom symbols true start (i.written ++ []) = [i.run start] := by
        rw [runsFrom_item hi hnone, List.tail_nil, runsFrom_nil]
      rw [List.append_nil] at hlast
      simp [render, placed, hlast, hown]
    | cons j items =>
      have hsplit : render (i :: j :: items) = i.written ++ ' ' :: render (j :: items) := by
        simp [render]
      rw [hsplit, runsFrom_item hi (by simp), Findings.ofRuns_cons, hown,
        Findings.followedBy_of_no_fault rfl]
      simp only [List.take_one, List.head?_cons, Option.toList_some, List.tail_cons, hrest]
      rfl

end Item

/-- Items that fit the symbols and stand a space apart are scanned as themselves, in either mode:
every token at its place, and neither a warning nor a fault. -/
theorem scan_render (settings : Settings) (items : List Item)
    (h : ∀ i ∈ items, i.Fits settings.symbols) :
    (scan settings (Item.render items)).findings = ⟨Item.placed .start items, [], none⟩ ∧
      (Item.placed .start items).map Placed.item = items.map Item.token := by
  rw [scan_findings]
  exact ⟨Item.findings_render h settings.strict .start, Item.placed_items .start items⟩

theorem scan_render_mixed :
    let items : List Item := [.name ['x', '"'], .symbol '-',
      .numeral ⟨true, ['1'], some ['5'], by simp⟩, .quoted ['a', ' ', '-'],
      .bareString ['-', '-', '"'], .symbol '!']
    Item.render items = "x\" - -1.5 \"a -\" --\" !".toList ∧
      (∀ i ∈ items, i.Fits Settings.standard.symbols) ∧
      (scan .standard (Item.render items)).findings = ⟨Item.placed .start items, [], none⟩ ∧
      (Item.placed .start items).map Placed.item = items.map Item.token := by
  intro items
  have hfits : ∀ i ∈ items, i.Fits Settings.standard.symbols := by decide +kernel
  exact ⟨by decide +kernel, hfits, scan_render .standard items hfits⟩

end ExprLex
