import ExprLex.Proofs.Runs

/-!
# Text behind a piece

When more text is put behind a text, its first piece stays as it is, unless the piece is open: it
takes up the whole text and would go on with it. Characters that neither carry a run on nor make a
dash a sign leave the run as it is, and a blank among them is consumed with it. Between quotes only
a newline does so.
-/
namespace ExprLex
open Text

theorem takeWhile_append_of_stop {p : Char → Bool} {text more : List Char}
    (h : ∀ x ∈ more.head?, p x = false) : (text ++ more).takeWhile p = text.takeWhile p := by
  have hmore : more.takeWhile p = [] := by
    cases more with
    | nil => rfl
    | cons x more => simp [h x rfl]
  rw [List.takeWhile_append, hmore, List.append_nil]
  split
  · rename_i hlen
    exact ((List.takeWhile_prefix p).eq_of_length hlen).symm
  · rfl

theorem takeWhile_append_of_ne {p : Char → Bool} {text : List Char}
    (h : text.takeWhile p ≠ text) (more : List Char) :
    (text ++ more).takeWhile p = text.takeWhile p := by
  rw [List.takeWhile_append, if_neg]
  intro hlen
  exact h ((List.takeWhile_prefix p).eq_of_length hlen)

theorem drop_ne_nil_of_isPrefix {part text : List Char} (h : part <+: text) (hne : part ≠ text) :
    text.drop part.length ≠ [] := by
  intro hend
  have heq := List.prefix_iff_eq_append.mp h
  rw [hend, List.append_nil] at heq
  exact hne heq

namespace Piece

variable {symbols : SymbolSet} {fresh : Bool} {text more : List Char}

/-- The first piece takes up the whole text and would go on if the text did. -/
def IsOpen (symbols : SymbolSet) (fresh : Bool) (text : List Char) : Prop :=
  if text.head? = some '"' then text.tail.takeWhile Cursor.inQuotes = text.tail
  else block symbols fresh text = text

instance : Decidable (IsOpen symbols fresh text) :=
  inferInstanceAs (Decidable (if text.head? = some '"' then _ else _))

/-- Outside quotes `more` neither carries on a run that ends the text nor makes a dash that ends
the text a sign. -/
def Stops (symbols : SymbolSet) (text more : List Char) : Prop :=
  ∀ x ∈ more.head?, symbols.isPlain x = false ∧
    (Cursor.opensNumeral x = true → text.getLast? ≠ some '-')

theorem stops_of_isBlank {x : Char} (hx : isBlank x = true) : Stops symbols text (x :: more) := by
  rintro y ⟨⟩
  refine ⟨by simp [SymbolSet.isPlain, hx], fun hopens => ?_⟩
  rw [(not_delimiter_iff.mp (opensNumeral_not_delimiter hopens)).1] at hx
  cases hx

theorem Stops.drop (h : Stops symbols text more) (n : Nat) : Stops symbols (text.drop n) more := by
  intro x hx
  obtain ⟨hplain, hdash⟩ := h x hx
  refine ⟨hplain, fun hopens => ?_⟩
  rw [List.getLast?_drop]
  split
  · exact nofun
  · exact hdash hopens

theorem sign_append (hne : text ≠ []) (hstop : Stops symbols text more) :
    sign symbols fresh (text ++ more) = sign symbols fresh text := by
  obtain ⟨y, rest, rfl⟩ := List.exists_cons_of_ne_nil hne
  by_cases hdash : (y :: rest).getLast? = some '-'
  · -- the text may be dashes up to its end, so what comes next must not open a numeral
    have hopens : ∀ x ∈ more.head?, Cursor.opensNumeral x = false := by
      intro x hx
      rw [Bool.eq_false_iff]
      exact fun hopens => (hstop x hx).2 hopens hdash
    have htake : ∀ x ∈ more.head?, decide (x = '-') = false := by
      intro x hx
      rw [decide_eq_false_iff_not]
      rintro rfl
      cases hopens '-' hx
    have hsecond : Cursor.opensNumeral ((y :: rest ++ more).getD 1 '\x00') =
        Cursor.opensNumeral ((y :: rest).getD 1 '\x00') := by
      cases rest with
      | cons z rest => rfl
      | nil =>
        cases more with
        | nil => rfl
        | cons z more => exact hopens z rfl
    simp only [sign, hsecond, takeWhile_append_of_stop htake]
  · have hshort : (y :: rest).takeWhile (· = '-') ≠ y :: rest := by
      intro hall
      have hmem : (y :: rest).getLast hne ∈ (y :: rest).takeWhile (· = '-') :=
        hall.symm ▸ List.getLast_mem hne
      have hlast := List.mem_takeWhile_imp hmem
      rw [decide_eq_true_eq] at hlast
      exact hdash (hlast ▸ List.getLast?_eq_some_getLast hne)
    cases rest with
    | cons z rest =>
      have htake := takeWhile_append_of_ne hshort more
      rw [sign, sign, htake]
      rfl
    | nil =>
      have hy : y ≠ '-' := by simpa using hdash
      rw [List.singleton_append, sign_of_ne hy, sign_of_ne hy]

theorem block_append (hne : text ≠ []) (hstop : Stops symbols text more) :
    block symbols fresh (text ++ more) = block symbols fresh text := by
  have hsign : sign symbols fresh (text ++ more) = sign symbols fresh text :=
    sign_append hne hstop
  have hle := (sign_isPrefix symbols fresh text).length_le
  rw [block, hsign, List.drop_append_of_le_length hle,
    takeWhile_append_of_stop fun x hx => (hstop x hx).1]
  rfl

theorem bare_append (hne : text ≠ []) (hstop : Stops symbols text more) :
    bare symbols fresh (text ++ more) =
      if block symbols fresh text = text then
        { bare symbols fresh text with closing := closingBlank more }
      else bare symbols fresh text := by
  have hblock : block symbols fresh (text ++ more) = block symbols fresh text :=
    block_append hne hstop
  obtain ⟨x, rest, rfl⟩ := List.exists_cons_of_ne_nil hne
  by_cases hnil : block symbols fresh (x :: rest) = []
  · rw [List.cons_append] at hblock ⊢
    rw [bare_of_block_nil hnil, bare_of_block_nil (hblock.trans hnil), hnil]
    simp
  · rw [bare_of_block hnil, bare_of_block (hblock ▸ hnil), hblock]
    have hprefix := block_isPrefix symbols fresh (x :: rest)
    rw [List.drop_append_of_le_length hprefix.length_le]
    split
    · rename_i hall
      rw [hall, List.drop_length]
      rfl
    · rename_i hpart
      obtain ⟨y, ys, hy⟩ := List.exists_cons_of_ne_nil (drop_ne_nil_of_isPrefix hprefix hpart)
      simp [hy, closingBlank]

theorem quoted_append (h : text.takeWhile Cursor.inQuotes = text → more.head? = some '\n') :
    quoted (text ++ more) =
      if text.takeWhile Cursor.inQuotes = text then
        { quoted text with closing := closingBlank more }
      else quoted text := by
  have hprefix : text.takeWhile Cursor.inQuotes <+: text := List.takeWhile_prefix _
  by_cases hall : text.takeWhile Cursor.inQuotes = text
  · obtain ⟨rest, rfl⟩ : ∃ rest, more = '\n' :: rest := List.head?_eq_some_iff.mp (h hall)
    have hstop : ∀ x ∈ ('\n' :: rest).head?, Cursor.inQuotes x = false := by
      simp [Cursor.inQuotes]
    simp [quoted, takeWhile_append_of_stop hstop, hall, closingBlank, isBlank, isBreak]
  · obtain ⟨y, ys, hy⟩ := List.exists_cons_of_ne_nil (drop_ne_nil_of_isPrefix hprefix hall)
    rw [if_neg hall]
    simp only [quoted, takeWhile_append_of_ne hall]
    rw [List.drop_append_of_le_length hprefix.length_le, hy]
    simp

theorem first_append (hne : text ≠ []) (hstop : Stops symbols text more)
    (hquote : text.head? = some '"' → IsOpen symbols fresh text → more.head? = some '\n') :
    first symbols fresh (text ++ more) =
      if IsOpen symbols fresh text then
        { first symbols fresh text with closing := closingBlank more }
      else first symbols fresh text := by
  obtain ⟨x, rest, rfl⟩ := List.exists_cons_of_ne_nil hne
  by_cases hx : x = '"'
  · subst hx
    have hrest : rest.takeWhile Cursor.inQuotes = rest → more.head? = some '\n' := hquote rfl
    rw [List.cons_append, first_quote, first_quote, quoted_append hrest]
    rfl
  · have hhead : ∀ tail : List Char, (x :: tail).head? ≠ some '"' := fun _ => by simpa using hx
    have hopen : IsOpen symbols fresh (x :: rest) ↔
        block symbols fresh (x :: rest) = x :: rest := by simp [IsOpen, hx]
    rw [first_bare _ _ (hhead _), List.cons_append, first_bare _ _ (hhead _), ← List.cons_append,
      bare_append hne hstop]
    simp only [hopen]

theorem written_of_isOpen (hne : text ≠ []) (h : IsOpen symbols fresh text) :
    (first symbols fresh text).closing = [] ∧ (first symbols fresh text).written = text := by
  obtain ⟨x, rest, rfl⟩ := List.exists_cons_of_ne_nil hne
  by_cases hx : x = '"'
  · subst hx
    have hall : rest.takeWhile Cursor.inQuotes = rest := h
    have hclosing : (quoted rest).closing = [] := by simp [quoted, hall]
    have htext : (quoted rest).text = rest := hall
    rw [first_quote, quoted_written, hclosing, htext]
    simp
  · have hhead : (x :: rest).head? ≠ some '"' := by simpa using hx
    have hall : block symbols fresh (x :: rest) = x :: rest := by simpa [IsOpen, hx] using h
    rw [first_bare _ _ hhead, bare_written, bare_of_block (by simp [hall]), hall]
    simp [closingBlank]

theorem written_with_closing {k : Piece} (h : k.closing = []) (closing : List Char) :
    { k with closing := closing : Piece }.written = k.written ++ closing := by
  obtain ⟨form, text, end_⟩ := k
  obtain rfl : end_ = [] := h
  cases form <;> simp [written]

end Piece
end ExprLex
