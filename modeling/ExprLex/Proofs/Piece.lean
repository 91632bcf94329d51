import Mathlib.Data.List.TakeWhile
import ExprLex.Proofs.Classes
import ExprLex.Proofs.Movement

/-!
# The first piece of a text

A piece is what one run takes up of a text: the opening quote if there is one, the run itself, and
the character that is consumed to end it. Which piece a text begins with is told without a cursor
and without a loop: a run outside quotes is the sign, if one may begin there, and then the longest
stretch of characters that are neither blank nor symbols; a run between quotes is the longest
stretch without a quote or a newline. The reading of a cursor agrees with this.
-/
namespace ExprLex
open Text

theorem drop_length_takeWhile (p : Char → Bool) (text : List Char) :
    text.drop (text.takeWhile p).length = text.dropWhile p := by
  have hsplit : text.takeWhile p ++ text.dropWhile p = text := List.takeWhile_append_dropWhile
  have h : (text.takeWhile p ++ text.dropWhile p).drop (text.takeWhile p).length =
      text.dropWhile p := List.drop_left
  rwa [hsplit] at h

def SymbolSet.isPlain (symbols : SymbolSet) (x : Char) : Bool := !isBlank x && !decide (x ∈ symbols)

structure Piece where
  form : Run.Form
  text : List Char
  closing : List Char
deriving DecidableEq

namespace Piece

def written (k : Piece) : List Char :=
  match k.form with
  | .bare => k.text ++ k.closing
  | _ => '"' :: (k.text ++ k.closing)

/-- The dashes in front of a text, provided that they are a sign. -/
def sign (symbols : SymbolSet) (fresh : Bool) (text : List Char) : List Char :=
  if '-' ∈ symbols ∧ fresh = true ∧ Cursor.opensNumeral (text.getD 1 '\x00') = true then
    text.takeWhile (· = '-')
  else []

/-- What can be read outside quotes at the front of a text, a lone symbol apart. -/
def block (symbols : SymbolSet) (fresh : Bool) (text : List Char) : List Char :=
  sign symbols fresh text ++
    (text.drop (sign symbols fresh text).length).takeWhile symbols.isPlain

def closingBlank (rest : List Char) : List Char := (rest.take 1).filter isBlank

def bare (symbols : SymbolSet) (fresh : Bool) (text : List Char) : Piece :=
  let run := block symbols fresh text
  if run = [] then ⟨.bare, (text.take 1).filter (!isBlank ·), closingBlank text⟩
  else ⟨.bare, run, closingBlank (text.drop run.length)⟩

/-- The piece whose opening quote stands in front of this text. -/
def quoted (text : List Char) : Piece :=
  let run := text.takeWhile Cursor.inQuotes
  let rest := text.drop run.length
  ⟨if rest.head? = some '"' then .closed else .unclosed, run, rest.take 1⟩

def first (symbols : SymbolSet) (fresh : Bool) (text : List Char) : Piece :=
  if text.head? = some '"' then quoted text.tail else bare symbols fresh text

theorem mem_of_closingBlank {rest : List Char} {x : Char} (h : x ∈ closingBlank rest) :
    isBlank x = true := (List.mem_filter.mp h).2

theorem closingBlank_isPrefix (rest : List Char) : closingBlank rest <+: rest := by
  cases rest with
  | nil => exact List.prefix_rfl
  | cons x rest =>
    cases h : isBlank x with
    | false => simp [closingBlank, h]
    | true => exact ⟨rest, by simp [closingBlank, h]⟩

theorem sign_isPrefix (symbols : SymbolSet) (fresh : Bool) (text : List Char) :
    sign symbols fresh text <+: text := by
  simp only [sign]
  split
  · exact List.takeWhile_prefix _
  · exact List.nil_prefix

theorem block_isPrefix (symbols : SymbolSet) (fresh : Bool) (text : List Char) :
    block symbols fresh text <+: text := by
  have hsign := List.prefix_iff_eq_append.mp (sign_isPrefix symbols fresh text)
  have hplain : (text.drop (sign symbols fresh text).length).takeWhile symbols.isPlain <+:
      text.drop (sign symbols fresh text).length := List.takeWhile_prefix _
  have := (List.prefix_append_right_inj (sign symbols fresh text)).mpr hplain
  rwa [hsign] at this

theorem isPlain_iff {symbols : SymbolSet} {x : Char} :
    symbols.isPlain x = true ↔ isBlank x = false ∧ x ∉ symbols := by
  simp [SymbolSet.isPlain]

theorem sign_of_ne {symbols : SymbolSet} {fresh : Bool} {x : Char} {rest : List Char}
    (h : x ≠ '-') : sign symbols fresh (x :: rest) = [] := by
  simp only [sign]
  split <;> simp [h]

theorem sign_of_not_mem {symbols : SymbolSet} (fresh : Bool) (text : List Char)
    (h : '-' ∉ symbols) : sign symbols fresh text = [] := by simp [sign, h]

theorem block_of_no_sign {symbols : SymbolSet} {fresh : Bool} {text : List Char}
    (h : sign symbols fresh text = []) :
    block symbols fresh text = text.takeWhile symbols.isPlain := by simp [block, h]

theorem block_blank {symbols : SymbolSet} {fresh : Bool} {x : Char} {rest : List Char}
    (hx : isBlank x = true) : block symbols fresh (x :: rest) = [] := by
  have hne : x ≠ '-' := by rintro rfl; revert hx; decide
  rw [block_of_no_sign (sign_of_ne hne)]
  simp [SymbolSet.isPlain, hx]

theorem block_plain {symbols : SymbolSet} {fresh : Bool} {x : Char} {rest : List Char}
    (hx : symbols.isPlain x = true) :
    block symbols fresh (x :: rest) = x :: rest.takeWhile symbols.isPlain := by
  have hsign : sign symbols fresh (x :: rest) = [] := by
    by_cases hd : x = '-'
    · exact sign_of_not_mem fresh _ (hd ▸ (isPlain_iff.mp hx).2)
    · exact sign_of_ne hd
  rw [block_of_no_sign hsign]
  simp [hx]

theorem block_sign {symbols : SymbolSet} {rest : List Char} (hd : '-' ∈ symbols)
    (ho : Cursor.opensNumeral (('-' :: rest).getD 1 '\x00') = true) :
    block symbols true ('-' :: rest) = '-' :: (rest.takeWhile (· = '-') ++
      (rest.drop (rest.takeWhile (· = '-')).length).takeWhile symbols.isPlain) := by
  have hsign : sign symbols true ('-' :: rest) = '-' :: rest.takeWhile (· = '-') := by
    rw [sign, if_pos ⟨hd, rfl, ho⟩]
    simp
  simp [block, hsign]

theorem block_symbol {symbols : SymbolSet} {fresh : Bool} {x : Char} {rest : List Char}
    (hx : x ∈ symbols) (hs : x = '-' → fresh = false ∨
      Cursor.opensNumeral ((x :: rest).getD 1 '\x00') = false) :
    block symbols fresh (x :: rest) = [] := by
  have hsign : sign symbols fresh (x :: rest) = [] := by
    by_cases hd : x = '-'
    · rw [sign, if_neg]
      rintro ⟨-, hf, ho⟩
      rcases hs hd with h | h
      · simp [h] at hf
      · rw [h] at ho
        cases ho
    · exact sign_of_ne hd
  rw [block_of_no_sign hsign]
  simp [SymbolSet.isPlain, hx]

theorem bare_of_block_nil {symbols : SymbolSet} {fresh : Bool} {x : Char} {rest : List Char}
    (h : block symbols fresh (x :: rest) = []) :
    bare symbols fresh (x :: rest) = if isBlank x then ⟨.bare, [], [x]⟩ else ⟨.bare, [x], []⟩ := by
  cases hx : isBlank x <;> simp [bare, h, closingBlank, hx]

theorem bare_of_block {symbols : SymbolSet} {fresh : Bool} {text : List Char}
    (h : block symbols fresh text ≠ []) :
    bare symbols fresh text = ⟨.bare, block symbols fresh text,
      closingBlank (text.drop (block symbols fresh text).length)⟩ := by
  simp [bare, h]

theorem bare_form (symbols : SymbolSet) (fresh : Bool) (text : List Char) :
    (bare symbols fresh text).form = .bare := by
  simp only [bare]
  split <;> rfl

theorem quoted_form_ne_bare (text : List Char) : (quoted text).form ≠ .bare := by
  simp only [quoted]
  split <;> simp

theorem bare_written (symbols : SymbolSet) (fresh : Bool) (text : List Char) :
    (bare symbols fresh text).written =
      (bare symbols fresh text).text ++ (bare symbols fresh text).closing := by
  simp [written, bare_form]

theorem quoted_written (text : List Char) :
    (quoted text).written = '"' :: ((quoted text).text ++ (quoted text).closing) := by
  simp only [written]
  split
  · rename_i h
    exact absurd h (quoted_form_ne_bare text)
  · rfl

theorem bare_written_isPrefix (symbols : SymbolSet) (fresh : Bool) (text : List Char) :
    (bare symbols fresh text).written <+: text := by
  rw [bare_written]
  by_cases h : block symbols fresh text = []
  · cases text with
    | nil => simp [bare, h, closingBlank]
    | cons x rest =>
      rw [bare_of_block_nil h]
      split <;> exact ⟨rest, rfl⟩
  · rw [bare_of_block h]
    have hblock := List.prefix_iff_eq_append.mp (block_isPrefix symbols fresh text)
    have := (List.prefix_append_right_inj (block symbols fresh text)).mpr
      (closingBlank_isPrefix (text.drop (block symbols fresh text).length))
    rwa [hblock] at this

theorem quoted_isPrefix (text : List Char) : (quoted text).text ++ (quoted text).closing <+: text := by
  have hrun : text.takeWhile Cursor.inQuotes <+: text := List.takeWhile_prefix _
  have := (List.prefix_append_right_inj (text.takeWhile Cursor.inQuotes)).mpr
    (List.take_prefix 1 (text.drop (text.takeWhile Cursor.inQuotes).length))
  rwa [List.prefix_iff_eq_append.mp hrun] at this

/-- Text between quotes ends with the closing quote, or else with the line or the whole text. -/
def EndsQuotes (k : Piece) (rest : List Char) : Prop :=
  k.form = .closed ∧ k.closing = ['"'] ∨
    k.form = .unclosed ∧ (k.closing = ['\n'] ∨ k.closing = [] ∧ rest = [])

theorem quoted_shape (text : List Char) :
    ∃ rest, (quoted text).text ++ ((quoted text).closing ++ rest) = text ∧
      (quoted text).EndsQuotes rest := by
  have hsplit : text.takeWhile Cursor.inQuotes ++ text.dropWhile Cursor.inQuotes = text :=
    List.takeWhile_append_dropWhile
  have hhead := List.head?_dropWhile_not Cursor.inQuotes text
  simp only [quoted, EndsQuotes, drop_length_takeWhile]
  cases hdrop : text.dropWhile Cursor.inQuotes with
  | nil => exact ⟨[], by simpa [hdrop] using hsplit, by simp⟩
  | cons x rest =>
    refine ⟨rest, by simpa [hdrop] using hsplit, ?_⟩
    have hx : x = '"' ∨ x = '\n' := by
      rw [hdrop] at hhead
      by_contra hne
      simp_all [Cursor.inQuotes]
    rcases hx with rfl | rfl <;> simp

theorem bare_closing_blank (symbols : SymbolSet) (fresh : Bool) (text : List Char) :
    ∀ x ∈ (bare symbols fresh text).closing, isBlank x = true := by
  intro x hx
  simp only [bare] at hx
  split at hx <;> exact mem_of_closingBlank hx

theorem mem_sign {symbols : SymbolSet} {fresh : Bool} {text : List Char} {x : Char}
    (h : x ∈ sign symbols fresh text) : x = '-' := by
  simp only [sign] at h
  split at h
  · simpa using List.mem_takeWhile_imp h
  · cases h

theorem bare_text_not_blank (symbols : SymbolSet) (fresh : Bool) (text : List Char) :
    ∀ x ∈ (bare symbols fresh text).text, isBlank x = false := by
  intro x hx
  simp only [bare] at hx
  split at hx
  · simpa using (List.mem_filter.mp hx).2
  · rcases List.mem_append.mp hx with hsign | hplain
    · rw [mem_sign hsign]
      rfl
    · exact (isPlain_iff.mp (List.mem_takeWhile_imp hplain)).1

theorem first_quote (symbols : SymbolSet) (fresh : Bool) (rest : List Char) :
    first symbols fresh ('"' :: rest) = quoted rest := rfl

theorem first_bare (symbols : SymbolSet) (fresh : Bool) {text : List Char}
    (h : text.head? ≠ some '"') : first symbols fresh text = bare symbols fresh text := by
  simp [first, h]

theorem first_symbol {symbols : SymbolSet} {fresh : Bool} {x : Char} {rest : List Char}
    (hx : x ∈ symbols) (hs : x = '-' → fresh = false ∨
      Cursor.opensNumeral ((x :: rest).getD 1 '\x00') = false) :
    first symbols fresh (x :: rest) = ⟨.bare, [x], []⟩ := by
  obtain ⟨hblank, hquote⟩ := not_delimiter_iff.mp (symbols.admissible x hx).1
  have hhead : (x :: rest).head? ≠ some '"' := by simpa using hquote
  rw [first_bare _ _ hhead, bare_of_block_nil (block_symbol hx hs), hblank]
  rfl

theorem first_written_isPrefix (symbols : SymbolSet) (fresh : Bool) (text : List Char) :
    (first symbols fresh text).written <+: text := by
  by_cases h : text.head? = some '"'
  · obtain ⟨rest, rfl⟩ : ∃ rest, text = '"' :: rest := List.head?_eq_some_iff.mp h
    rw [first_quote, quoted_written]
    exact (List.prefix_cons_inj '"').mpr (quoted_isPrefix rest)
  · rw [first_bare symbols fresh h]
    exact bare_written_isPrefix symbols fresh text

theorem first_written_append (symbols : SymbolSet) (fresh : Bool) (text : List Char) :
    (first symbols fresh text).written ++ text.drop (first symbols fresh text).written.length =
      text := List.prefix_iff_eq_append.mp (first_written_isPrefix symbols fresh text)

theorem first_written_ne_nil (symbols : SymbolSet) (fresh : Bool) {text : List Char}
    (h : text ≠ []) : (first symbols fresh text).written ≠ [] := by
  by_cases hq : text.head? = some '"'
  · obtain ⟨rest, rfl⟩ : ∃ rest, text = '"' :: rest := List.head?_eq_some_iff.mp hq
    simp [first_quote, quoted_written]
  · rw [first_bare symbols fresh hq, bare_written]
    obtain ⟨x, rest, rfl⟩ := List.exists_cons_of_ne_nil h
    by_cases hb : block symbols fresh (x :: rest) = []
    · rw [bare_of_block_nil hb]
      split <;> simp
    · simp [bare_of_block hb, hb]

end Piece
end ExprLex
