import ExprLex.Proofs.Bookkeeping
import ExprLex.Proofs.Coverage

/-!
# What is read outside quotes

Where a run outside quotes ends, and where it leaves the cursor, is told from the characters at
their offsets, for any place in a text and without reading on from one character to the next: there
is a stretch of characters that are neither blanks nor symbols, as long as it can be, and perhaps a
sign in front of it; or there is a single symbol; or there is nothing.
-/
namespace ExprLex
open Text

theorem extract_append (text : List Char) {i j k : Nat} (hij : i ≤ j) (hjk : j ≤ k) :
    text.extract i j ++ text.extract j k = text.extract i k := by
  have hsum : k - i = (j - i) + (k - j) := by omega
  have hdrop : (text.drop i).drop (j - i) = text.drop j := by
    rw [List.drop_drop, Nat.add_sub_cancel' hij]
  simp only [List.extract_eq_take_drop, hsum, List.take_add, hdrop]

theorem length_extract {text : List Char} {i j : Nat} (hij : i ≤ j) (hj : j ≤ text.length) :
    i + (text.extract i j).length = j := by
  rw [List.extract_eq_take_drop, List.length_take, List.length_drop]
  omega

theorem drop_of_getElem? {text : List Char} {i : Nat} {x : Char} (hx : text[i]? = some x) :
    text.drop i = x :: text.drop (i + 1) := by
  obtain ⟨hi, rfl⟩ := List.getElem?_eq_some_iff.mp hx
  exact List.drop_eq_getElem_cons hi

/-- From the offset `i` on the characters have the property up to the offset `j` and no further. -/
structure Stretch (P : Char → Prop) (text : List Char) (i j : Nat) : Prop where
  le : i ≤ j
  within : j ≤ text.length
  inside : ∀ k, i ≤ k → k < j → ∃ x ∈ text[k]?, P x
  stops : ∀ x ∈ text[j]?, ¬ P x

namespace Stretch

variable {P : Char → Prop} {text : List Char} {i j k : Nat}

theorem end_le (h : Stretch P text i j) (h' : Stretch P text i k) : j ≤ k := by
  by_contra hlt
  obtain ⟨x, hx, hP⟩ := h.inside k h'.le (by omega)
  exact h'.stops x hx hP

theorem unique (h : Stretch P text i j) (h' : Stretch P text i k) : j = k :=
  Nat.le_antisymm (h.end_le h') (h'.end_le h)

theorem of_drop {part rest : List Char} (hi : i ≤ text.length) (h : text.drop i = part ++ rest)
    (hpart : ∀ x ∈ part, P x) (hrest : ∀ x ∈ rest.head?, ¬ P x) :
    Stretch P text i (i + part.length) := by
  have hlength := length_of_drop hi h
  refine ⟨Nat.le_add_right _ _, by omega, fun k hle hlt => ?_, fun x hx => ?_⟩
  · obtain ⟨m, rfl⟩ := Nat.exists_eq_add_of_le hle
    have hm : m < part.length := by omega
    have hget : text[i + m]? = part[m]? := by
      rw [← List.getElem?_drop, h, List.getElem?_append_left hm]
    exact ⟨part[m], by rw [hget, List.getElem?_eq_getElem hm]; rfl, hpart _ (List.getElem_mem hm)⟩
  · rw [getElem?_of_drop h] at hx
    exact hrest x hx

theorem of_takeWhile {p : Char → Bool} (hp : ∀ x, p x = true ↔ P x) (hi : i ≤ text.length) :
    Stretch P text i (i + ((text.drop i).takeWhile p).length) := by
  refine of_drop hi List.takeWhile_append_dropWhile.symm ?_ ?_
  · intro x hx
    exact (hp x).mp (List.mem_takeWhile_imp hx)
  · intro x hx hP
    have hstop := List.head?_dropWhile_not p (text.drop i)
    rw [Option.mem_def.mp hx] at hstop
    have hnot : p x = false := hstop
    rw [(hp x).mpr hP] at hnot
    cases hnot

/-- The stretch holds what is taken from its beginning on. -/
theorem takeWhile_eq {p : Char → Bool} (h : Stretch P text i j) (hp : ∀ x, p x = true ↔ P x) :
    (text.drop i).takeWhile p = text.extract i j := by
  have hj := h.unique (of_takeWhile hp (h.le.trans h.within))
  rw [hj]
  exact (extract_of_drop List.takeWhile_append_dropWhile.symm).symm

end Stretch

section

variable (symbols : SymbolSet) (text : List Char)

/-- A dash at the offset `p` is a sign: nothing that it could be subtracted from touches it, and a
digit, a point or one more dash comes next. -/
structure SignAt (p : Nat) : Prop where
  symbol : '-' ∈ symbols
  dash : text[p]? = some '-'
  free : p = 0 ∨ ∃ x ∈ text[p - 1]?, isBlank x = true ∨ x ∈ symbols
  opens : ∃ x ∈ text[p + 1]?, x.isDigit = true ∨ x = '.' ∨ x = '-'

/-- A run that ends at the offset `q` leaves the cursor there, at the end of the text or in front of
a symbol, and else behind the blank that ends it. -/
inductive LeavesAt (q : Nat) : Nat → Prop
  | atEnd : q = text.length → LeavesAt q q
  | symbol {x : Char} : text[q]? = some x → x ∈ symbols → LeavesAt q q
  | blank {x : Char} : text[q]? = some x → isBlank x = true → LeavesAt q (q + 1)

/-- Outside quotes the run is read from the offset `p` on, and the cursor is then left at the last
offset. -/
inductive ReadsBare (p : Nat) : List Char → Nat → Prop
  | atEnd : p = text.length → ReadsBare p [] p
  | blank {x : Char} : text[p]? = some x → isBlank x = true → ReadsBare p [] (p + 1)
  | sign {d q after : Nat} : SignAt symbols text p → Stretch (· = '-') text p d →
      Stretch (fun x => isBlank x = false ∧ x ∉ symbols) text d q →
      LeavesAt symbols text q after → ReadsBare p (text.extract p q) after
  | symbol {x : Char} : text[p]? = some x → x ∈ symbols → ¬ SignAt symbols text p →
      ReadsBare p [x] (p + 1)
  | plain {x : Char} {q after : Nat} : text[p]? = some x → isBlank x = false → x ∉ symbols →
      Stretch (fun x => isBlank x = false ∧ x ∉ symbols) text p q →
      LeavesAt symbols text q after → ReadsBare p (text.extract p q) after

end

namespace Cursor

variable {symbols : SymbolSet} {text : List Char} {p q after : Nat} {x : Char}

theorem inText_advance_add (k : Nat) (h : p + k ≤ text.length) :
    (inText text p).advanceBy k = inText text (p + k) := by
  induction k generalizing p with
  | zero => rfl
  | succ k ih =>
    rw [advanceBy, inText_advance (by omega), ih (by omega), Nat.add_right_comm]
    rfl

theorem inText_injective (hp : p ≤ text.length) (hq : q ≤ text.length)
    (h : inText text p = inText text q) : p = q := by
  rw [← inText_offset hp, h, inText_offset hq]

theorem inText_fresh_iff (hp : p ≤ text.length) : (inText text p).fresh symbols = true ↔
    p = 0 ∨ ∃ x ∈ text[p - 1]?, isBlank x = true ∨ x ∈ symbols := by
  cases p with
  | zero => simp [inText, fresh]
  | succ p =>
    have hget : text[p]? = some text[p] := List.getElem?_eq_getElem hp
    have hbehind : (inText text (p + 1)).behind = text[p] :: (text.take p).reverse := by
      rw [inText, List.take_add_one, hget, Option.toList_some, List.reverse_concat]
    simp [fresh, hbehind, hget]

theorem signAt_iff (hp : p ≤ text.length) : SignAt symbols text p ↔
    '-' ∈ symbols ∧ text[p]? = some '-' ∧ (inText text p).fresh symbols = true ∧
      opensNumeral ((text.drop p).getD 1 '\x00') = true := by
  have hopens : opensNumeral ((text.drop p).getD 1 '\x00') = true ↔
      ∃ x ∈ text[p + 1]?, x.isDigit = true ∨ x = '.' ∨ x = '-' := by
    rw [List.getD_eq_getElem?_getD, List.getElem?_drop]
    cases text[p + 1]? with
    | none => simp [opensNumeral]
    | some x => simp [opensNumeral, or_assoc]
  rw [inText_fresh_iff hp, hopens]
  constructor
  · rintro ⟨hsymbol, hdash, hfree, hopens⟩
    exact ⟨hsymbol, hdash, hfree, hopens⟩
  · rintro ⟨hsymbol, hdash, hfree, hopens⟩
    exact ⟨hsymbol, hdash, hfree, hopens⟩

end Cursor

namespace LeavesAt

variable {symbols : SymbolSet} {text : List Char} {q after : Nat}

theorem length_closing (h : LeavesAt symbols text q after) :
    q + (Piece.closingBlank (text.drop q)).length = after := by
  cases h with
  | atEnd hend => simp [hend, Piece.closingBlank]
  | symbol hx hmem =>
    have hblank := (not_delimiter_iff.mp (symbols.admissible _ hmem).1).1
    simp [drop_of_getElem? hx, Piece.closingBlank, hblank]
  | blank hx hblank =>
    simp [drop_of_getElem? hx, Piece.closingBlank, hblank]

/-- Where no character can be read on, the cursor is left in one of the three ways. -/
theorem exists_of_stops (hq : q ≤ text.length)
    (hstops : ∀ x ∈ text[q]?, ¬ (isBlank x = false ∧ x ∉ symbols)) :
    ∃ after, LeavesAt symbols text q after := by
  cases hx : text[q]? with
  | none =>
    have hend : q = text.length := Nat.le_antisymm hq (List.getElem?_eq_none_iff.mp hx)
    exact ⟨q, .atEnd hend⟩
  | some x =>
    cases hblank : isBlank x with
    | true => exact ⟨q + 1, .blank hx hblank⟩
    | false =>
      have hmem : x ∈ symbols := by
        by_contra hne
        exact hstops x hx ⟨hblank, hne⟩
      exact ⟨q, .symbol hx hmem⟩

theorem le_length (hq : q ≤ text.length) (h : LeavesAt symbols text q after) :
    after ≤ text.length := by
  cases h with
  | atEnd => exact hq
  | symbol => exact hq
  | blank hx =>
    obtain ⟨hlt, -⟩ := List.getElem?_eq_some_iff.mp hx
    exact hlt

end LeavesAt

namespace Piece

variable {symbols : SymbolSet} {text : List Char} {p d q : Nat}

theorem block_drop_of_sign (hp : p ≤ text.length) (hsign : SignAt symbols text p)
    (hdashes : Stretch (· = '-') text p d)
    (hplain : Stretch (fun x => isBlank x = false ∧ x ∉ symbols) text d q) :
    block symbols ((Cursor.inText text p).fresh symbols) (text.drop p) = text.extract p q := by
  obtain ⟨hmem, -, hfresh, hopens⟩ := (Cursor.signAt_iff hp).mp hsign
  have hlength := length_extract hdashes.le hdashes.within
  have hdash : (text.drop p).takeWhile (· = '-') = text.extract p d :=
    hdashes.takeWhile_eq fun x => decide_eq_true_iff
  have hrest : (text.drop d).takeWhile symbols.isPlain = text.extract d q :=
    hplain.takeWhile_eq fun x => isPlain_iff
  have hbeyond : (text.drop p).drop (text.extract p d).length = text.drop d := by
    rw [List.drop_drop, hlength]
  rw [block, sign, if_pos ⟨hmem, hfresh, hopens⟩, hdash, hbeyond, hrest]
  exact extract_append text hdashes.le hplain.le

theorem block_drop_of_plain {x : Char} (hx : text[p]? = some x) (hblank : isBlank x = false)
    (hmem : x ∉ symbols) (fresh : Bool)
    (hplain : Stretch (fun x => isBlank x = false ∧ x ∉ symbols) text p q) :
    block symbols fresh (text.drop p) = text.extract p q := by
  have hxplain : symbols.isPlain x = true := isPlain_iff.mpr ⟨hblank, hmem⟩
  have hall : (text.drop p).takeWhile symbols.isPlain = text.extract p q :=
    hplain.takeWhile_eq fun x => isPlain_iff
  rw [← hall, drop_of_getElem? hx, block_plain hxplain]
  simp [hxplain]

/-- A block that is not empty is read as it is, and the cursor is left where the block leaves it. -/
theorem readBare_of_block {after : Nat} (hpq : p ≤ q) (hq : q ≤ text.length)
    (hblock : block symbols ((Cursor.inText text p).fresh symbols) (text.drop p) =
      text.extract p q) (hne : text.extract p q ≠ []) (hleaves : LeavesAt symbols text q after) :
    (Cursor.inText text p).readBare symbols = (text.extract p q, .inText text after) := by
  have hahead : (Cursor.inText text p).ahead = text.drop p := rfl
  have hlength := length_extract hpq hq
  have hrest : (text.drop p).drop (text.extract p q).length = text.drop q := by
    rw [List.drop_drop, hlength]
  have hwritten : p + (text.extract p q ++ Piece.closingBlank (text.drop q)).length = after := by
    rw [List.length_append, ← Nat.add_assoc, hlength, hleaves.length_closing]
  rw [Cursor.readBare_eq hahead, bare_written, bare_of_block (hblock ▸ hne), hblock, hrest,
    Cursor.inText_advance_add _ (hwritten ▸ hleaves.le_length hq), hwritten]

end Piece

namespace ReadsBare

variable {symbols : SymbolSet} {text run : List Char} {p after : Nat}

/-- Where no block can be read, one character is passed; the run is this character or nothing. -/
theorem readBare_of_block_nil {x : Char} (hx : text[p]? = some x)
    (hblock : Piece.block symbols ((Cursor.inText text p).fresh symbols)
      (x :: text.drop (p + 1)) = []) :
    (Cursor.inText text p).readBare symbols =
      (if isBlank x then [] else [x], .inText text (p + 1)) := by
  obtain ⟨hp, -⟩ := List.getElem?_eq_some_iff.mp hx
  have hahead : (Cursor.inText text p).ahead = x :: text.drop (p + 1) := drop_of_getElem? hx
  rw [Cursor.readBare_eq hahead, Piece.bare_written, Piece.bare_of_block_nil hblock]
  cases isBlank x <;> simp [Cursor.advanceBy, Cursor.inText_advance hp]

theorem readBare_eq (hp : p ≤ text.length) (h : ReadsBare symbols text p run after) :
    (Cursor.inText text p).readBare symbols = (run, .inText text after) := by
  cases h with
  | atEnd hend =>
    have hahead : (Cursor.inText text p).ahead = [] := List.drop_eq_nil_of_le hend.ge
    exact Cursor.readBareAfter_end hahead
  | blank hx hblank =>
    rw [readBare_of_block_nil hx (Piece.block_blank hblank), if_pos hblank]
  | @symbol x hx hmem hsign =>
    have hstop : x = '-' → (Cursor.inText text p).fresh symbols = false ∨
        Cursor.opensNumeral ((x :: text.drop (p + 1)).getD 1 '\x00') = false := by
      rintro rfl
      rw [Cursor.signAt_iff hp, drop_of_getElem? hx] at hsign
      by_contra hboth
      rw [not_or, Bool.not_eq_false, Bool.not_eq_false] at hboth
      exact hsign ⟨hmem, hx, hboth⟩
    have hblank := (not_delimiter_iff.mp (symbols.admissible x hmem).1).1
    rw [readBare_of_block_nil hx (Piece.block_symbol hmem hstop), hblank]
    rfl
  | @sign d q after hsign hdashes hplain hleaves =>
    have hblock := Piece.block_drop_of_sign hp hsign hdashes hplain
    have hpq := hdashes.le.trans hplain.le
    refine Piece.readBare_of_block hpq hplain.within hblock ?_ hleaves
    -- the dash itself is part of the run
    have hpd : p < d := by
      rcases hdashes.le.lt_or_eq with hlt | rfl
      · exact hlt
      · exact absurd rfl (hdashes.stops '-' hsign.dash)
    have hlength := length_extract hpq hplain.within
    have hdq := hplain.le
    exact List.ne_nil_of_length_pos (by omega)
  | @plain x q after hx hblank hmem hplain hleaves =>
    have hblock := Piece.block_drop_of_plain hx hblank hmem
      ((Cursor.inText text p).fresh symbols) hplain
    refine Piece.readBare_of_block hplain.le hplain.within hblock ?_ hleaves
    have hpq : p < q := by
      rcases hplain.le.lt_or_eq with hlt | rfl
      · exact hlt
      · exact absurd ⟨hblank, hmem⟩ (hplain.stops x hx)
    have hlength := length_extract hplain.le hplain.within
    exact List.ne_nil_of_length_pos (by omega)

end ReadsBare

/-- From any place in a text a run outside quotes can be read. -/
theorem exists_readsBare (symbols : SymbolSet) (text : List Char) {p : Nat} (hp : p ≤ text.length) :
    ∃ run after, ReadsBare symbols text p run after := by
  have hstretch : ∀ i ≤ text.length, ∃ q after,
      Stretch (fun x => isBlank x = false ∧ x ∉ symbols) text i q ∧
        LeavesAt symbols text q after := by
    intro i hi
    have hplain : Stretch (fun x => isBlank x = false ∧ x ∉ symbols) text i _ :=
      Stretch.of_takeWhile (p := symbols.isPlain) (fun x => Piece.isPlain_iff) hi
    obtain ⟨after, hleaves⟩ := LeavesAt.exists_of_stops hplain.within hplain.stops
    exact ⟨_, after, hplain, hleaves⟩
  cases hx : text[p]? with
  | none =>
    have hend : p = text.length := Nat.le_antisymm hp (List.getElem?_eq_none_iff.mp hx)
    exact ⟨[], p, .atEnd hend⟩
  | some x =>
    by_cases hsign : SignAt symbols text p
    · have hdashes : Stretch (· = '-') text p _ :=
        Stretch.of_takeWhile (fun x => decide_eq_true_iff (p := x = '-')) hp
      obtain ⟨q, after, hplain, hleaves⟩ := hstretch _ hdashes.within
      exact ⟨_, after, .sign hsign hdashes hplain hleaves⟩
    · by_cases hmem : x ∈ symbols
      · exact ⟨[x], p + 1, .symbol hx hmem hsign⟩
      · cases hblank : isBlank x with
        | true => exact ⟨[], p + 1, .blank hx hblank⟩
        | false =>
          obtain ⟨q, after, hplain, hleaves⟩ := hstretch p hp
          exact ⟨_, after, .plain hx hblank hmem hplain hleaves⟩

theorem ReadsBare.le_length {symbols : SymbolSet} {text run : List Char} {p after : Nat}
    (h : ReadsBare symbols text p run after) : after ≤ text.length := by
  cases h with
  | atEnd hend => exact hend.le
  | blank hx => exact (List.getElem?_eq_some_iff.mp hx).1
  | symbol hx => exact (List.getElem?_eq_some_iff.mp hx).1
  | sign _ _ hplain hleaves => exact hleaves.le_length hplain.within
  | plain _ _ _ hplain hleaves => exact hleaves.le_length hplain.within

/-- Wherever a session stands in a text, what is read outside quotes and where the cursor is then
left are as the characters of the text tell, in one way only; nothing else is changed, and a quote
is a character like others. -/
theorem bareRun_iff (settings : Settings) (text : List Char) {p : Nat} (hp : p ≤ text.length)
    (warnings : Array (Placed Warning)) (log : Array (Placed Event)) :
    let s : Session := ⟨settings, .inText text p, warnings, log⟩
    (∃ run after, ReadsBare settings.symbols text p run after) ∧
      (∀ run after, ReadsBare settings.symbols text p run after ↔ after ≤ text.length ∧
        s.answer .bareRun = (.ok (.text run), ⟨settings, .inText text after, warnings, log⟩)) ∧
      isBlank '"' = false ∧ '"' ∉ settings.symbols := by
  intro s
  have hanswer : ∀ {run after}, ReadsBare settings.symbols text p run after →
      s.answer .bareRun = (.ok (.text run), ⟨settings, .inText text after, warnings, log⟩) := by
    intro run after h
    simp only [Session.answer, Session.answerBare, Cursor.bareRun, s, h.readBare_eq hp]
    rfl
  obtain ⟨run, after, h⟩ := exists_readsBare settings.symbols text hp
  refine ⟨⟨run, after, h⟩, fun run' after' => ⟨fun h' => ⟨h'.le_length, hanswer h'⟩, ?_⟩, rfl, ?_⟩
  · rintro ⟨hle, heq⟩
    rw [hanswer h] at heq
    simp only [Prod.mk.injEq, Except.ok.injEq, Answer.text.injEq, Session.mk.injEq, true_and,
      and_true] at heq
    obtain ⟨rfl, hcursor⟩ := heq
    rwa [← Cursor.inText_injective h.le_length hle hcursor]
  · intro hmem
    cases (settings.symbols.admissible '"' hmem).1

theorem bareRun_iff_sign :
    let text := "x=--\"y-1\t".toList
    let s : Session := ⟨.standard, .inText text 2, #[], #[]⟩
    2 ≤ text.length ∧
      (∃ run after, ReadsBare Settings.standard.symbols text 2 run after) ∧
      (∀ run after, ReadsBare Settings.standard.symbols text 2 run after ↔ after ≤ text.length ∧
        s.answer .bareRun = (.ok (.text run), ⟨.standard, .inText text after, #[], #[]⟩)) ∧
      isBlank '"' = false ∧ '"' ∉ Settings.standard.symbols := by
  intro text s
  have hp : 2 ≤ text.length := by decide
  exact ⟨hp, bareRun_iff .standard text hp #[] #[]⟩

end ExprLex
