import Mathlib
import ExprLex.Proofs.QuotedReading
import ExprLex.Proofs.ReadBack

/-!
# The dump of tokens

The line of a token has two tabs and no other control character, whatever text the token holds. So
a dump has a line for each token, and a terminal has nothing to act upon. The parts of a line can be
told apart and read back: a dump tells the kinds and contents of its tokens, their lines and their
columns. This does not depend on which characters a quoted text shows as they are, as long as no
control character is one of them.
-/
namespace ExprLex
open Text

/-- The lines of a text are what its newlines divide; a text without a character has none. -/
def Text.linesOf (text : String) : List String :=
  if text = "" then [] else (text.toList.splitOn '\n').map String.ofList

/-- A token with the place where it was read, if it was read from a text. -/
structure Located where
  location : Option Location
  token : Token
deriving DecidableEq

def Scan.located (s : Scan) : List Located :=
  s.tokens.map fun t => ⟨some (s.session.locate t.start), t.item⟩

namespace Located

def place (x : Located) : String :=
  match x.location with
  | some l => toString l.line ++ ":" ++ toString l.column
  | none => "?:?"

/-- What a line shows of a token, with these characters taken to be printable. -/
def content (printable : Char → Bool) (x : Located) : String :=
  match x.token with
  | .name text | .string text => String.ofList (Quoted.encodeWith printable text.toList)
  | .number v => String.ofList v.text
  | .symbol c => String.ofList (Quoted.encodeWith printable [c])

def line (printable : Char → Bool) (x : Located) : String :=
  x.place ++ "\t" ++ x.token.kind.label ++ "\t" ++ x.content printable

def dump (printable : Char → Bool) (xs : List Located) : String :=
  "\n".intercalate (xs.map (line printable))

/-- The same kind and content, and the same line and column. -/
structure Agree (x y : Located) : Prop where
  token : x.token = y.token
  line : x.location.map Location.line = y.location.map Location.line
  column : x.location.map Location.column = y.location.map Location.column

theorem content_isPrintable (x : Located) : x.content isPrintable = x.token.shown := by
  obtain ⟨location, token⟩ := x
  cases token <;>
    simp only [content, Token.shown, quoted, Quoted.encodeWith_isPrintable, String.toList_ofList]

/-- The line in a listing. -/
theorem line_isPrintable (x : Located) : x.line isPrintable = x.token.line x.location := by
  rw [line, content_isPrintable]
  rfl

end Located

/-- A text divided at the first such character, which goes to neither part. -/
def Text.cutAt (c : Char) (text : List Char) : List Char × List Char :=
  (text.takeWhile (· ≠ c), (text.dropWhile (· ≠ c)).tail)

theorem Text.cutAt_append {c : Char} {a rest : List Char} (h : c ∉ a) :
    cutAt c (a ++ c :: rest) = (a, rest) := by
  have hother : ∀ x ∈ a, decide (x ≠ c) = true := fun x hx => by
    simpa using ne_of_mem_of_not_mem hx h
  rw [cutAt, List.takeWhile_append_of_pos hother, List.dropWhile_append_of_pos hother]
  simp

theorem append_cons_injective {c : Char} {a b more rest : List Char} (ha : c ∉ a) (hb : c ∉ b)
    (h : a ++ c :: more = b ++ c :: rest) : a = b ∧ more = rest := by
  have hcut := congrArg (cutAt c) h
  rw [cutAt_append ha, cutAt_append hb] at hcut
  exact Prod.mk.inj hcut

theorem mem_intercalate {c : Char} {separator : List Char} {texts : List (List Char)}
    (h : c ∈ separator.intercalate texts) : c ∈ separator ∨ ∃ text ∈ texts, c ∈ text := by
  induction texts with
  | nil => simp at h
  | cons text texts ih =>
    cases texts with
    | nil =>
      rw [List.intercalate_singleton] at h
      exact .inr ⟨text, by simp, h⟩
    | cons next texts =>
      rw [List.intercalate_cons_cons, List.mem_append, List.mem_append] at h
      rcases h with (htext | hseparator) | hrest
      · exact .inr ⟨text, by simp, htext⟩
      · exact .inl hseparator
      · refine (ih hrest).imp_right ?_
        rintro ⟨other, hmem, hc⟩
        exact ⟨other, List.mem_cons_of_mem _ hmem, hc⟩

theorem not_mem_toList_int {c : Char} (hdigit : c.isDigit = false) (hdash : c ≠ '-') (n : Int) :
    c ∉ (toString n).toList := by
  have hdigits : ∀ k, c ∉ Nat.toDigits 10 k := by
    intro k hc
    rw [Nat.isDigit_of_mem_toDigits (by decide) (by decide) hc] at hdigit
    cases hdigit
  rw [toList_int]
  split
  · simpa [hdash] using hdigits _
  · exact hdigits _

theorem toList_int_injective {m n : Int} (h : (toString m).toList = (toString n).toList) :
    m = n :=
  Int.repr_injective (String.toList_inj.mp h)

namespace Located

variable {printable : Char → Bool} {x y : Located}

theorem place_some (l : Location) (t : Token) : (place ⟨some l, t⟩).toList =
    (toString l.line).toList ++ ':' :: (toString l.column).toList := by
  simp only [place, String.toList_append, List.append_assoc]
  rfl

theorem place_none (t : Token) : place ⟨none, t⟩ = "?:?" := rfl

theorem place_some_ne (l : Location) (t u : Token) : place ⟨some l, t⟩ ≠ place ⟨none, u⟩ := by
  intro h
  have hmark : '?' ∈ (place ⟨some l, t⟩).toList := by
    rw [h, place_none]
    decide
  rw [place_some, List.mem_append, List.mem_cons] at hmark
  rcases hmark with hline | hcolon | hcolumn
  · exact not_mem_toList_int rfl (by decide) _ hline
  · cases hcolon
  · exact not_mem_toList_int rfl (by decide) _ hcolumn

/-- A place tells the line and the column. -/
theorem place_eq (h : x.place = y.place) :
    x.location.map Location.line = y.location.map Location.line ∧
      x.location.map Location.column = y.location.map Location.column := by
  obtain ⟨a, t⟩ := x
  obtain ⟨b, u⟩ := y
  cases a with
  | none =>
    cases b with
    | none => exact ⟨rfl, rfl⟩
    | some l => exact absurd h.symm (place_some_ne l u t)
  | some l =>
    cases b with
    | none => exact absurd h (place_some_ne l t u)
    | some m =>
      have hcolon : ∀ n : Int, ':' ∉ (toString n).toList := not_mem_toList_int rfl (by decide)
      have hchars := congrArg String.toList h
      rw [place_some, place_some] at hchars
      obtain ⟨hline, hcolumn⟩ := append_cons_injective (hcolon _) (hcolon _) hchars
      exact ⟨congrArg some (toList_int_injective hline),
        congrArg some (toList_int_injective hcolumn)⟩

theorem label_injective {j k : Token.Kind} (h : j.label = k.label) : j = k := by
  cases j <;> cases k <;> first | rfl | exact absurd h (by decide)

/-- The kind and what is shown tell the token. -/
theorem content_eq (hkind : x.token.kind = y.token.kind)
    (h : x.content printable = y.content printable) : x.token = y.token := by
  have hquoted : ∀ a b, String.ofList (Quoted.encodeWith printable a) =
      String.ofList (Quoted.encodeWith printable b) → a = b := fun a b heq =>
    Quoted.encodeWith_injective printable (String.ofList_injective heq)
  obtain ⟨a, t⟩ := x
  obtain ⟨b, u⟩ := y
  cases t with
  | name text =>
    cases u with
    | name other => exact congrArg Token.name (String.toList_inj.mp (hquoted _ _ h))
    | number | string | symbol => cases hkind
  | number v =>
    cases u with
    | number w => exact congrArg Token.number (Binary64.text_injective (String.ofList_injective h))
    | name | string | symbol => cases hkind
  | string text =>
    cases u with
    | string other => exact congrArg Token.string (String.toList_inj.mp (hquoted _ _ h))
    | name | number | symbol => cases hkind
  | symbol c =>
    cases u with
    | symbol d => exact congrArg Token.symbol (List.singleton_injective (hquoted _ _ h))
    | name | number | string => cases hkind

theorem line_toList (x : Located) : (x.line printable).toList = x.place.toList ++
    '\t' :: (x.token.kind.label.toList ++ '\t' :: (x.content printable).toList) := by
  simp only [line, String.toList_append, List.append_assoc]
  rfl

theorem noControl_place (x : Located) : NoControl x.place.toList := by
  obtain ⟨location, t⟩ := x
  cases location with
  | none =>
    rw [place_none]
    decide
  | some l =>
    rw [place_some]
    exact noControl_append.mpr ⟨noControl_of_prints (prints_int _),
      noControl_cons.mpr ⟨by decide, noControl_of_prints (prints_int _)⟩⟩

theorem noControl_label (k : Token.Kind) : NoControl k.label.toList := by
  cases k <;> decide

theorem noControl_content (hp : ∀ c, IsControl c → printable c = false) (x : Located) :
    NoControl (x.content printable).toList := by
  obtain ⟨location, t⟩ := x
  cases t <;> simp only [content, String.toList_ofList]
  case number v => exact noControl_of_prints v.prints_text
  all_goals exact Quoted.noControl_encodeWith hp _

theorem tab_not_mem {text : List Char} (h : NoControl text) : '\t' ∉ text :=
  fun hmem => h '\t' hmem (by decide)

theorem line_control (hp : ∀ c, IsControl c → printable c = false) (x : Located) :
    (x.line printable).toList.count '\t' = 2 ∧
      ∀ c ∈ (x.line printable).toList, IsControl c → c = '\t' := by
  have hplace := x.noControl_place
  have hlabel := noControl_label x.token.kind
  have hcontent := noControl_content hp x
  rw [line_toList]
  constructor
  · simp [List.count_eq_zero_of_not_mem (tab_not_mem hplace),
      List.count_eq_zero_of_not_mem (tab_not_mem hlabel),
      List.count_eq_zero_of_not_mem (tab_not_mem hcontent)]
  · intro c hc hcontrol
    simp only [List.mem_append, List.mem_cons] at hc
    rcases hc with hc | hc | hc | hc | hc
    · exact absurd hcontrol (hplace c hc)
    · exact hc
    · exact absurd hcontrol (hlabel c hc)
    · exact hc
    · exact absurd hcontrol (hcontent c hc)

/-- A line tells what the token is and on which line and column it was read. -/
theorem line_eq_iff : x.line printable = y.line printable ↔ x.Agree y := by
  constructor
  · intro h
    have hchars := congrArg String.toList h
    rw [line_toList, line_toList] at hchars
    obtain ⟨hplace, hrest⟩ := append_cons_injective (tab_not_mem x.noControl_place)
      (tab_not_mem y.noControl_place) hchars
    obtain ⟨hlabel, hcontent⟩ := append_cons_injective (tab_not_mem (noControl_label _))
      (tab_not_mem (noControl_label _)) hrest
    have hkind := label_injective (String.toList_inj.mp hlabel)
    obtain ⟨hline, hcolumn⟩ := place_eq (String.toList_inj.mp hplace)
    exact ⟨content_eq hkind (String.toList_inj.mp hcontent), hline, hcolumn⟩
  · rintro ⟨htoken, hline, hcolumn⟩
    obtain ⟨a, t⟩ := x
    obtain ⟨b, u⟩ := y
    obtain rfl : t = u := htoken
    have hplace : place ⟨a, t⟩ = place ⟨b, t⟩ := by
      cases a <;> cases b <;> simp_all [place]
    rw [line, line, hplace]
    rfl

theorem dump_toList (xs : List Located) : (dump printable xs).toList =
    ['\n'].intercalate (xs.map fun x => (x.line printable).toList) := by
  rw [dump, String.toList_intercalate, List.map_map]
  rfl

theorem linesOf_dump (hp : ∀ c, IsControl c → printable c = false) (xs : List Located) :
    linesOf (dump printable xs) = xs.map (line printable) := by
  cases xs with
  | nil => rfl
  | cons x xs =>
    have hbreak : ∀ l ∈ (x :: xs).map fun x => (x.line printable).toList, '\n' ∉ l := by
      intro l hl hmem
      obtain ⟨y, -, rfl⟩ := List.mem_map.mp hl
      exact absurd ((line_control hp y).2 '\n' hmem (by decide)) (by decide)
    have hsplit := List.splitOn_intercalate '\n' hbreak (by simp)
    rw [← dump_toList] at hsplit
    have hne : dump printable (x :: xs) ≠ "" := by
      intro hempty
      rw [hempty] at hsplit
      have hfirst : [] = (x.line printable).toList := (List.cons.inj hsplit).1
      have hcount := (line_control hp x).1
      rw [← hfirst] at hcount
      cases hcount
    rw [linesOf, if_neg hne, hsplit, List.map_map]
    exact List.map_congr_left fun y _ => String.ofList_toList

theorem calm_dump (hp : ∀ c, IsControl c → printable c = false) (xs : List Located) :
    Calm (dump printable xs) := by
  intro hmem
  rw [dump_toList] at hmem
  rcases mem_intercalate hmem with hbreak | ⟨l, hl, hmem⟩
  · cases hbreak with
    | tail _ h => cases h
  · obtain ⟨x, -, rfl⟩ := List.mem_map.mp hl
    exact absurd ((line_control hp x).2 escapeChar hmem (by decide)) (by decide)

theorem dump_eq_iff (hp : ∀ c, IsControl c → printable c = false) {xs ys : List Located} :
    dump printable xs = dump printable ys ↔ List.Forall₂ Agree xs ys := by
  have hlines : dump printable xs = dump printable ys ↔
      xs.map (line printable) = ys.map (line printable) := by
    constructor
    · intro h
      rw [← linesOf_dump hp, h, linesOf_dump hp]
    · intro h
      rw [dump, dump, h]
  have hagree : (fun x y => line printable x = line printable y) = Agree :=
    funext fun _ => funext fun _ => propext line_eq_iff
  rw [hlines, ← List.forall₂_eq_eq_eq, List.forall₂_map_left_iff, List.forall₂_map_right_iff,
    hagree]

/-- Lines of tokens are the lines of a listing, with two tabs and no other control character. A dump
consists of them and is shown as it is, and dumps are equal only for tokens that agree one by one in
kind and content, line and column. -/
theorem dump_unambiguous (printable : Char → Bool) (hp : ∀ c, IsControl c → printable c = false)
    (xs ys : List Located) :
    (∀ x ∈ xs, x.line isPrintable = x.token.line x.location) ∧
    (∀ x ∈ xs, (x.line printable).toList.count '\t' = 2 ∧
      ∀ c ∈ (x.line printable).toList, IsControl c → c = '\t') ∧
    linesOf (dump printable xs) = xs.map (line printable) ∧
    Command.plainText (dump printable xs) = dump printable xs ∧
    (dump printable xs = dump printable ys ↔ List.Forall₂ Agree xs ys) :=
  ⟨fun x _ => x.line_isPrintable, fun x _ => line_control hp x, linesOf_dump hp xs,
    Command.plainText_of_calm (calm_dump hp xs), dump_eq_iff hp⟩

/-- A tab between quotes, and a backslash with the letter of its escape. -/
theorem dump_unambiguous_tab :
    let xs := (scan .standard "\"\t'\" -1.50".toList).located
    let ys := (scan .standard "\"\\t'\" -1.5".toList).located
    xs.length = 2 ∧ (∀ c, IsControl c → isPrintable c = false) ∧
    (∀ x ∈ xs, x.line isPrintable = x.token.line x.location) ∧
    (∀ x ∈ xs, (x.line isPrintable).toList.count '\t' = 2 ∧
      ∀ c ∈ (x.line isPrintable).toList, IsControl c → c = '\t') ∧
    linesOf (dump isPrintable xs) = xs.map (line isPrintable) ∧
    Command.plainText (dump isPrintable xs) = dump isPrintable xs ∧
    (dump isPrintable xs = dump isPrintable ys ↔ List.Forall₂ Agree xs ys) :=
  ⟨by decide +kernel, fun _ => isPrintable_eq_false_of_isControl,
    dump_unambiguous isPrintable (fun _ => isPrintable_eq_false_of_isControl) _ _⟩

end Located
end ExprLex
