import Mathlib.Data.List.Forall2
import ExprLex.Proofs.Findings

/-!
# Tokens account for their text

Each token that a scan without a fault returns has a span of the text, from the place of the token
on. The span holds what the token was read from; spans come one after another; and the characters
outside them are blanks and pairs of quotes with nothing between them, or single quotes at the end
of their line.
-/
namespace ExprLex
open Text

/-- The characters from the offset `first` up to `stop`, which is not included. -/
structure Span where
  first : Nat
  stop : Nat
deriving DecidableEq

def Token.IsWritten (t : Token) (part : List Char) : Prop :=
  match t with
  | .name text => text.toList = part
  | .string text => text.toList = part
  | .symbol x => part = [x]
  | .number v => Numeral.isNumeral part = true ∧ Numeral.value? part = some v

namespace Span

def HoldsBare (s : Span) (text : List Char) (t : Token) : Prop :=
  s.first < s.stop ∧ s.stop ≤ text.length ∧ t.IsWritten (text.extract s.first s.stop)

/-- Between quotes the span holds an opening quote, the text of the token, and the closing quote
if there is one; without one the line or the text ends there. -/
def HoldsQuoted (s : Span) (text : List Char) (t : Token) : Prop :=
  ∃ n, 1 ≤ n ∧ s.first + 1 + n ≤ text.length ∧
    t = .string (String.ofList (text.extract (s.first + 1) (s.first + 1 + n))) ∧
    (text[s.first + 1 + n]? = some '"' ∧ s.stop = s.first + 1 + n + 1 ∨
      (text[s.first + 1 + n]? = some '\n' ∨ s.first + 1 + n = text.length) ∧
        s.stop = s.first + 1 + n)

def Holds (s : Span) (text : List Char) (t : Token) : Prop :=
  if text[s.first]? = some '"' then s.HoldsQuoted text t else s.HoldsBare text t

def IsOf (text : List Char) (t : Placed Token) (s : Span) : Prop :=
  t.start.offset = s.first ∧ s.Holds text t.item

end Span

/-- From an offset on a text consists of the spans and, around them, of blanks and of quotes that
hold nothing. -/
inductive Tiled : Nat → List Char → List Span → Prop
  | nil {o : Nat} : Tiled o [] []
  | blank {o : Nat} {x : Char} {rest : List Char} {spans : List Span} :
      isBlank x = true → Tiled (o + 1) rest spans → Tiled o (x :: rest) spans
  | emptyQuotes {o : Nat} {rest : List Char} {spans : List Span} :
      Tiled (o + 2) rest spans → Tiled o ('"' :: '"' :: rest) spans
  | openQuote {o : Nat} {rest : List Char} {spans : List Span} :
      (∀ x ∈ rest.head?, x = '\n') → Tiled (o + 1) rest spans → Tiled o ('"' :: rest) spans
  | span {o : Nat} {part rest : List Char} {spans : List Span} :
      part ≠ [] → Tiled (o + part.length) rest spans →
        Tiled o (part ++ rest) (⟨o, o + part.length⟩ :: spans)

namespace Tiled

variable {o : Nat} {text rest : List Char} {spans : List Span}

theorem blanks {gap : List Char} (h : ∀ x ∈ gap, isBlank x = true)
    (hrest : Tiled (o + gap.length) rest spans) : Tiled o (gap ++ rest) spans := by
  induction gap generalizing o with
  | nil => exact hrest
  | cons x gap ih =>
    refine .blank (h x (by simp)) (ih (fun y hy => h y (by simp [hy])) ?_)
    rwa [List.length_cons, Nat.add_comm gap.length 1, ← Nat.add_assoc] at hrest

theorem first_le (h : Tiled o text spans) : ∀ s ∈ spans, o ≤ s.first := by
  induction h with
  | nil => simp
  | blank _ _ ih => exact fun s hs => Nat.le_of_succ_le (ih s hs)
  | emptyQuotes _ ih => exact fun s hs => (Nat.le_add_right _ 2).trans (ih s hs)
  | openQuote _ _ ih => exact fun s hs => Nat.le_of_succ_le (ih s hs)
  | span _ _ ih =>
    intro s hs
    rcases List.mem_cons.mp hs with rfl | hs
    · exact le_rfl
    · exact (Nat.le_add_right _ _).trans (ih s hs)

theorem pairwise (h : Tiled o text spans) : spans.Pairwise fun a b => a.stop ≤ b.first := by
  induction h with
  | nil => exact .nil
  | blank _ _ ih => exact ih
  | emptyQuotes _ ih => exact ih
  | openQuote _ _ ih => exact ih
  | span _ hrest ih => exact .cons hrest.first_le ih

end Tiled

theorem Token.isWritten_of_stands {text : List Char} {t : Token}
    (h : Verdict.Stands text (.token t)) : t.IsWritten text := by
  cases h with
  | number hnumeral hdigit =>
    refine ⟨hnumeral, ?_⟩
    rw [Numeral.value?, if_pos hdigit]
  | name => exact String.toList_ofList
  | symbol => rfl
  | string => exact String.toList_ofList

theorem extract_of_drop {text part rest : List Char} {o : Nat}
    (h : text.drop o = part ++ rest) : text.extract o (o + part.length) = part := by
  rw [List.extract_eq_take_drop, h, Nat.add_sub_cancel_left, List.take_left]

theorem getElem?_of_drop {text part rest : List Char} {o : Nat}
    (h : text.drop o = part ++ rest) : text[o + part.length]? = rest.head? := by
  rw [← List.getElem?_drop, h, List.getElem?_append_right le_rfl, Nat.sub_self,
    List.head?_eq_getElem?]

theorem length_of_drop {text part rest : List Char} {o : Nat} (ho : o ≤ text.length)
    (h : text.drop o = part ++ rest) : o + part.length + rest.length = text.length := by
  have := congrArg List.length h
  rw [List.length_drop, List.length_append] at this
  omega

namespace Span

theorem holds_bare {text part rest : List Char} {o : Nat} {t : Token} (ho : o ≤ text.length)
    (h : text.drop o = part ++ rest) (hne : part ≠ []) (hquote : part.head? ≠ some '"')
    (ht : t.IsWritten part) : Span.Holds ⟨o, o + part.length⟩ text t := by
  have hlength := length_of_drop ho h
  have hpos := List.length_pos_iff.mpr hne
  have hfirst : text[o]? = part.head? := by
    rw [← List.head?_drop, h, List.head?_append_of_ne_nil _ hne]
  rw [Holds, if_neg (hfirst ▸ hquote)]
  refine ⟨?_, ?_, ?_⟩
  · dsimp only
    omega
  · dsimp only
    omega
  · rwa [extract_of_drop h]

theorem holds_quoted {text part closing rest : List Char} {o : Nat} (ho : o ≤ text.length)
    (h : text.drop o = '"' :: (part ++ (closing ++ rest))) (hne : part ≠ [])
    (hclosing : closing = ['"'] ∨ closing = [] ∧ ∀ x ∈ rest.head?, x = '\n') :
    Span.Holds ⟨o, o + ('"' :: (part ++ closing)).length⟩ text (.string (String.ofList part)) := by
  have htail : text.drop (o + 1) = part ++ (closing ++ rest) := by
    rw [← List.drop_drop, h]
    rfl
  have hfirst : text[o]? = some '"' := by rw [← List.head?_drop, h, List.head?_cons]
  have hnext := getElem?_of_drop htail
  have hone : o + 1 ≤ text.length := by
    have := congrArg List.length h
    rw [List.length_drop, List.length_cons] at this
    omega
  have hlength := length_of_drop hone htail
  rw [Holds, if_pos hfirst]
  refine ⟨part.length, List.length_pos_iff.mpr hne, ?_, ?_, ?_⟩
  · dsimp only
    omega
  · rw [extract_of_drop htail]
  · rcases hclosing with rfl | ⟨rfl, hline⟩
    · left
      refine ⟨hnext, ?_⟩
      simp only [List.length_cons, List.length_append, List.length_nil]
      omega
    · right
      refine ⟨?_, by simp only [List.length_cons, List.append_nil]; omega⟩
      cases rest with
      | nil => exact .inr (by simpa using hlength)
      | cons x rest =>
        obtain rfl := hline x rfl
        exact .inl hnext

end Span

theorem drop_add_of_drop {whole read rest : List Char} {o : Nat} (ho : o ≤ whole.length)
    (h : whole.drop o = read ++ rest) :
    o + read.length ≤ whole.length ∧ whole.drop (o + read.length) = rest := by
  refine ⟨?_, by rw [← List.drop_drop, h, List.drop_left]⟩
  have := length_of_drop ho h
  omega

section Runs

variable {whole text : List Char} {symbols : SymbolSet} {strict fresh : Bool} {start : Position}
  {spans : List Span}

theorem bare_tiled (hstart : start.offset ≤ whole.length) (htext : whole.drop start.offset = text)
    (hquote : text.head? ≠ some '"') {k : Piece} (hk : Piece.bare symbols fresh text = k)
    (hfault : (k.run start).fault? strict = none)
    (hrest : Tiled (start.offset + k.written.length) (text.drop k.written.length) spans) :
    ∃ own, List.Forall₂ (Span.IsOf whole) ((k.run start).token? strict).toList own ∧
      Tiled start.offset text (own ++ spans) := by
  have hverdict : (k.run start).verdict strict = Verdict.ofBare k.text := by
    rw [← hk, Piece.run, Run.verdict, Piece.bare_form]
  have hwritten : k.written = k.text ++ k.closing := hk ▸ Piece.bare_written symbols fresh text
  have hlength : k.written.length = k.text.length + k.closing.length := by
    rw [hwritten, List.length_append]
  have hsplit : k.text ++ (k.closing ++ text.drop k.written.length) = text := by
    rw [← List.append_assoc, ← hwritten, ← hk]
    exact List.prefix_iff_eq_append.mp (Piece.bare_written_isPrefix symbols fresh text)
  have hblank : ∀ x ∈ k.closing, isBlank x = true :=
    hk ▸ Piece.bare_closing_blank symbols fresh text
  rw [hlength] at hsplit hrest
  rw [← Nat.add_assoc] at hrest
  have htiled := Tiled.blanks hblank hrest
  simp only [Run.fault?, Run.token?, Run.outcome?, hverdict] at hfault ⊢
  cases hv : Verdict.ofBare k.text with
  | nothing =>
    refine ⟨[], .nil, ?_⟩
    have hnil : k.text = [] := by
      generalize k.text = part at hv
      cases Verdict.stands_iff.mpr hv
      rfl
    rw [hnil] at hsplit htiled
    rw [List.nil_append] at hsplit
    rwa [hsplit] at htiled
  | fault f => simp [hv, Outcome.fault?] at hfault
  | token t =>
    have hne : k.text ≠ [] := by
      intro hnil
      rw [hnil] at hv
      cases hv
    have hhead : k.text.head? ≠ some '"' := by
      rwa [← hsplit, List.head?_append_of_ne_nil _ hne] at hquote
    refine ⟨[⟨start.offset, start.offset + k.text.length⟩], .cons ⟨rfl, ?_⟩ .nil, ?_⟩
    · have hstands := Verdict.stands_iff.mpr hv
      exact Span.holds_bare hstart (htext.trans hsplit.symm) hne hhead
        (Token.isWritten_of_stands hstands)
    · rw [← hsplit]
      exact .span hne htiled

theorem Tiled.empty_quotes {o : Nat} {k : Piece} {rest : List Char} (hend : k.EndsQuotes rest)
    (hnil : k.text = []) (hrest : Tiled (o + ('"' :: (k.text ++ k.closing)).length) rest spans) :
    Tiled o ('"' :: (k.text ++ (k.closing ++ rest))) spans := by
  rw [hnil] at hrest ⊢
  rcases hend with ⟨-, hclosing⟩ | ⟨-, hclosing | ⟨hclosing, hlast⟩⟩
  · rw [hclosing] at hrest ⊢
    exact .emptyQuotes hrest
  · rw [hclosing] at hrest ⊢
    exact .openQuote (by simp) (.blank rfl hrest)
  · rw [hclosing, hlast] at hrest ⊢
    exact .openQuote (by simp) hrest

theorem Tiled.quotes {o : Nat} {k : Piece} {rest : List Char} (ho : o ≤ whole.length)
    (hwhole : whole.drop o = '"' :: (k.text ++ (k.closing ++ rest))) (hend : k.EndsQuotes rest)
    (hne : k.text ≠ []) (hrest : Tiled (o + ('"' :: (k.text ++ k.closing)).length) rest spans) :
    ∃ s : Span, s.first = o ∧ s.Holds whole (.string (String.ofList k.text)) ∧
      Tiled o ('"' :: (k.text ++ (k.closing ++ rest))) (s :: spans) := by
  rcases hend with ⟨-, hclosing⟩ | ⟨-, hclosing⟩
  · have hholds := Span.holds_quoted ho hwhole hne (.inl hclosing)
    have htiled := Tiled.span (List.cons_ne_nil '"' (k.text ++ k.closing)) hrest
    rw [List.cons_append, List.append_assoc] at htiled
    exact ⟨_, rfl, hholds, htiled⟩
  · -- the newline that ends the text does not belong to the span
    have hline : ∀ x ∈ (k.closing ++ rest).head?, x = '\n' := by
      rcases hclosing with hclosing | ⟨hclosing, hlast⟩
      · simp [hclosing]
      · simp [hclosing, hlast]
    have hblank : ∀ x ∈ k.closing, isBlank x = true := by
      rcases hclosing with hclosing | ⟨hclosing, -⟩ <;> simp [hclosing, isBlank, isBreak]
    have hnone : whole.drop o = '"' :: (k.text ++ ([] ++ (k.closing ++ rest))) := hwhole
    have hholds := Span.holds_quoted ho hnone hne (.inr ⟨rfl, hline⟩)
    rw [List.append_nil] at hholds
    rw [← List.cons_append, List.length_append, ← Nat.add_assoc] at hrest
    have htiled := Tiled.span (List.cons_ne_nil '"' k.text) (Tiled.blanks hblank hrest)
    exact ⟨_, rfl, hholds, htiled⟩

theorem quoted_tiled {body : List Char} (hstart : start.offset ≤ whole.length)
    (htext : whole.drop start.offset = '"' :: body) {k : Piece} (hk : Piece.quoted body = k)
    (hfault : (k.run start).fault? strict = none)
    (hrest : Tiled (start.offset + k.written.length) (('"' :: body).drop k.written.length) spans) :
    ∃ own, List.Forall₂ (Span.IsOf whole) ((k.run start).token? strict).toList own ∧
      Tiled start.offset ('"' :: body) (own ++ spans) := by
  obtain ⟨rest, hsplit, hend⟩ := Piece.quoted_shape body
  have hwritten := Piece.quoted_written body
  have hform := Piece.quoted_form_ne_bare body
  rw [hk] at hsplit hend hwritten hform
  subst hsplit
  have hdrop : ('"' :: (k.text ++ (k.closing ++ rest))).drop k.written.length = rest := by
    rw [hwritten, ← List.append_assoc, ← List.cons_append]
    exact List.drop_left
  have hverdict : (k.run start).verdict strict = Verdict.ofQuoted k.text :=
    Run.verdict_of_quotes hform hfault
  rw [hdrop, hwritten] at hrest
  by_cases hnil : k.text = []
  · have htoken : (k.run start).token? strict = none := by
      rw [Run.token?, Run.outcome?, hverdict, hnil]
      rfl
    rw [htoken]
    exact ⟨[], .nil, Tiled.empty_quotes hend hnil hrest⟩
  · have htoken : (k.run start).token? strict =
        some ⟨.string (String.ofList k.text), start⟩ := by
      rw [Run.token?, Run.outcome?, hverdict, Verdict.ofQuoted_eq hnil]
      rfl
    obtain ⟨s, hfirst, hholds, htiled⟩ := Tiled.quotes hstart htext hend hnil hrest
    rw [htoken]
    exact ⟨[s], .cons ⟨hfirst.symm, hholds⟩ .nil, htiled⟩

theorem runs_tiled (hstart : start.offset ≤ whole.length)
    (htext : whole.drop start.offset = text)
    (hfault : (Findings.ofRuns strict (runsFrom symbols fresh start text)).fault = none) :
    ∃ spans, List.Forall₂ (Span.IsOf whole)
        (Findings.ofRuns strict (runsFrom symbols fresh start text)).tokens spans ∧
      Tiled start.offset text spans := by
  fun_induction runsFrom symbols fresh start text with
  | case1 fresh start => exact ⟨[], .nil, .nil⟩
  | case2 fresh start rest ih =>
    have hoffset : (start.next ' ').offset = start.offset + 1 := Position.after_offset start [' ']
    have hsplit : whole.drop start.offset = [' '] ++ rest := htext
    obtain ⟨hle, hdrop⟩ := drop_add_of_drop hstart hsplit
    obtain ⟨spans, htokens, htiled⟩ := ih (hoffset ▸ hle) (hoffset ▸ hdrop) hfault
    exact ⟨spans, htokens, .blank rfl (hoffset ▸ htiled)⟩
  | case3 fresh start x rest hx k ih =>
    have hprefix := List.prefix_iff_eq_append.mp
      (Piece.first_written_isPrefix symbols fresh (x :: rest))
    obtain ⟨hle, hdrop⟩ := drop_add_of_drop hstart (htext.trans hprefix.symm)
    have hoffset := Position.after_offset start k.written
    have hown : ((Piece.first symbols fresh (x :: rest)).run start).fault? strict = none :=
      Findings.no_fault_of_followedBy (b := Findings.ofRuns strict _) hfault
    rw [Findings.ofRuns_cons, Findings.followedBy_of_no_fault hown] at hfault ⊢
    obtain ⟨spans, htokens, htiled⟩ := ih (hoffset ▸ hle) (hoffset ▸ hdrop) hfault
    rw [hoffset] at htiled
    obtain ⟨own, hholds, hall⟩ : ∃ own,
        List.Forall₂ (Span.IsOf whole) ((k.run start).token? strict).toList own ∧
          Tiled start.offset (x :: rest) (own ++ spans) := by
      by_cases hq : x = '"'
      · subst hq
        exact quoted_tiled hstart htext rfl hown htiled
      · have hhead : (x :: rest).head? ≠ some '"' := by simpa using hq
        exact bare_tiled hstart htext hhead (Piece.first_bare symbols fresh hhead).symm hown htiled
    exact ⟨own ++ spans, List.rel_append hholds htokens, hall⟩

end Runs

/-- The tokens of a text without a fault account for all of it: each has a span that holds it, the
spans are disjoint and in order, and around them are only blanks and quotes that hold nothing. -/
theorem tokens_cover (settings : Settings) (text : List Char) (ts : List (Placed Token))
    (h : tokens settings text = .ok ts) :
    ∃ spans : List Span, List.Forall₂ (Span.IsOf text) ts spans ∧
      spans.Pairwise (fun a b => a.stop ≤ b.first) ∧ Tiled 0 text spans := by
  have hscan := scan_findings settings text
  simp only [tokens] at h
  split at h
  · cases h
  · rename_i hfault
    cases h
    have hnone : (Findings.ofRuns settings.strict
        (runsFrom settings.symbols true Position.start text)).fault = none := by
      rw [← hscan]
      exact hfault
    have hwhole : text.drop Position.start.offset = text := rfl
    obtain ⟨spans, htokens, htiled⟩ := runs_tiled (Nat.zero_le _) hwhole hnone
    rw [← hscan] at htokens
    exact ⟨spans, htokens, htiled.pairwise, htiled⟩

theorem tokens_cover_mixed :
    ∃ ts spans, tokens .standard "x=\"a b\"-1\t\"\"y --2 \"o\n".toList = .ok ts ∧ ts.length = 8 ∧
      List.Forall₂ (Span.IsOf "x=\"a b\"-1\t\"\"y --2 \"o\n".toList) ts spans ∧
      spans.Pairwise (fun a b => a.stop ≤ b.first) ∧
      Tiled 0 "x=\"a b\"-1\t\"\"y --2 \"o\n".toList spans := by
  have hscan : tokens .standard "x=\"a b\"-1\t\"\"y --2 \"o\n".toList = .ok
      [⟨.name "x", ⟨0, 1, 1⟩⟩, ⟨.symbol '=', ⟨1, 1, 2⟩⟩, ⟨.string "a b", ⟨2, 1, 3⟩⟩,
        ⟨.symbol '-', ⟨7, 1, 8⟩⟩, ⟨.number (Numeral.value ['1']), ⟨8, 1, 9⟩⟩,
        ⟨.name "y", ⟨12, 1, 13⟩⟩, ⟨.string "--2", ⟨14, 1, 15⟩⟩, ⟨.string "o", ⟨18, 1, 19⟩⟩] := by
    decide +kernel
  obtain ⟨spans, h⟩ := tokens_cover .standard _ _ hscan
  exact ⟨_, spans, hscan, rfl, h⟩

end ExprLex
