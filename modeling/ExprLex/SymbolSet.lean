import ExprLex.Text.Class
import ExprLex.Text.Quoted
import ExprLex.Number.Layout

/-!
# Sets of symbols

A symbol is a character that stands alone wherever it is met outside quotes. Delimiters and word
characters cannot be symbols, since they would take runs, names or numbers apart. A set is kept
in ascending order without repetition, so two sets with the same members are equal; it is built
from candidates, which are values as a settings file may give them, and the first candidate that
is not fit to be a symbol refuses the whole set.
-/
namespace ExprLex
open Text

namespace SymbolSet

def Admissible (c : Char) : Prop := isDelimiter c = false ∧ isWord c = false

instance (c : Char) : Decidable (Admissible c) := inferInstanceAs (Decidable (_ ∧ _))

def Ascending (chars : List Char) : Prop := chars.Pairwise fun a b => a.toNat < b.toNat

end SymbolSet

structure SymbolSet where
  chars : List Char
  ascending : SymbolSet.Ascending chars
  admissible : ∀ c ∈ chars, SymbolSet.Admissible c
deriving DecidableEq

namespace SymbolSet

instance : Membership Char SymbolSet := ⟨fun s c => c ∈ s.chars⟩

instance (c : Char) (s : SymbolSet) : Decidable (c ∈ s) :=
  inferInstanceAs (Decidable (c ∈ s.chars))

def empty : SymbolSet := ⟨[], List.Pairwise.nil, by simp⟩

def place (c : Char) : List Char → List Char
  | [] => [c]
  | d :: rest =>
    if c.toNat < d.toNat then c :: d :: rest
    else if c = d then d :: rest
    else d :: place c rest

theorem mem_place {c x : Char} {chars : List Char} :
    x ∈ place c chars ↔ x = c ∨ x ∈ chars := by
  induction chars with
  | nil => simp [place]
  | cons d rest ih =>
    unfold place
    split
    · simp
    · split
      · rename_i heq
        simp [heq]
      · simp only [List.mem_cons, ih, or_left_comm]

theorem place_ascending {c : Char} {chars : List Char} (h : Ascending chars) :
    Ascending (place c chars) := by
  induction chars with
  | nil => simp [place, Ascending]
  | cons d rest ih =>
    obtain ⟨hd, hrest⟩ := List.pairwise_cons.mp h
    unfold place
    split
    · rename_i hlt
      refine List.pairwise_cons.mpr ⟨fun x hx => ?_, h⟩
      rcases List.mem_cons.mp hx with rfl | hx
      · exact hlt
      · exact Nat.lt_trans hlt (hd x hx)
    · rename_i hle
      split
      · exact h
      · rename_i hne
        refine List.pairwise_cons.mpr ⟨fun x hx => ?_, ih hrest⟩
        rcases mem_place.mp hx with rfl | hx
        · have : x.toNat ≠ d.toNat := fun e => hne (Char.toNat_inj.mp e)
          omega
        · exact hd x hx

def insert (s : SymbolSet) (c : Char) (h : Admissible c) : SymbolSet where
  chars := place c s.chars
  ascending := place_ascending s.ascending
  admissible x hx := by
    rcases mem_place.mp hx with rfl | hx
    · exact h
    · exact s.admissible x hx

theorem mem_insert {s : SymbolSet} {c x : Char} {h : Admissible c} :
    x ∈ s.insert c h ↔ x = c ∨ x ∈ s := mem_place

def standard : SymbolSet :=
  (((empty.insert '+' (by decide)).insert '-' (by decide)).insert ';' (by decide)).insert '='
    (by decide)

/-- A value offered as a symbol, or as the symbols altogether. -/
inductive Candidate
  | text (text : String)
  | integer (value : Int)
  | real (value : Binary64)
  | truth (value : Bool)
  | nothing
deriving DecidableEq

namespace Candidate

def shown : Candidate → String
  | text t => quoted t
  | integer n => toString n
  | real x => String.ofList x.text
  | truth b => if b then "True" else "False"
  | nothing => "None"

def kind : Candidate → String
  | text _ => "str"
  | integer _ => "int"
  | real _ => "float"
  | truth _ => "bool"
  | nothing => "NoneType"

end Candidate

inductive Refusal
  | notCharacter (candidate : Candidate)
  | delimiter (char : Char)
  | word (char : Char)
  | notCollection (candidate : Candidate)
deriving DecidableEq

def Refusal.message : Refusal → String
  | notCharacter r => "Symbols must be single characters, got " ++ r.shown
  | delimiter c => quoted (String.ofList [c]) ++ " is a delimiter and cannot be a symbol"
  | word c =>
    quoted (String.ofList [c]) ++ " would split names or numbers and cannot be a symbol"
  | notCollection r => "'" ++ r.kind ++ "' object is not iterable"

def addChar (s : SymbolSet) (c : Char) : Except Refusal SymbolSet :=
  if hd : isDelimiter c = false then
    if hw : isWord c = false then .ok (s.insert c ⟨hd, hw⟩) else .error (.word c)
  else .error (.delimiter c)

def add (s : SymbolSet) (r : Candidate) : Except Refusal SymbolSet :=
  match r with
  | .text t =>
    match t.toList with
    | [c] => s.addChar c
    | _ => .error (.notCharacter r)
  | _ => .error (.notCharacter r)

def ofCandidates (rs : List Candidate) : Except Refusal SymbolSet := rs.foldlM add empty

/-- The symbols as they are offered: the characters of a text, a list of candidates, or a value
that holds no candidates at all. -/
inductive Offer
  | characters (text : String)
  | candidates (items : List Candidate)
  | single (value : Candidate)

def ofOffer : Offer → Except Refusal SymbolSet
  | .characters t => ofCandidates (t.toList.map fun c => .text (String.ofList [c]))
  | .candidates rs => ofCandidates rs
  | .single r => .error (.notCollection r)

end SymbolSet
end ExprLex
