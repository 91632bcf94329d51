/-!
# Words that resemble each other

Two words are compared by what they share: their longest common stretch, then what is shared on
the left of it and on the right of it. Of several longest stretches the one that begins earliest
in the first word counts, and of these the earliest in the second. Words resemble each other if
the shared characters, counted in both, are at least three fifths of all their characters.
-/
namespace ExprLex.Command

def commonStart : List Char → List Char → Nat
  | a :: as, b :: bs => if a = b then commonStart as bs + 1 else 0
  | _, _ => 0

/-- A common stretch by where it begins in either word, and its length. -/
structure Stretch where
  left : Nat
  right : Nat
  length : Nat

def longer (s t : Stretch) : Stretch := if s.length < t.length then t else s

def longestStretch (a b : List Char) : Stretch :=
  (List.range a.length).foldl (fun best i =>
    (List.range b.length).foldl (fun best j =>
      longer best ⟨i, j, commonStart (a.drop i) (b.drop j)⟩) best) ⟨0, 0, 0⟩

/-- The characters that two words share, as far as `depth` divisions show them. -/
def sharedWithin : Nat → List Char → List Char → Nat
  | 0, _, _ => 0
  | depth + 1, a, b =>
    let s := longestStretch a b
    if s.length = 0 then 0
    else
      sharedWithin depth (a.take s.left) (b.take s.right) + s.length +
        sharedWithin depth (a.drop (s.left + s.length)) (b.drop (s.right + s.length))

/-- Every division takes at least one character away, so the length of a word bounds them. -/
def shared (a b : List Char) : Nat := sharedWithin a.length a b

def precedes (a b : List Char) : Bool := a.lex b fun x y => x.toNat < y.toNat

/-- A known word with the characters it shares with another and the characters of both. -/
structure Resemblance where
  word : List Char
  shared : Nat
  total : Nat

namespace Resemblance

/-- No more can be shared than the shorter word has; a word that is far longer or shorter is not
looked at any closer. -/
def between (word known : List Char) : Resemblance :=
  let total := known.length + word.length
  let most := min known.length word.length
  ⟨known, if 3 * total ≤ 10 * most then Command.shared known word else 0, total⟩

def isClose (r : Resemblance) : Bool := 3 * r.total ≤ 10 * r.shared

/-- The closer word comes first; of two that are equally close, the later in the order of words. -/
def before (r s : Resemblance) : Bool :=
  s.shared * r.total < r.shared * s.total ||
    (s.shared * r.total = r.shared * s.total && !precedes r.word s.word)

end Resemblance

/-- The known words that resemble a word, the three closest at most, in the order of words. -/
def resembling (known : List (List Char)) (word : List Char) : List (List Char) :=
  let close := (known.map (Resemblance.between word)).filter Resemblance.isClose
  let closest := ((close.mergeSort Resemblance.before).take 3).map (·.word)
  closest.mergeSort fun a b => !precedes b a

end ExprLex.Command
