import ExprLex.Command.Arguments

/-!
# Options one by one

Words are read from left to right, and what is read of the first of them is kept while the others
are read. That events are wanted is no more than noted, whatever the words are that follow.
-/
namespace ExprLex.Command

namespace Arguments

def loud (a : Arguments) : Arguments := a.setFlag .verbose

def Pending.loud (p : Pending) : Pending := (p.1.loud, p.2)

theorem setFlag_loud (a : Arguments) (f : Flag) : (a.setFlag f).loud = a.loud.setFlag f := by
  cases f <;> rfl

theorem readRow_loud (a : Arguments) (row : List Char) :
    a.loud.readRow row = (a.readRow row).map Pending.loud := by
  induction row generalizing a with
  | nil => rfl
  | cons c row ih =>
    rw [readRow, readRow]
    cases Flag.ofShort? c with
    | none => rfl
    | some flag =>
      dsimp only
      split
      · split <;> rfl
      · rw [← setFlag_loud, ih]

theorem readLong_loud (a : Arguments) (name : List Char) (value : Option (List Char))
    (flag : Flag) :
    a.loud.readLong name value flag = (a.readLong name value flag).map Pending.loud := by
  cases flag <;> cases value <;> rfl

theorem readOption_loud (a : Arguments) (word : List Char) :
    a.loud.readOption word = (a.readOption word).map Pending.loud := by
  rw [readOption, readOption]
  dsimp only
  cases Flag.ofLong? (splitEquals word).1 with
  | none =>
    dsimp only
    split
    · rfl
    · exact a.readRow_loud _
  | some flag => exact a.readLong_loud _ _ flag

theorem readAll_loud (a : Arguments) (words : List String) :
    a.loud.readAll words = (a.readAll words).map loud := by
  fun_induction readAll a words with
  | case1 a => rfl
  | case2 a rest =>
    rw [readAll, if_pos rfl]
    rfl
  | case3 a word rest hend hoption e hread =>
    rw [readAll, if_neg hend, if_pos hoption, readOption_loud, hread]
    rfl
  | case4 a word rest hend hoption b hread ih =>
    rw [readAll, if_neg hend, if_pos hoption, readOption_loud, hread]
    exact ih
  | case5 a word hend hoption b name hread =>
    rw [readAll, if_neg hend, if_pos hoption, readOption_loud, hread]
    rfl
  | case6 a word hend hoption b name hread value rest ih =>
    rw [readAll, if_neg hend, if_pos hoption, readOption_loud, hread]
    exact ih
  | case7 a word rest hend hoption ih =>
    rw [readAll, if_neg hend, if_neg hoption]
    exact ih

/-- Words that are read to their end, without two dashes alone, leave the others to be read. -/
theorem readAll_append {a b : Arguments} {before : List String} (h : a.readAll before = .ok b)
    (hend : "--" ∉ before) (behind : List String) :
    a.readAll (before ++ behind) = b.readAll behind := by
  fun_induction readAll a before with
  | case1 a =>
    cases h
    rfl
  | case2 a rest => simp at hend
  | case3 a word rest hword hoption e hread => cases h
  | case4 a word rest hword hoption c hread ih =>
    rw [List.cons_append, readAll, if_neg hword, if_pos hoption, hread]
    exact ih h (mt (List.mem_cons_of_mem _) hend)
  | case5 a word hword hoption c name hread => cases h
  | case6 a word hword hoption c name hread value rest ih =>
    rw [List.cons_append, readAll, if_neg hword, if_pos hoption, hread]
    exact ih h (mt (List.mem_cons_of_mem _ ∘ List.mem_cons_of_mem _) hend)
  | case7 a word rest hword hoption ih =>
    rw [List.cons_append, readAll, if_neg hword, if_neg hoption]
    exact ih h (mt (List.mem_cons_of_mem _) hend)

theorem readAll_verbose (a : Arguments) (behind : List String) :
    a.readAll ("-v" :: behind) = a.loud.readAll behind := by
  have hread : a.readOption "-v".toList = .ok (a.loud, none) := rfl
  rw [readAll, if_neg (by decide), if_pos (by decide), hread]

theorem parse_verbose {accepted : Arguments} {before : List String}
    (h : parse before = .ok accepted) (hend : "--" ∉ before) (behind : List String) :
    parse (before ++ "-v" :: behind) = (parse (before ++ behind)).map loud := by
  rw [parse, readAll_append h hend, readAll_verbose, readAll_loud, parse, readAll_append h hend]

/-- The words that ask for a strict scan, or for a lenient one. -/
def strictWords (strict : Bool) : List String := if strict then ["--strict"] else []

theorem parse_expression (strict : Bool) (e : String) :
    parse (strictWords strict ++ ["-e", e]) =
      .ok { expression := some e, strict := strict } := by
  have hread : ∀ a : Arguments, a.readAll ["-e", e] = .ok { a with expression := some e } := by
    intro a
    have hoption : a.readOption "-e".toList = .ok (a, some ['-', 'e']) := rfl
    rw [readAll, if_neg (by decide), if_pos (by decide), hoption]
    simp [readAll, setValue]
  cases strict with
  | false => exact hread {}
  | true =>
    have hoption : readOption {} "--strict".toList = .ok ({ strict := true }, none) := rfl
    change readAll {} ("--strict" :: ["-e", e]) = _
    rw [readAll, if_neg (by decide), if_pos (by decide), hoption]
    exact hread _

end Arguments
end ExprLex.Command
