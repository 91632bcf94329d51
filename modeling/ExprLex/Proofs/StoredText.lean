import ExprLex.File.Reading
import ExprLex.Proofs.LineEnds

/-!
# Texts as they are stored

A file that holds a text ends its lines in one of three ways. Reading undoes this: a carriage return
with or without a newline behind it is one line end, and those of neighbouring lines stay apart, as
long as all lines end in the same way. So a file brings up what the text itself does, with the path
for a file name.
-/
namespace ExprLex

/-- The ways to end the lines of a stored text. -/
inductive LineEnd
  | newline
  | returnNewline
  | lone
deriving DecidableEq

namespace LineEnd

def chars : LineEnd → List Char
  | newline => ['\n']
  | returnNewline => ['\r', '\n']
  | lone => ['\r']

/-- A text in the way in which it is stored. -/
def store (e : LineEnd) (text : List Char) : ByteArray :=
  (String.ofList (Text.endLines e.chars text)).toUTF8

end LineEnd

namespace Text

theorem endLines_cons (ending : List Char) (x : Char) (text : List Char) :
    endLines ending (x :: text) = (if x = '\n' then ending else [x]) ++ endLines ending text :=
  List.flatMap_cons

theorem endLines_newline_self (text : List Char) : endLines ['\n'] text = text := by
  induction text with
  | nil => rfl
  | cons x text ih =>
    rw [endLines_cons, ih]
    split <;> simp_all

/-- Where lines end with a carriage return, alone or not, no line begins with a newline, and so what
is in front of it takes no newline for its own. -/
theorem foldr_unifyStep_endLines {e : LineEnd} (he : e ≠ .newline) {text : List Char}
    (h : '\r' ∉ text) : (endLines e.chars text).foldr unifyStep ([], false) = (text, false) := by
  induction text with
  | nil => rfl
  | cons x text ih =>
    obtain ⟨hx, htext⟩ := not_or.mp (mt List.mem_cons.mpr h)
    rw [endLines_cons, List.foldr_append, ih htext]
    by_cases hnewline : x = '\n'
    · subst hnewline
      cases e with
      | newline => exact absurd rfl he
      | returnNewline => rfl
      | lone => rfl
    · rw [if_neg hnewline]
      simp [unifyStep, Ne.symm hx, hnewline]

theorem unifyLineEnds_endLines (e : LineEnd) {text : List Char} (h : '\r' ∉ text) :
    unifyLineEnds (endLines e.chars text) = text := by
  by_cases he : e = .newline
  · subst he
    rw [LineEnd.chars, endLines_newline_self, unifyLineEnds_of_no_return h]
  · rw [unifyLineEnds, foldr_unifyStep_endLines he h]

end Text

theorem decodeText_eq (t : String) :
    decodeText t.toUTF8 = .ok (Text.unifyLineEnds t.toList) := by
  have hvalid : String.fromUTF8? t.toUTF8 = some t := dif_pos t.isValidUTF8
  rw [decodeText, hvalid]

theorem decodeText_store (e : LineEnd) {text : List Char} (h : '\r' ∉ text) :
    decodeText (e.store text) = .ok text := by
  rw [LineEnd.store, decodeText_eq, String.toList_ofList, Text.unifyLineEnds_endLines e h]

/-- A file that holds a text without carriage returns brings up the tokens of this text, each at its
place in the text, or its fault, whichever way the lines of the file end; the name in the locations
is the path. -/
theorem fileTokens_store (settings : Settings) (files : Files) (path : String) (text : List Char)
    (hpath : path ≠ "") (hreturn : '\r' ∉ text) (e : LineEnd)
    (hfile : files path = .ok (e.store text)) :
    settings.named (some path) = { settings with file := path } ∧
      fileTokens settings files path =
        (tokens { settings with file := path } text).mapError .fault := by
  have hnamed : settings.named (some path) = { settings with file := path } := if_neg hpath
  have hread : readText files path = .ok text := by
    rw [readText, hfile]
    exact decodeText_store e hreturn
  refine ⟨hnamed, ?_⟩
  rw [fileTokens, hread, hnamed]

theorem fileTokens_store_open :
    let settings : Settings := { strict := true }
    let text := "x\n\n\"a\n\"b\"".toList
    let files : Files := fun path =>
      if path = "in" then .ok (LineEnd.returnNewline.store text) else .error .missing
    "in" ≠ "" ∧ '\r' ∉ text ∧ files "in" = .ok (LineEnd.returnNewline.store text) ∧
      fileTokens settings files "in" = .error (.fault ⟨.openString "a", ⟨3, 3, 1⟩⟩) := by
  intro settings text files
  have hpath : "in" ≠ "" := by decide
  have hreturn : '\r' ∉ text := by decide
  have hfile : files "in" = .ok (LineEnd.returnNewline.store text) := rfl
  have hfault : (tokens { settings with file := "in" } text).mapError FileFailure.fault =
      .error (.fault ⟨.openString "a", ⟨3, 3, 1⟩⟩) := by decide +kernel
  refine ⟨hpath, hreturn, hfile, ?_⟩
  rw [← hfault]
  exact (fileTokens_store settings files "in" text hpath hreturn .returnNewline hfile).2

end ExprLex
