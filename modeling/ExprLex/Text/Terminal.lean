/-!
# Terminal control sequences

A control sequence is an escape character, an opening square bracket, any number of digits,
semicolons and question marks, and one ASCII letter. `plain` takes the control sequences out of
a text, from left to right; an escape character that begins none stays.
-/
namespace ExprLex.Text

def escapeChar : Char := '\x1b'

def isParameter (c : Char) : Bool := c = ';' || c = '?' || c.isDigit

/-- What follows a control sequence whose escape character has just been read. -/
def afterSequence? : List Char → Option (List Char)
  | '[' :: rest =>
    match rest.dropWhile isParameter with
    | c :: after => if c.isAlpha then some after else none
    | [] => none
  | _ => none

theorem afterSequence?_length {text after : List Char} (h : afterSequence? text = some after) :
    after.length < text.length := by
  unfold afterSequence? at h
  split at h
  · rename_i rest
    split at h
    · rename_i c tail hdrop
      have hle := (List.dropWhile_sublist isParameter (l := rest)).length_le
      rw [hdrop] at hle
      split at h
      · cases h
        simp only [List.length_cons] at hle ⊢
        omega
      · cases h
    · cases h
  · cases h

/-- Reads on after `done`, the plain text so far, latest character first. -/
def plainAfter (done : List Char) : List Char → List Char
  | [] => done.reverse
  | c :: rest =>
    if c = escapeChar then
      match _h : afterSequence? rest with
      | some after => plainAfter done after
      | none => plainAfter (c :: done) rest
    else plainAfter (c :: done) rest
termination_by text => text.length
decreasing_by
  · have := afterSequence?_length _h
    simp only [List.length_cons]
    omega
  · simp
  · simp

def plain (text : List Char) : List Char := plainAfter [] text

theorem plainAfter_of_no_escape {text : List Char} (h : escapeChar ∉ text) (done : List Char) :
    plainAfter done text = done.reverse ++ text := by
  induction text generalizing done with
  | nil => simp [plainAfter]
  | cons c rest ih =>
    obtain ⟨hc, hrest⟩ := not_or.mp (mt List.mem_cons.mpr h)
    have hne : c ≠ escapeChar := fun e => hc e.symm
    rw [plainAfter, if_neg hne, ih hrest, List.reverse_cons, List.append_assoc]
    rfl

theorem plain_of_no_escape {text : List Char} (h : escapeChar ∉ text) : plain text = text := by
  simpa [plain] using plainAfter_of_no_escape h []

end ExprLex.Text
