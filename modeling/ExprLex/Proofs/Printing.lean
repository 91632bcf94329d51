import ExprLex.Command.Listing

/-!
# What is printed

Numbers, and texts between quotes, are written in characters that print, whatever the text. So the
line of a token consists of these and the tabs between its parts: it is one line, and a terminal has
nothing to act upon, which is why a listing shows it as it is.
-/
namespace ExprLex
open Text

namespace Text

def Prints (text : List Char) : Prop := ∀ c ∈ text, isPrintable c = true

instance : DecidablePred Prints := fun text => List.decidableBAll (isPrintable · = true) text

theorem isPrintable_of_ascii {c : Char} (hlow : 0x20 ≤ c.toNat) (hhigh : c.toNat ≤ 0x7E) :
    isPrintable c = true := by
  obtain ⟨others, hranges⟩ : ∃ others, printableRanges = (0x20, 0x7E) :: others := ⟨_, rfl⟩
  rw [isPrintable, hranges, Ranges.covers]
  simp [hlow, hhigh]

theorem isPrintable_of_isDigit {c : Char} (h : c.isDigit = true) : isPrintable c = true := by
  simp only [Char.isDigit, Bool.and_eq_true, decide_eq_true_eq] at h
  have hlow : 48 ≤ c.toNat := UInt32.le_iff_toNat_le.mp h.1
  have hhigh : c.toNat ≤ 57 := UInt32.le_iff_toNat_le.mp h.2
  exact isPrintable_of_ascii (by omega) (by omega)

variable {a b : List Char}

theorem prints_append : Prints (a ++ b) ↔ Prints a ∧ Prints b := List.forall_mem_append

theorem prints_cons {c : Char} : Prints (c :: a) ↔ isPrintable c = true ∧ Prints a :=
  List.forall_mem_cons

theorem Prints.of_sublist (h : Prints b) (hsub : a.Sublist b) : Prints a :=
  fun c hc => h c (hsub.subset hc)

theorem prints_of_digits (h : ∀ c ∈ a, c.isDigit = true) : Prints a :=
  fun c hc => isPrintable_of_isDigit (h c hc)

namespace Quoted

theorem prints_hex (width n : Nat) : Prints (hex width n) := by
  have hdigit : ∀ k < 16, isPrintable (hexDigit k) = true := by decide
  induction width generalizing n with
  | zero => simp [hex, Prints]
  | succ width ih =>
    have hlast : Prints [hexDigit (n % 16)] := by
      simpa [Prints] using hdigit (n % 16) (Nat.mod_lt _ (by decide))
    exact prints_append.mpr ⟨ih (n / 16), hlast⟩

theorem prints_escapeCode (n : Nat) : Prints (escapeCode n) := by
  have hbyte : Prints ['\\', 'x'] := by decide
  have hshort : Prints ['\\', 'u'] := by decide
  have hlong : Prints ['\\', 'U'] := by decide
  rw [escapeCode]
  split
  · exact prints_append.mpr ⟨hbyte, prints_hex 2 n⟩
  · split
    · exact prints_append.mpr ⟨hshort, prints_hex 4 n⟩
    · exact prints_append.mpr ⟨hlong, prints_hex 8 n⟩

/-- What is written for a character when others than the standard ones may be printable. -/
def escapeWith (printable : Char → Bool) (quote c : Char) : List Char :=
  if c = quote ∨ c = '\\' then ['\\', c]
  else if c = '\n' then ['\\', 'n']
  else if c = '\r' then ['\\', 'r']
  else if c = '\t' then ['\\', 't']
  else if printable c then [c]
  else escapeCode c.toNat

def encodeWith (printable : Char → Bool) (text : List Char) : List Char :=
  quoteFor text :: (text.flatMap (escapeWith printable (quoteFor text)) ++ [quoteFor text])

theorem encodeWith_isPrintable (text : List Char) : encodeWith isPrintable text = encode text := rfl

theorem quoteFor_eq (text : List Char) : quoteFor text = '\'' ∨ quoteFor text = '"' := by
  rw [quoteFor]
  split
  · exact .inr rfl
  · exact .inl rfl

variable {printable : Char → Bool} {quote c x : Char}

theorem mem_escapeWith (h : x ∈ escapeWith printable quote c) :
    x = quote ∨ isPrintable x = true ∨ printable x = true := by
  have hslash : isPrintable '\\' = true := by decide
  have hbreak : Prints ['\\', 'n'] := by decide
  have hreturn : Prints ['\\', 'r'] := by decide
  have htab : Prints ['\\', 't'] := by decide
  rw [escapeWith] at h
  split at h
  · rename_i hc
    have hpair : x = '\\' ∨ x = c := by simpa using h
    rcases hpair with rfl | rfl
    · exact .inr (.inl hslash)
    · rcases hc with rfl | rfl
      · exact .inl rfl
      · exact .inr (.inl hslash)
  · split at h
    · exact .inr (.inl (hbreak x h))
    · split at h
      · exact .inr (.inl (hreturn x h))
      · split at h
        · exact .inr (.inl (htab x h))
        · split at h
          · rename_i hc
            rw [List.mem_singleton.mp h]
            exact .inr (.inr hc)
          · exact .inr (.inl (prints_escapeCode c.toNat x h))

theorem mem_encodeWith {text : List Char} (h : x ∈ encodeWith printable text) :
    isPrintable x = true ∨ printable x = true := by
  have hquote : isPrintable (quoteFor text) = true := by
    rcases quoteFor_eq text with hquote | hquote <;> rw [hquote] <;> decide
  rw [encodeWith, List.mem_cons, List.mem_append, List.mem_flatMap, List.mem_singleton] at h
  rcases h with rfl | ⟨c, -, h⟩ | rfl
  · exact .inl hquote
  · rcases mem_escapeWith h with rfl | h
    · exact .inl hquote
    · exact h
  · exact .inl hquote

theorem prints_encode (text : List Char) : Prints (encode text) :=
  fun _ hx => or_self_iff.mp (mem_encodeWith (encodeWith_isPrintable text ▸ hx))

end Quoted

theorem prints_quoted (text : String) : Prints (quoted text).toList := by
  rw [quoted, String.toList_ofList]
  exact Quoted.prints_encode _

end Text

theorem prints_zeros (n : Nat) : Prints (zeros n) :=
  prints_of_digits fun c hc => by rw [(List.mem_replicate.mp hc).2]; rfl

theorem prints_toDigits (n : Nat) : Prints (Nat.toDigits 10 n) :=
  prints_of_digits fun _ hc => Nat.isDigit_of_mem_toDigits (by decide) (by decide) hc

theorem toList_int (n : Int) : (toString n).toList =
    if n < 0 then '-' :: Nat.toDigits 10 n.natAbs else Nat.toDigits 10 n.natAbs := by
  cases n with
  | ofNat n =>
    have hnonneg : ¬ Int.ofNat n < 0 := Int.not_lt.mpr (Int.natCast_nonneg n)
    rw [if_neg hnonneg]
    exact String.toList_ofList
  | negSucc n =>
    rw [if_pos (Int.negSucc_lt_zero n)]
    exact (String.toList_append ..).trans
      (congrArg (List.cons '-') (String.toList_ofList (l := Nat.toDigits 10 (n + 1))))

theorem prints_int (n : Int) : Prints (toString n).toList := by
  rw [toList_int]
  split
  · exact prints_cons.mpr ⟨by decide, prints_toDigits _⟩
  · exact prints_toDigits _

namespace Digits

theorem prints_ofScaled (coefficient : Nat) (exponent : Int) :
    Prints (ofScaled coefficient exponent).digits := by
  intro c hc
  refine prints_toDigits coefficient c ?_
  rw [ofScaled, dropZeros, List.mem_reverse] at hc
  exact List.mem_reverse.mp ((List.dropWhile_sublist _).subset hc)

variable {d : Digits}

theorem prints_pointed (n : Nat) (h : Prints d.digits) :
    Prints (d.digits.take n ++ '.' :: d.digits.drop n) :=
  prints_append.mpr ⟨h.of_sublist (List.take_sublist n _),
    prints_cons.mpr ⟨by decide, h.of_sublist (List.drop_sublist n _)⟩⟩

theorem prints_positional (h : Prints d.digits) : Prints d.positional := by
  rw [positional]
  split
  · have hlead : Prints ['0', '.'] := by decide
    exact prints_append.mpr ⟨hlead, prints_append.mpr ⟨prints_zeros _, h⟩⟩
  · dsimp only
    split
    · have hfraction : Prints ['.', '0'] := by decide
      exact prints_append.mpr ⟨prints_append.mpr ⟨h, prints_zeros _⟩, hfraction⟩
    · exact prints_pointed _ h

theorem prints_exponential (width : Nat) (h : Prints d.digits) :
    Prints (d.exponential width) := by
  have hsign : Prints ['-', '+'] := by decide
  refine prints_append.mpr ⟨?_, prints_cons.mpr ⟨by decide, prints_cons.mpr ⟨?_, ?_⟩⟩⟩
  · split
    · exact h
    · exact prints_pointed 1 h
  · split
    · exact hsign '-' (by simp)
    · exact hsign '+' (by simp)
  · exact prints_append.mpr ⟨prints_zeros _, prints_toDigits _⟩

theorem prints_text (layout : Layout) (h : Prints d.digits) : Prints (d.text layout) := by
  rw [text]
  split
  · exact prints_positional h
  · exact prints_exponential _ h

end Digits

theorem Magnitude.prints_onGrid? {x : Magnitude} {exponent : Int} {d : Digits}
    (h : x.onGrid? exponent = some d) : Prints d.digits := by
  obtain ⟨coefficient, -, rfl⟩ := Option.map_eq_some_iff.mp h
  exact Digits.prints_ofScaled coefficient exponent

theorem Magnitude.prints_shortest (x : Magnitude) : Prints x.shortest.digits := by
  rw [shortest]
  split
  · decide
  · dsimp only
    cases hfound : (List.range 19).findSome? fun (i : Nat) => x.onGrid? (x.topPower - i) with
    | none => exact Digits.prints_ofScaled _ _
    | some d =>
      obtain ⟨i, -, hd⟩ := List.exists_of_findSome?_eq_some hfound
      exact prints_onGrid? hd

theorem Binary64.prints_text (v : Binary64) : Prints v.text := by
  have hsigned : ∀ negative text, Prints text → Prints (signed negative text) := by
    intro negative text h
    rw [signed]
    split
    · exact prints_cons.mpr ⟨by decide, h⟩
    · exact h
  cases v with
  | finite negative x => exact hsigned _ _ (Digits.prints_text _ x.prints_shortest)
  | infinite negative => exact hsigned _ _ (by decide)
  | nan => decide

theorem Token.prints_shown (t : Token) : Prints t.shown.toList := by
  cases t with
  | name text | string text => exact prints_quoted text
  | number v =>
    rw [shown, String.toList_ofList]
    exact v.prints_text
  | symbol c => exact prints_quoted _

theorem Token.line_chars (location : Option Location) (t : Token) :
    ∀ c ∈ (t.line location).toList, isPrintable c = true ∨ c = '\t' := by
  have hlabel : Prints t.kind.label.toList := by
    cases t <;> simp only [kind, Kind.label] <;> decide
  obtain ⟨place, hplace, hline⟩ : ∃ place : String, Prints place.toList ∧
      t.line location = place ++ "\t" ++ t.kind.label ++ "\t" ++ t.shown := by
    cases location with
    | none => exact ⟨"?:?", by decide, rfl⟩
    | some l =>
      refine ⟨toString l.line ++ ":" ++ toString l.column, ?_, rfl⟩
      simp only [String.toList_append, prints_append]
      exact ⟨⟨prints_int _, by decide⟩, prints_int _⟩
  intro c hc
  simp only [hline, String.toList_append, List.mem_append] at hc
  rcases hc with (((h | h) | h) | h) | h
  · exact .inl (hplace c h)
  · exact .inr (by simpa using h)
  · exact .inl (hlabel c h)
  · exact .inr (by simpa using h)
  · exact .inl (t.prints_shown c h)

/-- A text that a terminal has nothing to act upon. -/
def Calm (text : String) : Prop := escapeChar ∉ text.toList

instance : DecidablePred Calm := fun _ => inferInstanceAs (Decidable (¬ _))

theorem calm_append {a b : String} : Calm (a ++ b) ↔ Calm a ∧ Calm b := by
  simp [Calm, String.toList_append]

theorem calm_of_prints {text : String} (h : Prints text.toList) : Calm text :=
  fun hmem => absurd (h escapeChar hmem) (by decide)

theorem calm_of_subset {part text : List Char} (hsub : part ⊆ text) (h : escapeChar ∉ text) :
    Calm (String.ofList part) := by
  rw [Calm, String.toList_ofList]
  exact fun hmem => h (hsub hmem)

namespace Command

theorem plainText_of_calm {text : String} (h : Calm text) : plainText text = text := by
  rw [plainText, plain_of_no_escape h, String.ofList_toList]

/-- A listing shows the line of a token as it is. -/
theorem echo_line (location : Option Location) (t : Token) :
    echo (t.line location) = t.line location ++ "\n" := by
  have hcalm : Calm (t.line location) :=
    fun hmem => absurd (t.line_chars location escapeChar hmem) (by decide)
  rw [echo, plainText_of_calm hcalm]

end Command

/-- The line of a token does not break. -/
theorem Token.newline_not_mem_line (location : Option Location) (t : Token) :
    '\n' ∉ (t.line location).toList :=
  fun hmem => absurd (t.line_chars location '\n' hmem) (by decide)

theorem Location.calm_text {l : Location} (h : Calm l.file) : Calm l.text := by
  have hnumber : ∀ n : Int, Calm (toString n) := fun n => calm_of_prints (prints_int n)
  have hcolon : Calm ":" := by decide
  simp only [text, calm_append, and_assoc]
  exact ⟨h, hcolon, hnumber _, hcolon, hnumber _⟩

/-- What a diagnostic says apart from its message and its place. -/
def Diagnostic.frame (d : Diagnostic) : String :=
  upper d.severity.label ++ d.codePart ++ d.helpPart ++ d.suggestionsPart

theorem Diagnostic.calm_text {d : Diagnostic} {l : Location} (hl : d.location = some l)
    (hfile : Calm l.file) (hmessage : Calm d.message) (hframe : Calm d.frame) : Calm d.text := by
  have hlocation : Calm (Location.textOf d.location) := by
    rw [hl]
    exact Location.calm_text hfile
  simp only [frame, calm_append] at hframe
  obtain ⟨⟨⟨hlabel, hcode⟩, hhelp⟩, hsuggestions⟩ := hframe
  have hcolon : Calm ": " := by decide
  have harrow : Calm "  --> " := by decide
  have hbreak : Calm "\n" := by decide
  simp only [text, calm_append, and_assoc]
  exact ⟨hlabel, hcode, hcolon, hmessage, hbreak, harrow, hlocation, hbreak, hhelp, hsuggestions⟩

theorem Warning.calm_diagnostic {w : Warning} {l : Location} (hfile : Calm l.file)
    (h : Calm w.text) : Calm (w.diagnostic l).text := by
  have hframe : Calm (Diagnostic.openStringWarning "" none).frame := by decide +kernel
  exact Diagnostic.calm_text rfl hfile (calm_append.mpr ⟨by decide, h⟩) hframe

/-- The text that a fault is about. -/
def Fault.text : Fault → String
  | openString text => text
  | digitlessNumeral text => text

theorem Fault.calm_diagnostic {f : Fault} {l : Location} (hfile : Calm l.file)
    (h : Calm f.text) : Calm (f.diagnostic l).text := by
  cases f with
  | openString text =>
    have hframe : Calm (Diagnostic.openStringError "" none).frame := by decide +kernel
    exact Diagnostic.calm_text rfl hfile (calm_append.mpr ⟨by decide, h⟩) hframe
  | digitlessNumeral text =>
    have hframe : Calm (Diagnostic.numeralError "" "A numeric literal needs at least one digit."
      none).frame := by decide +kernel
    have hmessage : Calm (Mistake.digitlessNumeral.title ++ ": '" ++ text ++ "'") := by
      have hbefore : Calm (Mistake.digitlessNumeral.title ++ ": '") := by decide
      have hbehind : Calm "'" := by decide
      exact calm_append.mpr ⟨calm_append.mpr ⟨hbefore, h⟩, hbehind⟩
    exact Diagnostic.calm_text rfl hfile hmessage hframe

end ExprLex
