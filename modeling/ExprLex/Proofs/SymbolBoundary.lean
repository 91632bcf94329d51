import ExprLex.Proofs.Lines
import ExprLex.Proofs.RoundTrip

/-!
# Symbols keep texts apart

A symbol needs no space on either side: outside quotes it ends what stands before it, is a token by
itself, and behind it everything begins anew. A dash does so where it can be subtraction, that is
right behind a character that is neither blank nor a symbol.
-/
namespace ExprLex
open Text

/-- Whether the text ends between quotes, with neither a quote nor a newline to end them. -/
def LeavesQuotesOpen (symbols : SymbolSet) (text : List Char) : Prop :=
  ∃ r ∈ runsFrom symbols true .start text, r.IsCutOff text.length

instance (symbols : SymbolSet) (text : List Char) : Decidable (LeavesQuotesOpen symbols text) :=
  inferInstanceAs (Decidable (∃ r ∈ _, Run.IsCutOff _ r))

namespace SymbolSet

variable {symbols : SymbolSet} {text more : List Char} {x : Char}

/-- The text leaves something behind that a dash could subtract from. -/
def EndsPlain (symbols : SymbolSet) (text : List Char) : Prop :=
  ∃ y ∈ text.getLast?, symbols.isPlain y = true

instance : Decidable (symbols.EndsPlain text) :=
  decidable_of_iff (text.getLast?.any symbols.isPlain = true) (Option.any_eq_true _ _)

theorem stops (hx : x ∈ symbols) (hdash : x = '-' → symbols.EndsPlain text) :
    Piece.Stops symbols text (x :: more) := by
  rintro y ⟨⟩
  obtain ⟨hletter, hdigit, hpoint⟩ := not_word_iff.mp (symbols.admissible x hx).2
  refine ⟨by simp [isPlain, hx], fun hopens hlast => ?_⟩
  have hxdash : x = '-' := by simpa [Cursor.opensNumeral, hdigit, hpoint] using hopens
  obtain ⟨z, hz, hplain⟩ := hdash hxdash
  rw [hlast, Option.mem_some_iff] at hz
  subst hz hxdash
  exact (Piece.isPlain_iff.mp hplain).2 hx

theorem freshAfter_of_endsPlain (h : symbols.EndsPlain text) (fresh : Bool) :
    freshAfter symbols fresh text = false := by
  obtain ⟨y, hy, hplain⟩ := h
  obtain ⟨hblank, hmem⟩ := Piece.isPlain_iff.mp hplain
  rw [Option.mem_def] at hy
  simp [freshAfter, hy, hblank, hmem]

end SymbolSet

/-- A symbol is a run by itself, unless it is a dash that opens a sign. -/
theorem runsFrom_lone {symbols : SymbolSet} {fresh : Bool} {x : Char} (hx : x ∈ symbols)
    {more : List Char} (hs : x = '-' → fresh = false ∨
      Cursor.opensNumeral ((x :: more).getD 1 '\x00') = false) (start : Position) :
    runsFrom symbols fresh start (x :: more) =
      (Item.symbol x).run start :: runsFrom symbols true (start.next x) more := by
  have hblank := (not_delimiter_iff.mp (symbols.admissible x hx).1).1
  have hhead : (x :: more).head? ≠ some ' ' := by
    simp only [List.head?_cons, ne_eq, Option.some.injEq]
    rintro rfl
    cases hblank
  rw [runsFrom_piece (List.cons_ne_nil x more) hhead, Piece.first_symbol hx hs]
  simp [Piece.written, Piece.run, Item.run, Item.form, Item.text, freshAfter, hx]

theorem runsFrom_symbol {symbols : SymbolSet} {fresh : Bool} {x : Char} (hx : x ∈ symbols)
    (hs : x = '-' → fresh = false) (start : Position) (more : List Char) :
    runsFrom symbols fresh start (x :: more) =
      (Item.symbol x).run start :: runsFrom symbols true (start.next x) more :=
  runsFrom_lone hx (fun h => .inl (hs h)) start

/-- A text without a fault and with no quotes left open, a symbol and any other text: the findings
are those of the first text, the symbol, and those of the other text further on. If the symbol is a
dash, something that it can subtract from stands right before it. -/
theorem scan_at_symbol (settings : Settings) (text more : List Char) (x : Char)
    (hx : x ∈ settings.symbols) (hdash : x = '-' → settings.symbols.EndsPlain text)
    (hfault : (scan settings text).fault = none)
    (hquotes : ¬ LeavesQuotesOpen settings.symbols text) :
    let before := (scan settings text).findings
    let behind := (scan settings more).findings.moved (Position.behind (text ++ [x]))
    (scan settings (text ++ x :: more)).findings =
      ⟨before.tokens ++ ⟨.symbol x, .ofRead text⟩ :: behind.tokens,
        before.warnings ++ behind.warnings, behind.fault⟩ := by
  intro before behind
  have hcut : (x :: more).head? = some '\n' ∨ ∀ r ∈ runsFrom settings.symbols true .start text,
      ¬ r.IsCutOff (Position.start.offset + text.length) := by
    right
    intro r hr hcut
    refine hquotes ⟨r, hr, ?_⟩
    rwa [Position.start, Nat.zero_add] at hcut
  have hfresh : x = '-' → freshAfter settings.symbols true text = false :=
    fun h => SymbolSet.freshAfter_of_endsPlain (hdash h) true
  have hbehind : runsFrom settings.symbols true ((Position.start.after text).next x) more =
      (runsFrom settings.symbols true .start more).map
        (Run.moved (Position.behind (text ++ [x]))) := by
    have hstart : (Position.start.after text).next x =
        Position.start.behind (text ++ [x]) := by
      rw [Position.start_behind, Position.after_append]
      rfl
    rw [hstart, runsFrom_moved fun read _ => Position.after_behind _ le_rfl read]
  have hfits : (Item.symbol x).Fits settings.symbols := settings.symbols.admissible x hx
  have hsymbol : Findings.ofRun settings.strict ((Item.symbol x).run (Position.start.after text)) =
      ⟨[⟨.symbol x, Position.start.after text⟩], [], none⟩ := Item.ofRun_item hfits _ _
  calc (scan settings (text ++ x :: more)).findings
      = before.followedBy ((Findings.ofRun settings.strict
          ((Item.symbol x).run (Position.start.after text))).followedBy behind) := by
        rw [scan_findings, ← Findings.ofRuns_visible,
          visible_runsFrom_append (SymbolSet.stops hx hdash) hcut, Findings.ofRuns_append,
          Findings.ofRuns_visible, Findings.ofRuns_visible, ← scan_findings,
          runsFrom_symbol hx hfresh, Findings.ofRuns_cons, hbehind, Findings.ofRuns_moved,
          ← scan_findings]
    _ = _ := by
        rw [hsymbol, Findings.followedBy_of_no_fault hfault, Findings.followedBy_of_no_fault rfl,
          Position.start_after]
        rfl

theorem scan_at_symbol_dash :
    let text := "s=\"o\n\"\"\"q\"".toList
    let more := "--2\t\"v\n -.".toList
    let before := (scan .standard text).findings
    let behind := (scan .standard more).findings.moved (Position.behind (text ++ ['-']))
    Settings.standard.symbols.EndsPlain text ∧ (scan .standard text).fault = none ∧
      ¬ LeavesQuotesOpen Settings.standard.symbols text ∧
      (scan .standard (text ++ '-' :: more)).findings =
        ⟨before.tokens ++ ⟨.symbol '-', .ofRead text⟩ :: behind.tokens,
          before.warnings ++ behind.warnings, behind.fault⟩ := by
  intro text more before behind
  have hplain : Settings.standard.symbols.EndsPlain text := by decide +kernel
  have hfault : (scan .standard text).fault = none := by decide +kernel
  have hquotes : ¬ LeavesQuotesOpen Settings.standard.symbols text := by decide +kernel
  exact ⟨hplain, hfault, hquotes,
    scan_at_symbol .standard text more '-' (by decide) (fun _ => hplain) hfault hquotes⟩

end ExprLex
