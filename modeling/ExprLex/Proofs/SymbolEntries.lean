import Mathlib.Data.List.Sort
import ExprLex.Proofs.Classes

/-!
# Entries that are accepted as symbols

A list of texts is accepted as a set of symbols exactly if each text is a single character that is
neither a delimiter nor a word character. The members of the set are then the characters that occur
in the list, so the order of the texts does not matter, nor how often one of them occurs.
-/
namespace ExprLex.SymbolSet
open Text

/-- The characters that may be symbols, by what they must not be. -/
structure IsProper (c : Char) : Prop where
  not_space : c ≠ ' '
  not_quote : c ≠ '"'
  not_newline : c ≠ '\n'
  not_tab : c ≠ '\t'
  not_return : c ≠ '\r'
  not_letter : isLetter c = false
  not_digit : c.isDigit = false
  not_point : c ≠ '.'

theorem admissible_iff {c : Char} : Admissible c ↔ IsProper c := by
  constructor
  · rintro ⟨hdelimiter, hword⟩
    simp only [isDelimiter, isBlank, isBreak, isWord, Bool.or_eq_false_iff,
      decide_eq_false_iff_not] at hdelimiter hword
    obtain ⟨⟨hspace, ⟨hnewline, htab⟩, hreturn⟩, hquote⟩ := hdelimiter
    obtain ⟨⟨hletter, hdigit⟩, hpoint⟩ := hword
    exact ⟨hspace, hquote, hnewline, htab, hreturn, hletter, hdigit, hpoint⟩
  · intro h
    refine ⟨?_, not_word_iff.mpr ⟨h.not_letter, h.not_digit, h.not_point⟩⟩
    simp [isDelimiter, isBlank, isBreak, h.not_space, h.not_quote, h.not_newline, h.not_tab,
      h.not_return]

/-- A text that is one character, and this character may be a symbol. -/
def IsEntry (t : String) : Prop := ∃ c, t.toList = [c] ∧ IsProper c

/-- Sets of symbols with the same members are equal. -/
theorem eq_of_mem_iff {a b : SymbolSet} (h : ∀ c, c ∈ a ↔ c ∈ b) : a = b := by
  obtain ⟨as, hascending, hadmissible⟩ := a
  obtain ⟨bs, hascending', hadmissible'⟩ := b
  have hirrefl : Std.Irrefl fun c d : Char => c.toNat < d.toNat := ⟨fun _ => lt_irrefl _⟩
  have hantisymm : Std.Antisymm fun c d : Char => c.toNat < d.toNat :=
    ⟨fun _ _ hlt hgt => absurd hgt hlt.asymm⟩
  obtain rfl : as = bs := hascending.eq_of_mem_iff hascending' h
  rfl

theorem addChar_eq_ok_iff {s after : SymbolSet} {c : Char} :
    s.addChar c = .ok after ↔ ∃ h : Admissible c, after = s.insert c h := by
  rw [addChar]
  constructor
  · intro h
    split at h
    · rename_i hdelimiter
      split at h
      · rename_i hword
        cases h
        exact ⟨⟨hdelimiter, hword⟩, rfl⟩
      · cases h
    · cases h
  · rintro ⟨⟨hdelimiter, hword⟩, rfl⟩
    rw [dif_pos hdelimiter, dif_pos hword]

theorem mem_insert_of_toList {s : SymbolSet} {c x : Char} {h : Admissible c} {t : String}
    (ht : t.toList = [c]) : x ∈ s.insert c h ↔ x ∈ s ∨ String.ofList [x] = t := by
  rw [mem_insert, or_comm, ← String.toList_inj, String.toList_ofList, ht, List.cons.injEq]
  simp

/-- What one entry adds is its character. -/
theorem add_text_eq_ok_iff {s after : SymbolSet} {t : String} :
    s.add (.text t) = .ok after ↔
      IsEntry t ∧ ∀ x, x ∈ after ↔ x ∈ s ∨ String.ofList [x] = t := by
  simp only [add]
  constructor
  · intro h
    split at h
    · rename_i c hc
      obtain ⟨hadmissible, rfl⟩ := addChar_eq_ok_iff.mp h
      exact ⟨⟨c, hc, admissible_iff.mp hadmissible⟩, fun x => mem_insert_of_toList hc⟩
    · cases h
  · rintro ⟨⟨c, hc, hproper⟩, hmem⟩
    have hadmissible := admissible_iff.mpr hproper
    have hafter : after = s.insert c hadmissible := by
      apply eq_of_mem_iff
      intro x
      exact (hmem x).trans (mem_insert_of_toList hc).symm
    simp only [hc]
    exact addChar_eq_ok_iff.mpr ⟨hadmissible, hafter⟩

/-- What entries add one after another. -/
theorem foldlM_add_eq_ok_iff {s after : SymbolSet} {entries : List String} :
    (entries.map Candidate.text).foldlM add s = .ok after ↔
      (∀ t ∈ entries, IsEntry t) ∧ ∀ x, x ∈ after ↔ x ∈ s ∨ String.ofList [x] ∈ entries := by
  induction entries generalizing s with
  | nil =>
    simp only [List.map_nil, List.foldlM_nil, pure, Except.pure, Except.ok.injEq]
    constructor
    · rintro rfl
      simp
    · rintro ⟨-, hmem⟩
      apply eq_of_mem_iff
      intro x
      simpa using (hmem x).symm
  | cons t entries ih =>
    rw [List.map_cons, List.foldlM_cons, List.forall_mem_cons]
    constructor
    · intro h
      cases hadd : s.add (.text t) with
      | error e =>
        rw [hadd] at h
        cases h
      | ok mid =>
        rw [hadd] at h
        obtain ⟨hentry, hmid⟩ := add_text_eq_ok_iff.mp hadd
        obtain ⟨hentries, hafter⟩ := ih.mp h
        refine ⟨⟨hentry, hentries⟩, fun x => ?_⟩
        rw [hafter, hmid, List.mem_cons, or_assoc]
    · rintro ⟨⟨hentry, hentries⟩, hafter⟩
      obtain ⟨c, hc, hproper⟩ := id hentry
      have hmid : ∀ x, x ∈ s.insert c (admissible_iff.mpr hproper) ↔
          x ∈ s ∨ String.ofList [x] = t := fun x => mem_insert_of_toList hc
      rw [add_text_eq_ok_iff.mpr ⟨hentry, hmid⟩]
      refine ih.mpr ⟨hentries, fun x => ?_⟩
      rw [hafter, hmid, List.mem_cons, or_assoc]

/-- The entries decide whether there is a set and what its members are, and nothing else does. -/
theorem ofOffer_eq_ok_iff {s : SymbolSet} {entries : List String} :
    ofOffer (.candidates (entries.map .text)) = .ok s ↔
      (∀ t ∈ entries, IsEntry t) ∧ ∀ x, x ∈ s ↔ String.ofList [x] ∈ entries := by
  have hempty : ∀ x, x ∉ empty := fun x => List.not_mem_nil
  refine foldlM_add_eq_ok_iff.trans (and_congr_right fun _ => forall_congr' fun x => ?_)
  rw [or_iff_right (hempty x)]

theorem exists_mem_iff {entries : List String} (h : ∀ t ∈ entries, IsEntry t) :
    ∃ s : SymbolSet, ∀ x, x ∈ s ↔ String.ofList [x] ∈ entries := by
  induction entries with
  | nil => exact ⟨empty, fun x => iff_of_false List.not_mem_nil List.not_mem_nil⟩
  | cons t entries ih =>
    obtain ⟨⟨c, hc, hproper⟩, hentries⟩ := List.forall_mem_cons.mp h
    obtain ⟨s, hs⟩ := ih hentries
    refine ⟨s.insert c (admissible_iff.mpr hproper), fun x => ?_⟩
    rw [mem_insert_of_toList hc, hs, List.mem_cons, or_comm]

theorem exists_ofOffer_iff {entries : List String} :
    (∃ s, ofOffer (.candidates (entries.map .text)) = .ok s) ↔ ∀ t ∈ entries, IsEntry t := by
  constructor
  · rintro ⟨s, hs⟩
    exact (ofOffer_eq_ok_iff.mp hs).1
  · intro h
    obtain ⟨s, hs⟩ := exists_mem_iff h
    exact ⟨s, ofOffer_eq_ok_iff.mpr ⟨h, hs⟩⟩

end ExprLex.SymbolSet
