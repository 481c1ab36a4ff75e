import Mathlib.Data.List.DropRight
import HashTabs.Text.Blank

/-! Trimming cuts a text into three: blanks, what is left between them, and blanks again. What is left
is the same however the cut is made, as long as it has no blank at either end. -/

namespace HashTabs.Text

/-- The 25 characters of white space, one by one. -/
def whiteSpace : List Char :=
  ['\t', '\n', '\x0b', '\x0c', '\r', ' ', '\x85', '\xa0', '\u1680', '\u2000', '\u2001', '\u2002',
    '\u2003', '\u2004', '\u2005', '\u2006', '\u2007', '\u2008', '\u2009', '\u200a', '\u2028',
    '\u2029', '\u202f', '\u205f', '\u3000']

theorem isBlank_iff_mem {c : Char} : isBlank c = true ↔ c ∈ whiteSpace := by
  simp only [isBlank, blankRanges, List.any_cons, List.any_nil, Bool.or_eq_true,
    decide_eq_true_eq, Bool.false_eq_true, or_false, whiteSpace, List.mem_cons, List.not_mem_nil,
    ← Char.toNat_inj, Char.reduceToNat]
  omega

theorem isBlank_of_isLower {c : Char} (h : c.isLower) : isBlank c = false := by
  have hall : whiteSpace.all (!·.isLower) = true := by decide +kernel
  rw [Bool.eq_false_iff, Ne, isBlank_iff_mem]
  intro hmem
  have hc : (!c.isLower) = true := List.all_eq_true.mp hall c hmem
  rw [h] at hc
  cases hc

/-- Holds of a run of blank characters, be it empty. -/
def Blanks (s : List Char) : Prop := ∀ c ∈ s, isBlank c = true

theorem blanks_iff {s : List Char} : Blanks s ↔ ∀ c ∈ s, c ∈ whiteSpace :=
  forall₂_congr fun _ _ => isBlank_iff_mem

/-- Holds of a text without a blank character at either end. -/
structure Trimmed (s : List Char) : Prop where
  first : ∀ c ∈ s.head?, isBlank c = false
  last : ∀ c ∈ s.getLast?, isBlank c = false

theorem Blanks.dropWhile {w : List Char} (h : Blanks w) (s : List Char) :
    (w ++ s).dropWhile isBlank = s.dropWhile isBlank :=
  List.dropWhile_append_of_pos h

theorem dropWhile_of_head? {s : List Char} (h : ∀ c ∈ s.head?, isBlank c = false) :
    s.dropWhile isBlank = s := by
  cases s with
  | nil => rfl
  | cons c s =>
    have hc : isBlank c = false := h c rfl
    rw [List.dropWhile_cons_of_neg (by rw [hc]; decide)]

theorem trim_append {w s w' : List Char} (hw : Blanks w) (hs : Trimmed s) (hw' : Blanks w') :
    trim (w ++ s ++ w') = s := by
  have hlast : ∀ c ∈ s.reverse.head?, isBlank c = false := by
    rw [List.head?_reverse]
    exact hs.last
  have hback : Blanks w'.reverse := fun c hc => hw' c (List.mem_reverse.mp hc)
  unfold trim
  rw [List.append_assoc, hw.dropWhile]
  cases s with
  | nil =>
    have hnone : w'.dropWhile isBlank = [] := List.dropWhile_eq_nil_iff.mpr hw'
    rw [List.nil_append, hnone]
    rfl
  | cons c s =>
    have hfront : (c :: s ++ w').dropWhile isBlank = c :: s ++ w' := dropWhile_of_head? hs.first
    rw [hfront, List.reverse_append, hback.dropWhile, dropWhile_of_head? hlast,
      List.reverse_reverse]

theorem trimmed_trim (s : List Char) : Trimmed (trim s) where
  first c hc := by
    -- What is left is the front of what the blanks in front leave.
    have hfront : trim s <+: s.dropWhile isBlank := List.rdropWhile_prefix isBlank _
    obtain ⟨rest, hrest⟩ := hfront
    have hhead : (s.dropWhile isBlank).head? = some c := by
      rw [← hrest, List.head?_append, Option.mem_def.mp hc]
      rfl
    have hnot := List.head?_dropWhile_not isBlank s
    rw [hhead] at hnot
    simpa using hnot
  last c hc := by
    obtain ⟨hne, rfl⟩ := List.mem_getLast?_eq_getLast hc
    have hnot := List.rdropWhile_last_not isBlank (s.dropWhile isBlank) hne
    exact Bool.eq_false_iff.mpr hnot

theorem exists_blanks_around (s : List Char) :
    ∃ w w', Blanks w ∧ Blanks w' ∧ s = w ++ trim s ++ w' := by
  refine ⟨s.takeWhile isBlank, (s.dropWhile isBlank).rtakeWhile isBlank,
    fun c hc => List.mem_takeWhile_imp hc, fun c hc => List.mem_rtakeWhile_imp hc, ?_⟩
  have hback : trim s ++ (s.dropWhile isBlank).rtakeWhile isBlank = s.dropWhile isBlank :=
    List.rdropWhile_append_rtakeWhile
  rw [List.append_assoc, hback, List.takeWhile_append_dropWhile]

/-- What trimming leaves is told by the ends of a text alone. -/
theorem trim_eq_iff {s t : List Char} :
    trim s = t ↔ Trimmed t ∧ ∃ w w', Blanks w ∧ Blanks w' ∧ s = w ++ t ++ w' := by
  constructor
  · rintro rfl
    exact ⟨trimmed_trim s, exists_blanks_around s⟩
  · rintro ⟨ht, w, w', hw, hw', rfl⟩
    exact trim_append hw ht hw'

end HashTabs.Text
