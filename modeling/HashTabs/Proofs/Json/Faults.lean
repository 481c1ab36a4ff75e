import HashTabs.Json.Number
import HashTabs.Proofs.Json.Words

/-! The faults that a reading can end in. A word that is cut off before its end is found to be cut
short, wherever the cut is. A number is not, as long as a brace closes what it stands in. -/

namespace HashTabs.Json

open Text.Percent (IsHexDigit)

/-- Holds of a reading that ends in the fault `f`, or else in something of which `P` holds. -/
def OrFault {ε α : Type} (f : ε) (P : α → Prop) : Except ε α → Prop
  | .ok a => P a
  | .error e => e = f

namespace OrFault

variable {ε ε' α β : Type} {f : ε} {P : α → Prop} {Q : β → Prop} {x : Except ε α}

theorem cases (h : OrFault f P x) : x = .error f ∨ ∃ a, x = .ok a ∧ P a := by
  cases x with
  | error e => exact .inl (congrArg Except.error h)
  | ok a => exact .inr ⟨a, rfl, h⟩

theorem bind {g : α → Except ε β} (h : OrFault f P x) (hg : ∀ a, P a → OrFault f Q (g a)) :
    OrFault f Q (x >>= g) := by
  cases x with
  | error e => exact h
  | ok a => exact hg a h

theorem map {g : α → β} (h : OrFault f P x) (hg : ∀ a, P a → Q (g a)) :
    OrFault f Q (x.map g) := by
  cases x with
  | error e => exact h
  | ok a => exact hg a h

theorem mapError {g : ε → ε'} (h : OrFault f P x) : OrFault (g f) P (x.mapError g) := by
  cases x with
  | error e => exact congrArg g h
  | ok a => exact h

end OrFault

/-- Holds of what a cut before the end of a word leaves of it. -/
def CutOff (p w : List Char) : Prop := ∃ c q, w = p ++ c :: q

theorem cutOff_cons {c : Char} {p w : List Char} (h : CutOff p (c :: w)) :
    p = [] ∨ ∃ p', p = c :: p' ∧ CutOff p' w := by
  obtain ⟨d, q, h⟩ := h
  cases p with
  | nil => exact .inl rfl
  | cons e p =>
    obtain ⟨rfl, rfl⟩ := List.cons.inj h
    exact .inr ⟨p, rfl, d, q, rfl⟩

theorem not_cutOff_nil {p : List Char} : ¬CutOff p [] := by
  rintro ⟨d, q, h⟩
  simp at h

/-- A front part of two texts is a piece of the first, or all of it and a front part of the second. -/
theorem front_append {p w s : List Char} (h : p <+: w ++ s) :
    CutOff p w ∨ ∃ t, p = w ++ t ∧ t <+: s := by
  obtain ⟨q, hq⟩ := h
  rcases List.append_eq_append_iff.mp hq with ⟨as, rfl, rfl⟩ | ⟨bs, rfl, rfl⟩
  · cases as with
    | nil => exact .inr ⟨[], by simp, List.nil_prefix⟩
    | cons c as => exact .inl ⟨c, as, rfl⟩
  · exact .inr ⟨bs, rfl, q, rfl⟩

theorem CutOff.append {p w s : List Char} (h : CutOff p (w ++ s)) :
    CutOff p w ∨ ∃ t, p = w ++ t ∧ CutOff t s := by
  obtain ⟨c, q, hq⟩ := h
  rcases List.append_eq_append_iff.mp hq with ⟨as, rfl, rfl⟩ | ⟨bs, rfl, hbs⟩
  · exact .inr ⟨as, rfl, c, q, rfl⟩
  · cases bs with
    | nil => exact .inr ⟨[], by simp, c, q, hbs.symm⟩
    | cons d bs => exact .inl ⟨d, bs, rfl⟩

/-! ## Words that are cut off -/

theorem keyword_of_front {w s p r : List Char} (h : keyword w s = .ok r) (hp : p <+: s) :
    OrFault .cutShort (· <+: r) (keyword w p) := by
  induction w generalizing s p with
  | nil =>
    obtain rfl := Except.ok.inj h
    exact hp
  | cons c w ih =>
    cases p with
    | nil => rfl
    | cons d p =>
      obtain ⟨q, rfl⟩ := hp
      rw [List.cons_append, keyword] at h
      rw [keyword]
      split at h
      · rename_i hd
        rw [if_pos hd]
        exact ih h ⟨q, rfl⟩
      · cases h

theorem utf8Size_of_isHexDigit {n : Nat} {c : Char} (h : IsHexDigit n c) : c.utf8Size = 1 := by
  have := Text.Percent.bounds_of_isAlphanum (Text.Percent.ascii_of_isHexDigit h).1
  have hc : c.toNat ≤ 127 := by omega
  exact Char.utf8Size_eq_one_iff.mpr (UInt32.le_iff_toNat_le.mpr hc)

theorem codeUnit_of_cutOff {n : Nat} {w p : List Char} (h : SpellsUnit n w) (hp : CutOff p w) :
    codeUnit p = .error .cutShort := by
  obtain ⟨ha, hb, hc, hd⟩ := h
  -- At most three digits are left, each of one byte.
  have ha := utf8Size_of_isHexDigit ha
  have hb := utf8Size_of_isHexDigit hb
  have hc := utf8Size_of_isHexDigit hc
  rcases cutOff_cons hp with rfl | ⟨p, rfl, hp₁⟩
  · rfl
  rcases cutOff_cons hp₁ with rfl | ⟨p, rfl, hp₂⟩
  · simp [codeUnit, ha]
  rcases cutOff_cons hp₂ with rfl | ⟨p, rfl, hp₃⟩
  · simp [codeUnit, ha, hb]
  rcases cutOff_cons hp₃ with rfl | ⟨p, rfl, hp₄⟩
  · simp [codeUnit, ha, hb, hc]
  · exact absurd hp₄ not_cutOff_nil

theorem codePoint_of_cutOff {c : Char} {w p : List Char} (h : SpellsChar c ('\\' :: 'u' :: w))
    (hp : CutOff p w) : codePoint p = .error .cutShort := by
  cases h with
  | letter hl => simp [letters] at hl
  | unit hw _ =>
    unfold codePoint
    rw [codeUnit_of_cutOff hw hp]
  | @pair n m w x hw hn hx hm =>
    change CutOff p (w ++ '\\' :: 'u' :: x) at hp
    rcases hp.append with hp | ⟨t, rfl, ht⟩
    · unfold codePoint
      rw [codeUnit_of_cutOff hw hp]
    · obtain ⟨hr, hu⟩ := codeUnit_of_spells hw (rfl : w ++ t = w ++ t)
      have hlow : isLowSurrogate n = false := decide_eq_false (by omega)
      have hhigh : isHighSurrogate n = true := (isHighSurrogate_iff n).mpr hn
      unfold codePoint
      simp only [hu, hlow, hhigh]
      -- The second code unit is missed at its backslash, at its letter, or at one of its digits.
      rcases cutOff_cons ht with rfl | ⟨t, rfl, ht₁⟩
      · rfl
      rcases cutOff_cons ht₁ with rfl | ⟨t, rfl, ht₂⟩
      · rfl
      · simp [codeUnit_of_cutOff hx ht₂]

theorem escape_of_cutOff {c : Char} {w p : List Char} (h : SpellsChar c ('\\' :: w))
    (hp : CutOff p w) : escape p = .error .cutShort := by
  have hpoint : ∀ x, w = 'u' :: x → escape p = .error .cutShort := by
    rintro x rfl
    rcases cutOff_cons hp with rfl | ⟨p, rfl, hp₁⟩
    · rfl
    · have hu : shortEscape? 'u' = none := by decide
      simp [escape, hu, codePoint_of_cutOff h hp₁]
  cases h with
  | literal _ hc _ => exact absurd rfl hc
  | letter =>
    rcases cutOff_cons hp with rfl | ⟨p, rfl, hp₁⟩
    · rfl
    · exact absurd hp₁ not_cutOff_nil
  | unit => exact hpoint _ rfl
  | pair => exact hpoint _ rfl

theorem stringBody_of_cutOff {c : Char} {w p : List Char} (h : SpellsChar c w)
    (hp : CutOff p w) : stringBody p = .error .cutShort := by
  have hescape : ∀ x, w = '\\' :: x → stringBody p = .error .cutShort := by
    rintro x rfl
    rcases cutOff_cons hp with rfl | ⟨p, rfl, hp₁⟩
    · rw [stringBody]
    · rw [stringBody, if_neg (by decide), if_pos rfl, escape_of_cutOff h hp₁]
  cases h with
  | literal =>
    rcases cutOff_cons hp with rfl | ⟨p, rfl, hp₁⟩
    · rw [stringBody]
    · exact absurd hp₁ not_cutOff_nil
  | letter => exact hescape _ rfl
  | unit => exact hescape _ rfl
  | pair => exact hescape _ rfl

/-- A spelling without the closing quote is cut short, however much of it is there. -/
theorem stringBody_of_front {v w p : List Char} (h : Spells v w) (hp : p <+: w) :
    stringBody p = .error .cutShort := by
  induction h generalizing p with
  | nil =>
    obtain rfl := List.prefix_nil.mp hp
    rw [stringBody]
  | cons hc _ ih =>
    rcases front_append hp with hp | ⟨t, rfl, ht⟩
    · exact stringBody_of_cutOff hc hp
    · rw [stringBody_append hc, ih ht]
      rfl

/-! ## Numbers in front of a brace -/

-- No part of a number is a brace, so a brace in a text is still there behind each part, and it keeps
-- the text from ending where a digit has to follow.

namespace Literal

theorem someDigits_of_brace {s : List Char} (h : '}' ∈ s) :
    OrFault .malformed ('}' ∈ ·.2) (someDigits s) := by
  cases s with
  | nil => cases h
  | cons c s =>
    rw [someDigits]
    split
    · rename_i hc
      have hs : '}' ∈ s := List.mem_of_ne_of_mem (by rintro rfl; exact absurd hc (by decide)) h
      rw [← List.takeWhile_append_dropWhile (p := Char.isDigit) (l := s), List.mem_append] at hs
      exact hs.resolve_left fun htake => absurd (List.mem_takeWhile_imp htake) (by decide)
    · rfl

theorem wholeDigits_of_brace {s : List Char} (h : '}' ∈ s) :
    OrFault .malformed ('}' ∈ ·.2) (wholeDigits s) := by
  unfold wholeDigits
  split
  · split
    · rfl
    · exact List.mem_of_ne_of_mem (by decide) h
  · exact someDigits_of_brace h

theorem withFraction_of_brace (l : Literal) {s : List Char} (h : '}' ∈ s) :
    OrFault .malformed ('}' ∈ ·.2) (withFraction l s) := by
  unfold withFraction
  split
  · have hs := List.mem_of_ne_of_mem (by decide) h
    exact (someDigits_of_brace hs).map fun _ hr => hr
  · exact h

theorem withExponent_of_brace (l : Literal) {s : List Char} (h : '}' ∈ s) :
    OrFault .malformed ('}' ∈ ·.2) (withExponent l s) := by
  unfold withExponent
  split
  · cases h
  · rename_i c s
    split
    · rename_i hc
      have hs : '}' ∈ (exponentSign s).2 := by
        have hs : '}' ∈ s := List.mem_of_ne_of_mem (by rintro rfl; exact absurd hc (by decide)) h
        unfold exponentSign
        split
        · exact List.mem_of_ne_of_mem (by decide) hs
        · exact List.mem_of_ne_of_mem (by decide) hs
        · exact hs
      exact (someDigits_of_brace hs).map fun _ hr => hr
    · exact h

theorem unsigned_of_brace (negative : Bool) {s : List Char} (h : '}' ∈ s) :
    OrFault .malformed ('}' ∈ ·.2) (unsigned negative s) := by
  unfold unsigned
  rcases (wholeDigits_of_brace h).cases with hw | ⟨⟨whole, s₁⟩, hw, hs₁⟩
  · rw [hw]
    rfl
  rw [hw]
  rcases (withFraction_of_brace ⟨negative, whole, none, none⟩ hs₁).cases with
    hf | ⟨⟨l, s₂⟩, hf, hs₂⟩
  · simp only [hf]
    rfl
  · simp only [hf]
    exact withExponent_of_brace l hs₂

theorem read_of_brace {s : List Char} (h : '}' ∈ s) :
    OrFault .malformed ('}' ∈ ·.2) (read s) := by
  unfold read
  split
  · exact unsigned_of_brace true (List.mem_of_ne_of_mem (by decide) h)
  · exact unsigned_of_brace false h

theorem value_malformed (l : Literal) : OrFault .malformed (fun _ => True) l.value := by
  unfold value
  split
  · trivial
  · dsimp only
    split
    · trivial
    · rfl

end Literal

theorem number_of_brace {s : List Char} (h : '}' ∈ s) :
    OrFault .malformed ('}' ∈ ·.2) (number s) := by
  unfold number
  rcases (Literal.read_of_brace h).cases with hr | ⟨⟨l, r⟩, hr, hbrace⟩
  · rw [hr]
    rfl
  · rw [hr]
    exact (Literal.value_malformed l).map fun _ _ => hbrace

end HashTabs.Json
