import Mathlib.Data.List.TakeWhile
import HashTabs.Json.Lexer
import HashTabs.Proofs.Text.Percent

/-! The words of JSON against their grammar: the runs of blanks, and the many spellings that a text
has as a string. Reading a string finds its text whatever the spelling, and accepts nothing else. -/

namespace HashTabs.Json

open Text.Percent (IsHexDigit)

/-- Holds of a run of blanks, be it empty. -/
def Blanks (s : List Char) : Prop := ∀ c ∈ s, c ∈ [' ', '\t', '\n', '\r']

/-- A number below 2 ^ 16, and four hexadecimal digits for it. -/
inductive SpellsUnit : Nat → List Char → Prop
  | digits {w x y z : Nat} {a b c d : Char} :
    IsHexDigit w a → IsHexDigit x b → IsHexDigit y c → IsHexDigit z d →
    SpellsUnit (((w * 16 + x) * 16 + y) * 16 + z) [a, b, c, d]

/-- The letters that may stand behind a backslash, and the characters that they then stand for. -/
def letters : List (Char × Char) :=
  [('"', '"'), ('\\', '\\'), ('/', '/'), ('b', '\x08'), ('f', '\x0c'), ('n', '\n'), ('r', '\r'),
    ('t', '\t')]

/-- The spellings of a character in a string. -/
inductive SpellsChar : Char → List Char → Prop
  | literal {c : Char} : c ≠ '"' → c ≠ '\\' → 0x20 ≤ c.toNat → SpellsChar c [c]
  | letter {l c : Char} : (l, c) ∈ letters → SpellsChar c ['\\', l]
  | unit {n : Nat} {w : List Char} : SpellsUnit n w → n < 0xD800 ∨ 0xDFFF < n →
    SpellsChar (Char.ofNat n) ('\\' :: 'u' :: w)
  | pair {n m : Nat} {w x : List Char} : SpellsUnit n w → 0xD800 ≤ n ∧ n ≤ 0xDBFF →
    SpellsUnit m x → 0xDC00 ≤ m ∧ m ≤ 0xDFFF →
    SpellsChar (Char.ofNat (0x10000 + (n - 0xD800) * 0x400 + (m - 0xDC00)))
      ('\\' :: 'u' :: w ++ '\\' :: 'u' :: x)

/-- The spellings of a text between the quotes of a string. -/
inductive Spells : List Char → List Char → Prop
  | nil : Spells [] []
  | cons {c : Char} {s w t : List Char} : SpellsChar c w → Spells s t → Spells (c :: s) (w ++ t)

/-- Holds of the strings, quotes included, that spell a text. -/
def IsString (s : String) (t : List Char) : Prop := ∃ w, Spells s.toList w ∧ t = '"' :: w ++ ['"']

/-! ## Blanks and keywords -/

theorem isBlank_iff (c : Char) : isBlank c = true ↔ c ∈ [' ', '\t', '\n', '\r'] := by
  simp [isBlank, or_assoc]

theorem skipBlanks_append {b : List Char} (h : Blanks b) (s : List Char) :
    skipBlanks (b ++ s) = skipBlanks s :=
  List.dropWhile_append_of_pos fun c hc => (isBlank_iff c).mpr (h c hc)

theorem skipBlanks_cons {c : Char} (h : isBlank c = false) (s : List Char) :
    skipBlanks (c :: s) = c :: s :=
  List.dropWhile_cons_of_neg (by simp [h])

theorem skipBlanks_eq_nil_iff (s : List Char) : skipBlanks s = [] ↔ Blanks s := by
  rw [skipBlanks, List.dropWhile_eq_nil_iff]
  exact forall₂_congr fun c _ => isBlank_iff c

/-- Blanks are left out as far as they go. -/
theorem exists_blanks (s : List Char) : ∃ b, Blanks b ∧ s = b ++ skipBlanks s := by
  refine ⟨s.takeWhile isBlank, fun c hc => ?_, List.takeWhile_append_dropWhile.symm⟩
  exact (isBlank_iff c).mp (List.mem_takeWhile_imp hc)

theorem skipBlanks_append_of_cons {c : Char} {s r : List Char} (h : skipBlanks s = c :: r)
    (t : List Char) : skipBlanks (s ++ t) = c :: (r ++ t) := by
  obtain ⟨b, hb, hs⟩ := exists_blanks s
  rw [h] at hs
  have hc : isBlank c = false := by
    have hhead := List.head?_dropWhile_not isBlank s
    rw [← skipBlanks, h] at hhead
    simpa using hhead
  rw [hs, List.append_assoc, skipBlanks_append hb, List.cons_append, skipBlanks_cons hc]

theorem skipBlanks_front {p s : List Char} (h : p <+: s) : skipBlanks p <+: skipBlanks s := by
  obtain ⟨q, rfl⟩ := h
  cases hskip : skipBlanks p with
  | nil => exact List.nil_prefix
  | cons c r =>
    rw [skipBlanks_append_of_cons hskip]
    exact ⟨q, rfl⟩

theorem keyword_eq_ok_iff (w s r : List Char) : keyword w s = .ok r ↔ s = w ++ r := by
  induction w generalizing s with
  | nil => simp [keyword]
  | cons c w ih =>
    cases s with
    | nil => simp [keyword]
    | cons d s =>
      rw [keyword]
      by_cases h : d = c
      · rw [if_pos h, ih, h]
        simp
      · rw [if_neg h]
        simp [h]

/-! ## Escapes -/

theorem hexValue?_eq_some_iff {c : Char} {n : Nat} : hexValue? c = some n ↔ IsHexDigit n c := by
  constructor
  · intro h
    have hc : c.toNat < 0x67 := by
      simp only [hexValue?, Char.le_def, UInt32.le_iff_toNat_le, Char.toNat_val] at h
      have h9 : '9'.toNat = 0x39 := rfl
      have hF : 'F'.toNat = 0x46 := rfl
      have hf : 'f'.toNat = 0x66 := rfl
      split at h
      · omega
      · split at h
        · omega
        · split at h
          · omega
          · cases h
    -- No character above the last digit matters.
    have hall : ∀ k < 0x67, ∀ m ∈ hexValue? (Char.ofNat k), "0123456789ABCDEF".toList[m]? =
        some (Char.ofNat k) ∨ "0123456789abcdef".toList[m]? = some (Char.ofNat k) := by
      decide +kernel
    have := hall c.toNat hc n
    rw [Char.ofNat_toNat] at this
    exact this h
  · have upper : ∀ p ∈ "0123456789ABCDEF".toList.zipIdx, hexValue? p.1 = some p.2 := by
      decide +kernel
    have lower : ∀ p ∈ "0123456789abcdef".toList.zipIdx, hexValue? p.1 = some p.2 := by
      decide +kernel
    rintro (h | h)
    · exact upper (c, n) (List.mem_zipIdx_iff_getElem?.mpr h)
    · exact lower (c, n) (List.mem_zipIdx_iff_getElem?.mpr h)

theorem hexValue4?_eq_some_iff {a b c d : Char} {n : Nat} :
    hexValue4? a b c d = some n ↔ SpellsUnit n [a, b, c, d] := by
  constructor
  · intro h
    unfold hexValue4? at h
    split at h
    · rename_i ha hb hc hd
      obtain rfl := Option.some.inj h
      exact .digits (hexValue?_eq_some_iff.mp ha) (hexValue?_eq_some_iff.mp hb)
        (hexValue?_eq_some_iff.mp hc) (hexValue?_eq_some_iff.mp hd)
    · cases h
  · rintro ⟨ha, hb, hc, hd⟩
    unfold hexValue4?
    rw [hexValue?_eq_some_iff.mpr ha, hexValue?_eq_some_iff.mpr hb, hexValue?_eq_some_iff.mpr hc,
      hexValue?_eq_some_iff.mpr hd]

theorem shortEscape?_eq_some_iff {l c : Char} : shortEscape? l = some c ↔ (l, c) ∈ letters := by
  constructor
  · intro h
    unfold shortEscape? at h
    split at h
    · rename_i hl
      obtain rfl := Option.some.inj h
      rcases hl with rfl | rfl | rfl <;> decide
    · -- The other letters are tried one after the other.
      repeat' split at h
      all_goals first
        | cases h; done
        | obtain rfl := Option.some.inj h; rename_i hl; subst hl; decide
  · have hall : ∀ p ∈ letters, shortEscape? p.1 = some p.2 := by decide
    exact hall (l, c)

theorem exists_of_codeUnit {s : List Char} {n : Nat} {r : { r : List Char // r.length < s.length }}
    (h : codeUnit s = .ok (n, r)) : ∃ w, SpellsUnit n w ∧ s = w ++ r.val := by
  unfold codeUnit at h
  split at h
  · split at h
    · rename_i hv
      obtain ⟨rfl, rfl⟩ := Prod.mk.inj (Except.ok.inj h)
      exact ⟨_, hexValue4?_eq_some_iff.mp hv, rfl⟩
    · cases h
  · split at h <;> cases h

theorem codeUnit_of_spells {n : Nat} {w r s : List Char} (h : SpellsUnit n w) (hs : s = w ++ r) :
    ∃ hr, codeUnit s = .ok (n, ⟨r, hr⟩) := by
  obtain ⟨ha, hb, hc, hd⟩ := id h
  subst hs
  refine ⟨by simp; omega, ?_⟩
  simp only [List.cons_append, List.nil_append, codeUnit]
  split
  · rename_i hv
    obtain rfl := Option.some.inj ((hexValue4?_eq_some_iff.mpr h).symm.trans hv)
    rfl
  · rename_i hv
    cases (hexValue4?_eq_some_iff.mpr h).symm.trans hv

theorem isHighSurrogate_iff (n : Nat) : isHighSurrogate n = true ↔ 0xD800 ≤ n ∧ n ≤ 0xDBFF :=
  decide_eq_true_iff

theorem isLowSurrogate_iff (n : Nat) : isLowSurrogate n = true ↔ 0xDC00 ≤ n ∧ n ≤ 0xDFFF :=
  decide_eq_true_iff

theorem exists_of_codePoint {s : List Char} {c : Char} {r : { r : List Char // r.length < s.length }}
    (h : codePoint s = .ok (c, r)) : ∃ w, SpellsChar c ('\\' :: 'u' :: w) ∧ s = w ++ r.val := by
  unfold codePoint at h
  split at h
  · cases h
  · rename_i n t ht hu
    obtain ⟨w, hw, hs⟩ := exists_of_codeUnit hu
    split at h
    · cases h
    · rename_i hlow
      rw [isLowSurrogate_iff] at hlow
      split at h
      · rename_i hhigh
        rw [isHighSurrogate_iff] at hhigh
        -- Only the escape of its partner can follow.
        rcases t with _ | ⟨b, _ | ⟨d, t⟩⟩
        · cases h
        · dsimp only at h
          split at h <;> cases h
        · obtain rfl : b = '\\' := Decidable.of_not_not fun hb => by simp [hb] at h
          obtain rfl : d = 'u' := Decidable.of_not_not fun hd => by simp [hd] at h
          simp only [bne_self_eq_false, Bool.false_eq_true, if_false] at h
          split at h
          · cases h
          · rename_i m r' hr' hu'
            obtain ⟨x, hx, ht'⟩ := exists_of_codeUnit hu'
            split at h
            · rename_i hm
              obtain ⟨rfl, rfl⟩ := Prod.mk.inj (Except.ok.inj h)
              refine ⟨_, .pair hw hhigh hx ((isLowSurrogate_iff m).mp hm), ?_⟩
              change t = x ++ r' at ht'
              change s = w ++ ('\\' :: 'u' :: x) ++ r'
              rw [List.append_assoc, List.cons_append, List.cons_append, ← ht', hs]
            · cases h
      · rename_i hhigh
        rw [isHighSurrogate_iff] at hhigh
        obtain ⟨rfl, rfl⟩ := Prod.mk.inj (Except.ok.inj h)
        exact ⟨w, .unit hw (by omega), hs⟩

theorem codePoint_of_spells {c : Char} {w r s : List Char} (h : SpellsChar c ('\\' :: 'u' :: w))
    (hs : s = w ++ r) : ∃ hr, codePoint s = .ok (c, ⟨r, hr⟩) := by
  cases h with
  | letter hl => simp [letters] at hl
  | @unit n _ hw hn =>
    obtain ⟨hr, hu⟩ := codeUnit_of_spells hw hs
    have hlow : isLowSurrogate n = false := decide_eq_false (by omega)
    have hhigh : isHighSurrogate n = false := decide_eq_false (by omega)
    refine ⟨hr, ?_⟩
    unfold codePoint
    simp [hu, hlow, hhigh]
  | @pair n m w x hw hn hx hm =>
    change s = (w ++ '\\' :: 'u' :: x) ++ r at hs
    rw [List.append_assoc] at hs
    obtain ⟨hr, hu⟩ := codeUnit_of_spells hw hs
    obtain ⟨hr', hu'⟩ := codeUnit_of_spells hx (rfl : x ++ r = x ++ r)
    have hlow : isLowSurrogate n = false := decide_eq_false (by omega)
    have hhigh : isHighSurrogate n = true := (isHighSurrogate_iff n).mpr hn
    have hpartner : isLowSurrogate m = true := (isLowSurrogate_iff m).mpr hm
    refine ⟨by rw [hs]; simp; omega, ?_⟩
    unfold codePoint
    simp only [hu, hlow, hhigh]
    simp [hu', hpartner]

theorem exists_of_escape {s : List Char} {c : Char} {r : { r : List Char // r.length < s.length }}
    (h : escape s = .ok (c, r)) : ∃ w, SpellsChar c ('\\' :: w) ∧ s = w ++ r.val := by
  unfold escape at h
  split at h
  · cases h
  · rename_i l t
    split at h
    · rename_i hl
      obtain ⟨rfl, rfl⟩ := Prod.mk.inj (Except.ok.inj h)
      exact ⟨[l], .letter (shortEscape?_eq_some_iff.mp hl), rfl⟩
    · split at h
      · rename_i hu
        subst hu
        split at h
        · cases h
        · rename_i hp
          obtain ⟨rfl, rfl⟩ := Prod.mk.inj (Except.ok.inj h)
          obtain ⟨w, hw, ht⟩ := exists_of_codePoint hp
          exact ⟨'u' :: w, hw, congrArg (List.cons 'u') ht⟩
      · cases h

theorem escape_of_spells {c : Char} {w r s : List Char} (h : SpellsChar c ('\\' :: w))
    (hs : s = w ++ r) : ∃ hr, escape s = .ok (c, ⟨r, hr⟩) := by
  have hletter : ∀ l, w = [l] → (l, c) ∈ letters → ∃ hr, escape s = .ok (c, ⟨r, hr⟩) := by
    rintro l rfl hl
    subst hs
    refine ⟨by simp, ?_⟩
    simp [escape, shortEscape?_eq_some_iff.mpr hl]
  have hpoint : ∀ x, w = 'u' :: x → ∃ hr, escape s = .ok (c, ⟨r, hr⟩) := by
    rintro x rfl
    obtain ⟨hr, hp⟩ := codePoint_of_spells h (rfl : x ++ r = x ++ r)
    subst hs
    refine ⟨by rw [List.cons_append, List.length_cons, List.length_append]; omega, ?_⟩
    have hu : shortEscape? 'u' = none := by decide
    simp [escape, hu, hp]
  cases h with
  | literal _ hc _ => exact absurd rfl hc
  | letter hl => exact hletter _ rfl hl
  | unit => exact hpoint _ rfl
  | pair => exact hpoint _ rfl

/-! ## Strings -/

theorem map_eq_ok_iff {ε α β : Type} {f : α → β} {x : Except ε α} {b : β} :
    x.map f = .ok b ↔ ∃ a, x = .ok a ∧ f a = b := by
  cases x <;> simp [Except.map]

theorem exists_of_stringBody {s v r : List Char} (h : stringBody s = .ok (v, r)) :
    ∃ w, Spells v w ∧ s = w ++ '"' :: r := by
  fun_induction stringBody s generalizing v with
  | case1 => cases h
  | case2 s =>
    obtain ⟨rfl, rfl⟩ := Prod.mk.inj (Except.ok.inj h)
    exact ⟨[], .nil, rfl⟩
  | case3 => cases h
  | case4 s c t _ he _ ih =>
    obtain ⟨⟨v, r⟩, hv, hp⟩ := map_eq_ok_iff.mp h
    obtain ⟨rfl, rfl⟩ := Prod.mk.inj hp
    obtain ⟨w, hw, rfl⟩ := ih hv
    obtain ⟨x, hx, hs⟩ := exists_of_escape he
    exact ⟨'\\' :: x ++ w, .cons hx hw, by simpa using hs⟩
  | case5 => cases h
  | case6 c s hquote hslash hcontrol ih =>
    obtain ⟨⟨v, r⟩, hv, hp⟩ := map_eq_ok_iff.mp h
    obtain ⟨rfl, rfl⟩ := Prod.mk.inj hp
    obtain ⟨w, hw, rfl⟩ := ih hv
    exact ⟨c :: w, .cons (.literal hquote hslash (Nat.not_lt.mp hcontrol)) hw, rfl⟩

/-- Any spelling of a character is read as that character. -/
theorem stringBody_append {c : Char} {w : List Char} (h : SpellsChar c w) (t : List Char) :
    stringBody (w ++ t) = (stringBody t).map (prepend c) := by
  have hescape : ∀ x, w = '\\' :: x →
      stringBody (w ++ t) = (stringBody t).map (prepend c) := by
    rintro x rfl
    obtain ⟨_, he⟩ := escape_of_spells h (rfl : x ++ t = x ++ t)
    rw [List.cons_append, stringBody, if_neg (by decide), if_pos rfl, he]
  cases h with
  | literal hquote hslash hcontrol =>
    rw [List.singleton_append, stringBody, if_neg hquote, if_neg hslash,
      if_neg (Nat.not_lt.mpr hcontrol)]
  | letter => exact hescape _ rfl
  | unit => exact hescape _ rfl
  | pair => exact hescape _ rfl

theorem stringBody_of_spells {v w : List Char} (h : Spells v w) (r : List Char) :
    stringBody (w ++ '"' :: r) = .ok (v, r) := by
  induction h with
  | nil => rw [List.nil_append, stringBody, if_pos rfl]
  | cons hc _ ih =>
    rw [List.append_assoc, stringBody_append hc, ih]
    rfl

end HashTabs.Json
