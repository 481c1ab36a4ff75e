import HashTabs.Text.Percent
import HashTabs.Proofs.Text.Utf8

/-! The spellings of a text in form encoding. A byte has many of them, and reading takes every one
back to the text. -/

namespace HashTabs.Text.Percent

/-- Holds of the hexadecimal digits, of either case, that stand for `n`. -/
def IsHexDigit (n : Nat) (c : Char) : Prop :=
  "0123456789ABCDEF".toList[n]? = some c ∨ "0123456789abcdef".toList[n]? = some c

/-- Holds of the characters that may be written as they are. -/
def IsUnreserved (c : Char) : Prop := c.isAlphanum ∨ c ∈ ['-', '.', '_', '~']

instance (c : Char) : Decidable (IsUnreserved c) :=
  inferInstanceAs (Decidable (c.isAlphanum ∨ c ∈ ['-', '.', '_', '~']))

/-- The spellings of a byte. -/
inductive SpellsByte : UInt8 → List Char → Prop
  | escaped {b : UInt8} {h l : Char} :
    IsHexDigit (b.toNat / 16) h → IsHexDigit (b.toNat % 16) l → SpellsByte b ['%', h, l]
  | literal {c : Char} : IsUnreserved c → SpellsByte (UInt8.ofNat c.toNat) [c]
  | space : SpellsByte 0x20 ['+']

inductive Spells : List UInt8 → List Char → Prop
  | nil : Spells [] []
  | cons {b : UInt8} {bs : List UInt8} {w t : List Char} :
    SpellsByte b w → Spells bs t → Spells (b :: bs) (w ++ t)

/-! ## The characters of a spelling -/

theorem ascii_of_isHexDigit {n : Nat} {c : Char} (h : IsHexDigit n c) :
    c.isAlphanum ∧ hexValue? (UInt8.ofNat c.toNat) = some n := by
  -- Sixteen digits of each case.
  have upper : ∀ p ∈ "0123456789ABCDEF".toList.zipIdx,
      p.1.isAlphanum ∧ hexValue? (UInt8.ofNat p.1.toNat) = some p.2 := by decide +kernel
  have lower : ∀ p ∈ "0123456789abcdef".toList.zipIdx,
      p.1.isAlphanum ∧ hexValue? (UInt8.ofNat p.1.toNat) = some p.2 := by decide +kernel
  rcases h with h | h
  · exact upper (c, n) (List.mem_zipIdx_iff_getElem?.mpr h)
  · exact lower (c, n) (List.mem_zipIdx_iff_getElem?.mpr h)

theorem bounds_of_isAlphanum {c : Char} (h : c.isAlphanum) :
    0x30 ≤ c.toNat ∧ c.toNat ≤ 0x39 ∨ 0x41 ≤ c.toNat ∧ c.toNat ≤ 0x5A ∨
      0x61 ≤ c.toNat ∧ c.toNat ≤ 0x7A := by
  delta Char.isAlphanum Char.isAlpha Char.isUpper Char.isLower Char.isDigit at h
  simp only [Bool.or_eq_true, decide_eq_true_eq, Bool.and_eq_true, UInt32.le_iff_toNat_le] at h
  change (0x41 ≤ c.toNat ∧ c.toNat ≤ 0x5A ∨ 0x61 ≤ c.toNat ∧ c.toNat ≤ 0x7A) ∨
    0x30 ≤ c.toNat ∧ c.toNat ≤ 0x39 at h
  omega

theorem bounds_of_isUnreserved {c : Char} (h : IsUnreserved c) :
    0x2D ≤ c.toNat ∧ c.toNat ≤ 0x2E ∨ 0x30 ≤ c.toNat ∧ c.toNat ≤ 0x39 ∨
      0x41 ≤ c.toNat ∧ c.toNat ≤ 0x5A ∨ c.toNat = 0x5F ∨
      0x61 ≤ c.toNat ∧ c.toNat ≤ 0x7A ∨ c.toNat = 0x7E := by
  rcases h with h | h
  · have := bounds_of_isAlphanum h
    omega
  · simp only [List.mem_cons, List.not_mem_nil, or_false] at h
    rcases h with rfl | rfl | rfl | rfl <;> decide

/-- A character of a spelling is ASCII and none that has a meaning between parameters. -/
theorem SpellsByte.mem {b : UInt8} {w : List Char} (h : SpellsByte b w) {c : Char} (hc : c ∈ w) :
    c = '%' ∨ c = '+' ∨ IsUnreserved c := by
  cases h with
  | escaped hh hl =>
    simp only [List.mem_cons, List.not_mem_nil, or_false] at hc
    rcases hc with rfl | rfl | rfl
    · exact .inl rfl
    · exact .inr (.inr (.inl (ascii_of_isHexDigit hh).1))
    · exact .inr (.inr (.inl (ascii_of_isHexDigit hl).1))
  | literal hu => exact .inr (.inr (List.mem_singleton.mp hc ▸ hu))
  | space => exact .inr (.inl (List.mem_singleton.mp hc))

theorem Spells.mem {bs : List UInt8} {t : List Char} (h : Spells bs t) {c : Char} (hc : c ∈ t) :
    c = '%' ∨ c = '+' ∨ IsUnreserved c := by
  induction h with
  | nil => cases hc
  | cons hb _ ih =>
    rcases List.mem_append.mp hc with h | h
    · exact hb.mem h
    · exact ih h

theorem Spells.ascii {bs : List UInt8} {t : List Char} (h : Spells bs t) :
    ∀ c ∈ t, c.toNat ≤ 0x7F := by
  intro c hc
  rcases h.mem hc with rfl | rfl | hu
  · decide
  · decide
  · have := bounds_of_isUnreserved hu
    omega

/-- A text of unreserved characters is a spelling of itself. -/
theorem Spells.self {s : List Char} (h : ∀ c ∈ s, IsUnreserved c) : Spells (Utf8.encode s) s := by
  induction s with
  | nil => exact .nil
  | cons c s ih =>
    have hc := h c List.mem_cons_self
    have hlt : c.toNat ≤ 0x7F := by
      have := bounds_of_isUnreserved hc
      omega
    rw [Utf8.encode_cons, Utf8.encodeChar_one hlt]
    exact .cons (.literal hc) (ih fun d hd => h d (List.mem_cons_of_mem c hd))

/-! ## Reading a spelling -/

theorem decode_cons_of_ne {b : UInt8} (h : b ≠ 0x25) (r : List UInt8) :
    decode (b :: r) = plain b :: decode r := by
  match r with
  | [] => rfl
  | [_] => rfl
  | _ :: _ :: _ => rw [decode, if_neg h]

theorem decode_escape {h l : UInt8} {x y : Nat} (hh : hexValue? h = some x)
    (hl : hexValue? l = some y) (r : List UInt8) :
    decode (0x25 :: h :: l :: r) = UInt8.ofNat (x * 16 + y) :: decode r := by
  rw [decode, if_pos rfl]
  simp only [hexPair?, hh, hl]

theorem SpellsByte.decode {b : UInt8} {w : List Char} (h : SpellsByte b w) (r : List UInt8) :
    Percent.decode ((w.map fun c => UInt8.ofNat c.toNat) ++ r) = b :: Percent.decode r := by
  cases h with
  | escaped hh hl =>
    have hb : UInt8.ofNat (b.toNat / 16 * 16 + b.toNat % 16) = b := by
      rw [Nat.div_add_mod' b.toNat 16, UInt8.ofNat_toNat]
    exact (decode_escape (ascii_of_isHexDigit hh).2 (ascii_of_isHexDigit hl).2 r).trans
      (congrArg (· :: Percent.decode r) hb)
  | literal hu =>
    -- A literal character is no percent sign, and no plus sign, which would be read as a space.
    rename_i c
    have hc := bounds_of_isUnreserved hu
    have hn : (UInt8.ofNat c.toNat).toNat = c.toNat := Utf8.toNat_ofNat_of_lt (by omega)
    have hpercent : UInt8.ofNat c.toNat ≠ 0x25 := by
      intro h
      rw [h] at hn
      change 0x25 = c.toNat at hn
      omega
    have hplus : UInt8.ofNat c.toNat ≠ 0x2B := by
      intro h
      rw [h] at hn
      change 0x2B = c.toNat at hn
      omega
    rw [List.map_singleton, List.singleton_append, decode_cons_of_ne hpercent, plain,
      if_neg hplus]
  | space => exact decode_cons_of_ne (by decide) r

theorem Spells.decode {bs : List UInt8} {t : List Char} (h : Spells bs t) :
    Percent.decode (Utf8.encode t) = bs := by
  rw [Utf8.encode_of_ascii h.ascii]
  induction h with
  | nil => rfl
  | cons hb _ ih => rw [List.map_append, hb.decode, ih]

/-- Bytes stand for a text just if, decoded, they are the bytes of that text. -/
theorem text_eq_ok_iff {bs : List UInt8} {v : String} :
    text bs = .ok v ↔ decode bs = Utf8.encode v.toList := by
  rw [← Utf8.decode_eq_ok_iff, text]
  cases Utf8.decode (decode bs) with
  | error f => simp [Except.map]
  | ok s =>
    rw [Except.map, Except.ok.injEq, Except.ok.injEq, ← String.toList_inj, String.toList_ofList]

theorem text_of_spells {v : String} {t : List Char} (h : Spells (Utf8.encode v.toList) t) :
    text (Utf8.encode t) = .ok v :=
  text_eq_ok_iff.mpr h.decode

end HashTabs.Text.Percent
