import HashTabs.Json.Printer
import HashTabs.Proofs.Json.Words

/-! What JSON values look like when they are written: a string in one of its spellings, and a number
with its sign or a digit in front. -/

namespace HashTabs

open Text.Percent (IsHexDigit)

/-! ## Strings -/

namespace Json

theorem isHexDigit_hexDigit {n : Nat} (h : n < 16) : IsHexDigit n (hexDigit n) := by
  have hall : ∀ n < 16, "0123456789abcdef".toList[n]? = some (hexDigit n) := by decide +kernel
  exact .inr (hall n h)

theorem spellsChar_control {c : Char} (h : c.toNat < 0x20) :
    SpellsChar c ['\\', 'u', '0', '0', hexDigit (c.toNat / 16), hexDigit (c.toNat % 16)] := by
  have hzero : IsHexDigit 0 '0' := .inl rfl
  have hunit := SpellsUnit.digits hzero hzero
    (isHexDigit_hexDigit (by omega : c.toNat / 16 < 16))
    (isHexDigit_hexDigit (by omega : c.toNat % 16 < 16))
  have hn : ((0 * 16 + 0) * 16 + c.toNat / 16) * 16 + c.toNat % 16 = c.toNat := by omega
  rw [hn] at hunit
  have hspells := SpellsChar.unit hunit (.inl (by omega))
  rwa [Char.ofNat_toNat] at hspells

theorem spellsChar_escapeChar (c : Char) : SpellsChar c (escapeChar c) := by
  unfold escapeChar
  -- Seven characters have a letter of their own.
  iterate 7
    split
    · rename_i hc
      subst hc
      exact .letter (by decide)
  rename_i hquote hslash _ _ _ _ _
  split
  · rename_i hcontrol
    exact spellsChar_control hcontrol
  · rename_i hcontrol
    exact .literal hquote hslash (Nat.not_lt.mp hcontrol)

theorem spells_flatMap_escapeChar (s : List Char) : Spells s (s.flatMap escapeChar) := by
  induction s with
  | nil => exact .nil
  | cons c s ih =>
    rw [List.flatMap_cons]
    exact .cons (spellsChar_escapeChar c) ih

/-- A string is written with one of its spellings, which is read back up to its closing quote. -/
theorem quote_append (s : String) (r : List Char) :
    ∃ w, Spells s.toList w ∧ quote s ++ r = '"' :: (w ++ '"' :: r) :=
  ⟨_, spells_flatMap_escapeChar s.toList, by simp [quote]⟩

end Json

/-! ## Numbers -/

/-- Holds of a text that starts as a number does: with a minus sign or a digit. -/
def StartsNumber (s : List Char) : Prop := ∃ c r, s = c :: r ∧ (c = '-' ∨ c.isDigit)

namespace StartsNumber

theorem append {s : List Char} (h : StartsNumber s) (r : List Char) : StartsNumber (s ++ r) := by
  obtain ⟨c, t, rfl, hc⟩ := h
  exact ⟨c, t ++ r, rfl, hc⟩

theorem of_digits {s : List Char} (hne : s ≠ []) (hs : ∀ c ∈ s, c.isDigit) : StartsNumber s := by
  cases s with
  | nil => exact absurd rfl hne
  | cons c r => exact ⟨c, r, rfl, .inr (hs c List.mem_cons_self)⟩

theorem toList_toString_nat (n : Nat) :
    (toString n).toList ≠ [] ∧ ∀ c ∈ (toString n).toList, c.isDigit := by
  rw [show (toString n).toList = Nat.toDigits 10 n from Nat.toList_repr]
  exact ⟨Nat.toDigits_ne_nil, fun c hc => Nat.isDigit_of_mem_toDigits (by decide) (by decide) hc⟩

theorem toString_int (n : Int) : StartsNumber (toString n).toList := by
  cases n with
  | ofNat n => exact of_digits (toList_toString_nat n).1 (toList_toString_nat n).2
  | negSucc n =>
    have hsign : (toString (Int.negSucc n)).toList = '-' :: (toString (n + 1)).toList := by
      rw [show toString (Int.negSucc n) = "-" ++ toString (n + 1) from rfl, String.toList_append]
      rfl
    exact ⟨'-', _, hsign, .inl rfl⟩

theorem pointed {ds : List Char} (hne : ds ≠ []) (hds : ∀ c ∈ ds, c.isDigit) (exponent : Int) :
    StartsNumber (Decimal.pointed ds exponent) := by
  unfold Decimal.pointed
  split
  · rw [List.append_assoc]
    exact (of_digits hne hds).append _
  · dsimp only
    split
    · rename_i hplaces
      refine (of_digits ?_ fun c hc => hds c (List.mem_of_mem_take hc)).append _
      rw [Ne, List.take_eq_nil_iff, not_or]
      exact ⟨by omega, hne⟩
    · exact ⟨'0', _, rfl, .inr (by decide)⟩

theorem scientific {ds : List Char} (hne : ds ≠ []) (hds : ∀ c ∈ ds, c.isDigit) (exponent : Int) :
    StartsNumber (Decimal.scientific ds exponent) := by
  unfold Decimal.scientific
  dsimp only
  split
  · exact absurd rfl hne
  · exact ⟨_, _, rfl, .inr (hds _ List.mem_cons_self)⟩
  · exact ⟨_, _, rfl, .inr (hds _ List.mem_cons_self)⟩

theorem render (x : Decimal) : StartsNumber x.render.toList := by
  obtain ⟨hne, hds⟩ := toList_toString_nat x.digits
  unfold Decimal.render Decimal.sign
  rw [String.toList_ofList]
  split
  · exact ⟨'-', _, rfl, .inl rfl⟩
  · rw [List.nil_append]
    split
    · exact ⟨'0', _, rfl, .inr (by decide)⟩
    · split
      · exact pointed hne hds _
      · exact scientific hne hds _

end StartsNumber

end HashTabs
