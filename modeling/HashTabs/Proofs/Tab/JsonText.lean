import HashTabs.Tab.JsonText
import HashTabs.Proofs.Json.Words

/-! The JSON texts that stand for a tab: its token as a string, or an object that maps the token to
null, with blanks wherever JSON allows them. A tab is read off these texts and off no others. -/

namespace HashTabs.Tab

open HashTabs.Json

/-- The JSON texts of a tab. -/
inductive WrittenAs (t : Tab) : List Char → Prop
  | token {b s b' : List Char} : Blanks b → IsString t.token s → Blanks b' →
    WrittenAs t (b ++ s ++ b')
  | entry {b₀ b₁ b₂ b₃ b₄ b₅ s : List Char} : Blanks b₀ → Blanks b₁ → IsString t.token s →
    Blanks b₂ → Blanks b₃ → Blanks b₄ → Blanks b₅ →
    WrittenAs t (b₀ ++ '{' :: b₁ ++ s ++ b₂ ++ ':' :: b₃ ++ ['n', 'u', 'l', 'l'] ++ b₄ ++ '}' :: b₅)

theorem bind_eq_ok_iff {ε α β : Type} {x : Except ε α} {f : α → Except ε β} {b : β} :
    (x >>= f) = .ok b ↔ ∃ a, x = .ok a ∧ f a = .ok b := by
  cases x <;> simp [bind, Except.bind]

theorem mapError_eq_ok_iff {ε ε' α : Type} {f : ε → ε'} {x : Except ε α} {a : α} :
    x.mapError f = .ok a ↔ x = .ok a := by
  cases x <;> simp [Except.mapError]

/-! ## The parts of a text -/

theorem charAt_eq_ok_iff {c : Char} {other : Char → List Char → TextFault}
    (hc : isBlank c = false) {s r : List Char} :
    charAt c other s = .ok r ↔ ∃ b, Blanks b ∧ s = b ++ c :: r := by
  constructor
  · intro h
    obtain ⟨b, hb, hs⟩ := exists_blanks s
    unfold charAt at h
    split at h
    · cases h
    · rename_i hskip
      split at h
      · rename_i hd
        obtain rfl := Except.ok.inj h
        exact ⟨b, hb, by rw [hs, hskip, hd]⟩
      · cases h
  · rintro ⟨b, hb, rfl⟩
    unfold charAt
    rw [skipBlanks_append hb, skipBlanks_cons hc]
    simp

theorem nullAt_eq_ok_iff {s r : List Char} :
    nullAt s = .ok r ↔ ∃ b, Blanks b ∧ s = b ++ ['n', 'u', 'l', 'l'] ++ r := by
  constructor
  · intro h
    obtain ⟨b, hb, hs⟩ := exists_blanks s
    unfold nullAt at h
    split at h
    · cases h
    · rename_i c t hskip
      split at h
      · rename_i hn
        rw [mapError_eq_ok_iff, keyword_eq_ok_iff] at h
        exact ⟨b, hb, by rw [hs, hskip, hn, h]; simp⟩
      · cases h
  · rintro ⟨b, hb, rfl⟩
    have hk : keyword ['u', 'l', 'l'] (['u', 'l', 'l'] ++ r) = .ok r :=
      (keyword_eq_ok_iff _ _ _).mpr rfl
    unfold nullAt
    rw [List.append_assoc, skipBlanks_append hb, List.cons_append, skipBlanks_cons (by decide)]
    simp only [hk]
    rfl

theorem tokenAt_eq_ok_iff {s r : List Char} {t : Tab} :
    tokenAt s = .ok (t, r) ↔ ∃ w, Spells t.token.toList w ∧ s = w ++ '"' :: r := by
  constructor
  · intro h
    unfold tokenAt at h
    split at h
    · cases h
    · rename_i name s' hbody
      split at h
      · rename_i t' ht
        obtain ⟨rfl, rfl⟩ := Prod.mk.inj (Except.ok.inj h)
        obtain ⟨w, hw, hs⟩ := exists_of_stringBody hbody
        rw [ofJsonName?_eq_some_iff] at ht
        exact ⟨w, by rw [← ht, String.toList_ofList]; exact hw, hs⟩
      · cases h
  · rintro ⟨w, hw, rfl⟩
    unfold tokenAt
    simp only [stringBody_of_spells hw, String.ofList_toList, ofJsonName?_eq_some_iff.mpr rfl]

theorem finish_eq_ok_iff {t t' : Tab} {s : List Char} :
    finish t s = .ok t' ↔ t = t' ∧ Blanks s := by
  rw [← skipBlanks_eq_nil_iff]
  unfold finish
  cases skipBlanks s <;> simp

theorem finish_of_not_blanks (t : Tab) {s : List Char} (h : ¬Blanks s) :
    finish t s = .error .malformed := by
  rw [← skipBlanks_eq_nil_iff] at h
  unfold finish
  rw [if_neg (by simpa using h)]

/-! ## Texts of tabs -/

/-- What the readings of the parts of a text add up to: a tab, and the text that is left behind it. -/
inductive Reads (t : Tab) (s r : List Char) : Prop
  | token {s₁ : List Char} : skipBlanks s = '"' :: s₁ → tokenAt s₁ = .ok (t, r) → Reads t s r
  | entry {s₁ s₂ s₃ s₄ s₅ : List Char} : skipBlanks s = '{' :: s₁ → charAt '"' otherValue s₁ = .ok s₂ →
    tokenAt s₂ = .ok (t, s₃) → charAt ':' otherSign s₃ = .ok s₄ → nullAt s₄ = .ok s₅ →
    charAt '}' otherSign s₅ = .ok r → Reads t s r

theorem Reads.ofJsonText_eq {text : String} {t : Tab} {r : List Char}
    (h : Reads t text.toList r) : ofJsonText text = finish t r := by
  cases h with
  | token hskip htoken => simp [ofJsonText, hskip, htoken, bind, Except.bind]
  | entry hskip hquote htoken hcolon hnull hclose =>
    simp [ofJsonText, hskip, hquote, htoken, hcolon, hnull, hclose, bind, Except.bind]

theorem exists_reads {text : String} {t : Tab} (h : ofJsonText text = .ok t) :
    ∃ r, Reads t text.toList r ∧ Blanks r := by
  unfold ofJsonText at h
  split at h
  · cases h
  · rename_i c s hskip
    split at h
    · rename_i hc
      obtain ⟨⟨t', r⟩, htoken, h⟩ := bind_eq_ok_iff.mp h
      obtain ⟨rfl, hr⟩ := finish_eq_ok_iff.mp h
      exact ⟨r, .token (hc ▸ hskip) htoken, hr⟩
    · split at h
      · rename_i hc
        obtain ⟨s₂, hquote, h⟩ := bind_eq_ok_iff.mp h
        obtain ⟨⟨t', s₃⟩, htoken, h⟩ := bind_eq_ok_iff.mp h
        obtain ⟨s₄, hcolon, h⟩ := bind_eq_ok_iff.mp h
        obtain ⟨s₅, hnull, h⟩ := bind_eq_ok_iff.mp h
        obtain ⟨r, hclose, h⟩ := bind_eq_ok_iff.mp h
        obtain ⟨rfl, hr⟩ := finish_eq_ok_iff.mp h
        exact ⟨r, .entry (hc ▸ hskip) hquote htoken hcolon hnull hclose, hr⟩
      · cases h

theorem writtenAs_of_ofJsonText {text : String} {t : Tab} (h : ofJsonText text = .ok t) :
    WrittenAs t text.toList := by
  obtain ⟨b₀, hb₀, hs⟩ := exists_blanks text.toList
  obtain ⟨r, hreads, hr⟩ := exists_reads h
  rw [hs]
  cases hreads with
  | token hskip htoken =>
    rw [hskip]
    obtain ⟨w, hw, rfl⟩ := tokenAt_eq_ok_iff.mp htoken
    simpa using WrittenAs.token hb₀ ⟨w, hw, rfl⟩ hr
  | entry hskip hquote htoken hcolon hnull hclose =>
    rw [hskip]
    obtain ⟨b₁, hb₁, rfl⟩ := (charAt_eq_ok_iff (by decide)).mp hquote
    obtain ⟨w, hw, rfl⟩ := tokenAt_eq_ok_iff.mp htoken
    obtain ⟨b₂, hb₂, rfl⟩ := (charAt_eq_ok_iff (by decide)).mp hcolon
    obtain ⟨b₃, hb₃, rfl⟩ := nullAt_eq_ok_iff.mp hnull
    obtain ⟨b₄, hb₄, rfl⟩ := (charAt_eq_ok_iff (by decide)).mp hclose
    simpa using WrittenAs.entry hb₀ hb₁ ⟨w, hw, rfl⟩ hb₂ hb₃ hb₄ hr

theorem ofJsonText_of_writtenAs {text : String} {t : Tab} (h : WrittenAs t text.toList) :
    ofJsonText text = .ok t := by
  generalize htext : text.toList = s at h
  cases h with
  | @token b _ b' hb hs hb' =>
    obtain ⟨w, hw, rfl⟩ := hs
    have hskip : skipBlanks text.toList = '"' :: (w ++ '"' :: b') := by
      rw [htext, List.append_assoc, skipBlanks_append hb, List.cons_append, List.cons_append,
        skipBlanks_cons (by decide), List.append_assoc, List.singleton_append]
    have htoken := tokenAt_eq_ok_iff.mpr ⟨w, hw, (rfl : w ++ '"' :: b' = _)⟩
    rw [(Reads.token hskip htoken).ofJsonText_eq]
    exact finish_eq_ok_iff.mpr ⟨rfl, hb'⟩
  | @entry b₀ b₁ b₂ b₃ b₄ b₅ _ hb₀ hb₁ hs hb₂ hb₃ hb₄ hb₅ =>
    obtain ⟨w, hw, rfl⟩ := hs
    -- What is left of the text after each of its parts, from the last to the first.
    let s₅ := b₄ ++ '}' :: b₅
    let s₄ := b₃ ++ ['n', 'u', 'l', 'l'] ++ s₅
    let s₃ := b₂ ++ ':' :: s₄
    let s₂ := w ++ '"' :: s₃
    let s₁ := b₁ ++ '"' :: s₂
    have hskip : skipBlanks text.toList = '{' :: s₁ := by
      have hs : text.toList = b₀ ++ '{' :: s₁ := by
        rw [htext]
        simp [s₁, s₂, s₃, s₄, s₅]
      rw [hs, skipBlanks_append hb₀, skipBlanks_cons (by decide)]
    have hquote : charAt '"' otherValue s₁ = .ok s₂ := (charAt_eq_ok_iff (by decide)).mpr ⟨b₁, hb₁, rfl⟩
    have htoken : tokenAt s₂ = .ok (t, s₃) := tokenAt_eq_ok_iff.mpr ⟨w, hw, rfl⟩
    have hcolon : charAt ':' otherSign s₃ = .ok s₄ := (charAt_eq_ok_iff (by decide)).mpr ⟨b₂, hb₂, rfl⟩
    have hnull : nullAt s₄ = .ok s₅ := nullAt_eq_ok_iff.mpr ⟨b₃, hb₃, rfl⟩
    have hclose : charAt '}' otherSign s₅ = .ok b₅ := (charAt_eq_ok_iff (by decide)).mpr ⟨b₄, hb₄, rfl⟩
    rw [(Reads.entry hskip hquote htoken hcolon hnull hclose).ofJsonText_eq]
    exact finish_eq_ok_iff.mpr ⟨rfl, hb₅⟩

/-- A tab is read off the JSON texts that spell its token, alone or with null, and off no others. -/
theorem ofJsonText_eq_ok_iff (text : String) (t : Tab) :
    ofJsonText text = .ok t ↔ WrittenAs t text.toList :=
  ⟨writtenAs_of_ofJsonText, ofJsonText_of_writtenAs⟩

end HashTabs.Tab
