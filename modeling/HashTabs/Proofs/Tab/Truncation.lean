import HashTabs.Proofs.Json.Faults
import HashTabs.Proofs.Tab.JsonText

/-! What becomes of the JSON text of a tab that is cut off, or that goes on. Cutting it off leaves a
text of the same tab, or one that is found to be cut short; and what follows it makes it malformed
unless it is blank. -/

namespace HashTabs.Tab

open HashTabs.Json

/-! ## Front parts -/

theorem charAt_of_front {c : Char} {other : Char → List Char → TextFault} {s p r : List Char}
    (h : charAt c other s = .ok r) (hp : p <+: s) :
    OrFault .cutShort (· <+: r) (charAt c other p) := by
  have hskip := skipBlanks_front hp
  unfold charAt at h ⊢
  cases hfront : skipBlanks p with
  | nil => rfl
  | cons d p₁ =>
    obtain ⟨q, hq⟩ := hfront ▸ hskip
    rw [← hq] at h
    dsimp only [List.cons_append] at h ⊢
    split at h
    · rename_i hd
      obtain rfl := Except.ok.inj h
      rw [if_pos hd]
      exact ⟨q, rfl⟩
    · cases h

theorem nullAt_of_front {s p r : List Char} (h : nullAt s = .ok r) (hp : p <+: s) :
    OrFault .cutShort (· <+: r) (nullAt p) := by
  obtain ⟨b, hb, rfl⟩ := nullAt_eq_ok_iff.mp h
  have hskip : skipBlanks (b ++ ['n', 'u', 'l', 'l'] ++ r) = 'n' :: 'u' :: 'l' :: 'l' :: r := by
    rw [List.append_assoc, skipBlanks_append hb]
    exact skipBlanks_cons (by decide) _
  have hfront := hskip ▸ skipBlanks_front hp
  unfold nullAt
  rcases List.prefix_cons_iff.mp hfront with hnil | ⟨p₁, hcons, hp₁⟩
  · rw [hnil]
    rfl
  · have hword : keyword ['u', 'l', 'l'] ('u' :: 'l' :: 'l' :: r) = .ok r :=
      (keyword_eq_ok_iff _ _ _).mpr rfl
    rw [hcons]
    exact (keyword_of_front hword hp₁).mapError

theorem tokenAt_of_front {s p r : List Char} {t : Tab} (h : tokenAt s = .ok (t, r))
    (hp : p <+: s) : OrFault .cutShort (fun q => q.1 = t ∧ q.2 <+: r) (tokenAt p) := by
  obtain ⟨w, hw, rfl⟩ := tokenAt_eq_ok_iff.mp h
  have hcut : p <+: w → OrFault .cutShort (fun q : Tab × List Char => q.1 = t ∧ q.2 <+: r)
      (tokenAt p) := by
    intro hp
    unfold tokenAt
    rw [stringBody_of_front hw hp]
    rfl
  rcases front_append hp with ⟨c, q, rfl⟩ | ⟨q, rfl, hq⟩
  · exact hcut ⟨_, rfl⟩
  · rcases List.prefix_cons_iff.mp hq with rfl | ⟨p₁, rfl, hp₁⟩
    · exact hcut ⟨[], by simp⟩
    · rw [tokenAt_eq_ok_iff.mpr ⟨w, hw, rfl⟩]
      exact ⟨rfl, hp₁⟩

theorem finish_of_front {t : Tab} {p r : List Char} (hr : Blanks r) (hp : p <+: r) :
    OrFault .cutShort (· = t) (finish t p) := by
  rw [finish_eq_ok_iff.mpr ⟨rfl, fun c hc => hr c (hp.subset hc)⟩]
  rfl

theorem Reads.ofJsonText_of_front {t : Tab} {s r : List Char} (h : Reads t s r) (hr : Blanks r)
    {p : String} (hp : p.toList <+: s) : OrFault .cutShort (· = t) (ofJsonText p) := by
  have hskip := skipBlanks_front hp
  unfold ofJsonText
  cases hfront : skipBlanks p.toList with
  | nil => rfl
  | cons c p₁ =>
    rw [hfront] at hskip
    cases h with
    | token hs htoken =>
      rw [hs] at hskip
      obtain ⟨rfl, hp₁⟩ := List.cons_prefix_cons.mp hskip
      refine (tokenAt_of_front htoken hp₁).bind ?_
      rintro ⟨t', p₂⟩ ⟨rfl, hp₂⟩
      exact finish_of_front hr hp₂
    | entry hs hquote htoken hcolon hnull hclose =>
      rw [hs] at hskip
      obtain ⟨rfl, hp₁⟩ := List.cons_prefix_cons.mp hskip
      refine (charAt_of_front hquote hp₁).bind fun p₂ hp₂ => ?_
      refine (tokenAt_of_front htoken hp₂).bind ?_
      rintro ⟨t', p₃⟩ ⟨rfl, hp₃⟩
      refine (charAt_of_front hcolon hp₃).bind fun p₄ hp₄ => ?_
      refine (nullAt_of_front hnull hp₄).bind fun p₅ hp₅ => ?_
      exact (charAt_of_front hclose hp₅).bind fun p₆ hp₆ => finish_of_front hr hp₆

/-! ## Texts that go on -/

theorem charAt_append {c : Char} {other : Char → List Char → TextFault} {s r : List Char}
    (h : charAt c other s = .ok r) (y : List Char) (hc : isBlank c = false) :
    charAt c other (s ++ y) = .ok (r ++ y) := by
  obtain ⟨b, hb, rfl⟩ := (charAt_eq_ok_iff hc).mp h
  exact (charAt_eq_ok_iff hc).mpr ⟨b, hb, by simp⟩

theorem nullAt_append {s r : List Char} (h : nullAt s = .ok r) (y : List Char) :
    nullAt (s ++ y) = .ok (r ++ y) := by
  obtain ⟨b, hb, rfl⟩ := nullAt_eq_ok_iff.mp h
  exact nullAt_eq_ok_iff.mpr ⟨b, hb, by simp⟩

theorem tokenAt_append {s r : List Char} {t : Tab} (h : tokenAt s = .ok (t, r)) (y : List Char) :
    tokenAt (s ++ y) = .ok (t, r ++ y) := by
  obtain ⟨w, hw, rfl⟩ := tokenAt_eq_ok_iff.mp h
  exact tokenAt_eq_ok_iff.mpr ⟨w, hw, by simp⟩

theorem Reads.append {t : Tab} {s r : List Char} (h : Reads t s r) (y : List Char) :
    Reads t (s ++ y) (r ++ y) := by
  cases h with
  | token hskip htoken =>
    exact .token (skipBlanks_append_of_cons hskip y) (tokenAt_append htoken y)
  | entry hskip hquote htoken hcolon hnull hclose =>
    exact .entry (skipBlanks_append_of_cons hskip y) (charAt_append hquote y (by decide))
      (tokenAt_append htoken y) (charAt_append hcolon y (by decide)) (nullAt_append hnull y)
      (charAt_append hclose y (by decide))

theorem blanks_append {b b' : List Char} (h : Blanks b) : Blanks (b ++ b') ↔ Blanks b' := by
  simp only [Blanks, List.forall_mem_append]
  exact and_iff_right h

/-- If a tab is read off a text, then each front part of the text is read as the same tab or found to be
cut short; and the text is read as that tab when blanks follow it, and is malformed when anything else
does. -/
theorem ofJsonText_of_cut_or_continued {x : String} {t : Tab} (h : ofJsonText x = .ok t) :
    (∀ p rest : String, p ++ rest = x → ofJsonText p = .ok t ∨ ofJsonText p = .error .cutShort) ∧
    ∀ y : String, ((∀ c ∈ y.toList, c ∈ [' ', '\t', '\n', '\r']) → ofJsonText (x ++ y) = .ok t) ∧
      ((∃ c ∈ y.toList, c ∉ [' ', '\t', '\n', '\r']) →
        ofJsonText (x ++ y) = .error .malformed) := by
  obtain ⟨r, hreads, hr⟩ := exists_reads h
  refine ⟨fun p rest hx => ?_, fun y => ?_⟩
  · have hp : p.toList <+: x.toList := ⟨rest.toList, by rw [← hx, String.toList_append]⟩
    rcases (hreads.ofJsonText_of_front hr hp).cases with hcut | ⟨t', ht', rfl⟩
    · exact .inr hcut
    · exact .inl ht'
  · have hgoes := hreads.append y.toList
    rw [← String.toList_append] at hgoes
    rw [hgoes.ofJsonText_eq]
    refine ⟨fun hy => ?_, fun hy => ?_⟩
    · exact finish_eq_ok_iff.mpr ⟨rfl, (blanks_append hr).mpr hy⟩
    · obtain ⟨c, hc, hnot⟩ := hy
      exact finish_of_not_blanks t fun hall => hnot ((blanks_append hr).mp hall c hc)

/-- The text is cut off in a code unit, in the null, and before the brace. -/
theorem ofJsonText_of_cut_or_continued_entry :
    let x := "\x7b\"\\u0064evices\" : null\x7d"
    ofJsonText x = .ok devices ∧
    (∀ p ∈ ["\x7b\"\\u006", "\x7b\"\\u0064evices\" : nul", "\x7b\"\\u0064evices\" : null"],
      ofJsonText p = .ok devices ∨ ofJsonText p = .error .cutShort) ∧
    ofJsonText (x ++ "\n") = .ok devices ∧ ofJsonText (x ++ " \x7d") = .error .malformed := by
  intro x
  have h : ofJsonText x = .ok devices := by decide +kernel
  obtain ⟨hcut, hgoes⟩ := ofJsonText_of_cut_or_continued h
  refine ⟨h, fun p hp => ?_, (hgoes "\n").1 (by simp), (hgoes " \x7d").2 (by simp)⟩
  simp only [List.mem_cons, List.not_mem_nil, or_false] at hp
  rcases hp with rfl | rfl | rfl
  · exact hcut _ "4evices\" : null\x7d" (by decide +kernel)
  · exact hcut _ "l\x7d" (by decide +kernel)
  · exact hcut _ "\x7d" (by decide +kernel)

end HashTabs.Tab
