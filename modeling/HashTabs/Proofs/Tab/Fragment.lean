import HashTabs.Tab
import HashTabs.Proofs.Text.Blank

/-! The name in a fragment: what is left of it without one number sign in front and without the blanks
around the rest. The name decides to which tab the fragment leads: a fragment leads away from the first
tab just if it spells another tab's token. -/

namespace HashTabs.Tab

open Text (Blanks Trimmed blanks_iff trim)

/-- The fragments in which a name stands. -/
inductive NameIn (name : List Char) : List Char → Prop
  | signed {w w' : List Char} : Blanks w → Blanks w' → Trimmed name →
    NameIn name ('#' :: (w ++ name ++ w'))
  | bare {w w' : List Char} : Blanks w → Blanks w' → Trimmed name →
    (w ++ name ++ w').head? ≠ some '#' → NameIn name (w ++ name ++ w')

theorem stripHash_of_head?_ne {s : List Char} (h : s.head? ≠ some '#') : stripHash s = s := by
  unfold stripHash
  split
  · exact absurd rfl h
  · rfl

theorem nameIn_iff {name raw : List Char} : NameIn name raw ↔ trim (stripHash raw) = name := by
  constructor
  · intro h
    cases h with
    | signed hw hw' hname => exact Text.trim_append hw hname hw'
    | bare hw hw' hname hsign =>
      rw [stripHash_of_head?_ne hsign]
      exact Text.trim_append hw hname hw'
  · intro h
    obtain ⟨hname, w, w', hw, hw', hcut⟩ := Text.trim_eq_iff.mp h
    by_cases hsign : raw.head? = some '#'
    · have hraw : raw = '#' :: stripHash raw := by
        obtain ⟨rest, rfl⟩ := List.head?_eq_some_iff.mp hsign
        rfl
      rw [hraw, hcut]
      exact .signed hw hw' hname
    · rw [stripHash_of_head?_ne hsign] at hcut
      rw [hcut]
      exact .bare hw hw' hname (hcut ▸ hsign)

/-- Every fragment has a name in it, and no more than one. -/
theorem existsUnique_nameIn (raw : List Char) : ∃! name, NameIn name raw :=
  ⟨_, nameIn_iff.mpr rfl, fun _ h => (nameIn_iff.mp h).symm⟩

theorem eq_token_iff {name : List Char} {t : Tab} :
    name = t.token.toList ↔ ofToken? (String.ofList name) = some t := by
  rw [ofToken?_eq_some_iff, ← String.toList_inj, String.toList_ofList]

/-- To read a fragment is to read its name in the strict manner, where a name that is no token leads to
the first tab. -/
theorem ofFragment_of_nameIn {name : List Char} {raw : String} (h : NameIn name raw.toList) :
    ofFragment raw = (ofToken? (String.ofList name)).getD connect := by
  have hname : trim (stripHash raw.toList) = name := nameIn_iff.mp h
  unfold ofFragment ofToken?
  rw [hname]
  generalize String.ofList name = s
  split
  · rfl
  · rfl
  · -- The token of the first tab is the one that the lenient reading does not ask for.
    rename_i hdevices hsettings
    split
    · rfl
    · exact absurd rfl hdevices
    · exact absurd rfl hsettings
    · rfl

theorem ofFragment_fragment (t : Tab) : ofFragment t.fragment = t := by
  cases t <;> decide +kernel

/-! ## The spellings of a token -/

/-- The fragments that spell the token of a tab: after a number sign or none, the token stands between
two runs of white space, each of which may be empty. -/
inductive SpelledBy (t : Tab) : List Char → Prop
  | mk {sign w w' : List Char} : sign = [] ∨ sign = ['#'] → (∀ c ∈ w, c ∈ Text.whiteSpace) →
    (∀ c ∈ w', c ∈ Text.whiteSpace) → SpelledBy t (sign ++ w ++ t.token.toList ++ w')

theorem isLower_of_mem_token {t : Tab} {c : Char} (hc : c ∈ t.token.toList) : c.isLower := by
  have hall : t.token.toList.all Char.isLower = true := by cases t <;> decide +kernel
  exact List.all_eq_true.mp hall c hc

theorem trimmed_token (t : Tab) : Trimmed t.token.toList := by
  have hblank : ∀ c ∈ t.token.toList, Text.isBlank c = false := fun c hc =>
    Text.isBlank_of_isLower (isLower_of_mem_token hc)
  exact ⟨fun c hc => hblank c (List.mem_of_head? hc), fun c hc => hblank c (List.mem_of_getLast? hc)⟩

theorem head?_token_ne {t : Tab} {w : List Char} (hw : Blanks w) (w' : List Char) :
    (w ++ t.token.toList ++ w').head? ≠ some '#' := by
  cases w with
  | nil => cases t <;> exact fun h => absurd (Option.some.inj h) (by decide)
  | cons c w =>
    intro h
    obtain rfl : c = '#' := Option.some.inj h
    exact absurd (hw '#' List.mem_cons_self) (by decide)

theorem spelledBy_iff {t : Tab} {raw : List Char} :
    SpelledBy t raw ↔ NameIn t.token.toList raw := by
  constructor
  · rintro ⟨hsign, hw, hw'⟩
    rw [← blanks_iff] at hw hw'
    rcases hsign with rfl | rfl
    · exact .bare hw hw' (trimmed_token t) (head?_token_ne hw _)
    · exact .signed hw hw' (trimmed_token t)
  · intro h
    cases h with
    | signed hw hw' _ => exact .mk (.inr rfl) (blanks_iff.mp hw) (blanks_iff.mp hw')
    | bare hw hw' _ _ => exact .mk (.inl rfl) (blanks_iff.mp hw) (blanks_iff.mp hw')

theorem ofFragment_eq_iff {raw : String} {t : Tab} (ht : t ≠ connect) :
    ofFragment raw = t ↔ SpelledBy t raw.toList := by
  rw [spelledBy_iff, nameIn_iff, ofFragment_of_nameIn (nameIn_iff.mpr rfl), eq_token_iff]
  cases ofToken? (String.ofList (trim (stripHash raw.toList))) with
  | none => exact iff_of_false (Ne.symm ht) nofun
  | some t' => rw [Option.getD_some, Option.some.injEq]

/-- A fragment that leads away from the first tab has a number sign in front or none, and no other
characters but white space and small letters. -/
theorem chars_of_ofFragment_ne {raw : String} (h : ofFragment raw ≠ connect) :
    ∃ sign rest, raw.toList = sign ++ rest ∧ (sign = [] ∨ sign = ['#']) ∧
      ∀ c ∈ rest, c ∈ Text.whiteSpace ∨ c.isLower := by
  have hspelled : SpelledBy (ofFragment raw) raw.toList := (ofFragment_eq_iff h).mp rfl
  generalize raw.toList = s at hspelled
  obtain ⟨hsign, hw, hw'⟩ := hspelled
  refine ⟨_, _, by rw [List.append_assoc, List.append_assoc], hsign, fun c hc => ?_⟩
  simp only [List.mem_append] at hc
  rcases hc with hc | hc | hc
  · exact .inl (hw c hc)
  · exact .inr (isLower_of_mem_token hc)
  · exact .inl (hw' c hc)

/-- A fragment leads to devices or to settings just if it spells that tab's token, and to the first tab
if it spells neither. So it leads to the first tab if it has a number sign anywhere but in front, or a
character that is no number sign, no white space and no small letter. -/
theorem ofFragment_decides_spellings (raw : String) :
    (ofFragment raw = devices ↔ SpelledBy devices raw.toList) ∧
    (ofFragment raw = settings ↔ SpelledBy settings raw.toList) ∧
    (ofFragment raw = connect ↔
      ¬SpelledBy devices raw.toList ∧ ¬SpelledBy settings raw.toList) ∧
    (∀ i, 0 < i → raw.toList[i]? = some '#' → ofFragment raw = connect) ∧
    ∀ c ∈ raw.toList, c ≠ '#' → c ∉ Text.whiteSpace → ¬c.isLower → ofFragment raw = connect := by
  have hplain : ∀ c : Char, c = '#' → ¬(c ∈ Text.whiteSpace ∨ c.isLower) := by
    rintro c rfl
    decide
  have hdevices : ofFragment raw = devices ↔ SpelledBy devices raw.toList :=
    ofFragment_eq_iff (by decide)
  have hsettings : ofFragment raw = settings ↔ SpelledBy settings raw.toList :=
    ofFragment_eq_iff (by decide)
  refine ⟨hdevices, hsettings, ?_, fun i hi hc => ?_, fun c hc hsign hspace hlower => ?_⟩
  · rw [← hdevices, ← hsettings]
    cases ofFragment raw <;> decide
  · -- Behind the sign in front there is no other.
    by_contra h
    obtain ⟨sign, rest, hraw, hsign, hrest⟩ := chars_of_ofFragment_ne h
    rw [hraw, List.getElem?_append_right (by rcases hsign with rfl | rfl <;> simp; omega)] at hc
    exact hplain _ rfl (hrest '#' (List.mem_of_getElem? hc))
  · by_contra h
    obtain ⟨sign, rest, hraw, hfront, hrest⟩ := chars_of_ofFragment_ne h
    rw [hraw, List.mem_append] at hc
    rcases hc with hc | hc
    · rcases hfront with rfl | rfl
      · cases hc
      · exact hsign (List.mem_singleton.mp hc)
    · exact (hrest c hc).elim hspace hlower

end HashTabs.Tab
