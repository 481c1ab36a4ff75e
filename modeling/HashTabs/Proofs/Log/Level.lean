import HashTabs.Log.Level

/-! The texts that pick a level: five names, in any case of their ASCII letters. A text picks one level
at most. -/

namespace HashTabs.Log.Level

/-- The names of the levels in small letters. -/
def smallNames : List String := ["error", "warn", "info", "debug", "trace"]

/-- Holds of the texts that are the name of a level but for the case of ASCII letters. -/
def Names (s : String) : Prop := s.toList.map Char.toLower ∈ smallNames.map String.toList

instance (s : String) : Decidable (Names s) := inferInstanceAs (Decidable (_ ∈ _))

theorem sameLetters_iff {a b : String} :
    sameLetters a b = true ↔ a.toList.map Char.toLower = b.toList.map Char.toLower :=
  decide_eq_true_iff

theorem ofName?_eq_some_iff {s : String} {l : Level} :
    ofName? s = some l ↔ sameLetters l.name s = true := by
  constructor
  · exact sameLetters_of_ofName?
  · intro h
    -- The text is judged as the name is, and no two names have the same letters.
    have hletters : l.name.toList.map Char.toLower = s.toList.map Char.toLower :=
      sameLetters_iff.mp h
    have hsame : ∀ l' : Level, sameLetters l'.name s = sameLetters l'.name l.name := by
      intro l'
      rw [sameLetters, sameLetters, hletters]
    unfold ofName?
    simp only [hsame]
    cases l <;> decide +kernel

theorem names_iff {s : String} : Names s ↔ ∃ l : Level, ofName? s = some l := by
  have hnames : smallNames.map String.toList =
      all.map fun l => l.name.toList.map Char.toLower := by decide +kernel
  simp only [ofName?_eq_some_iff, sameLetters_iff, Names, hnames, List.mem_map]
  constructor
  · rintro ⟨l, -, hl⟩
    exact ⟨l, hl⟩
  · rintro ⟨l, hl⟩
    exact ⟨l, by cases l <;> decide, hl⟩

theorem admits_info_iff (threshold : Level) :
    threshold.admits .info = true ↔ threshold ∈ [info, debug, trace] := by
  cases threshold <;> decide

end HashTabs.Log.Level
