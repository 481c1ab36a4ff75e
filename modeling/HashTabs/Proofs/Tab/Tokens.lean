import HashTabs.Json.Printer
import HashTabs.Tab.Json
import HashTabs.Proofs.Tab.Fragment
import HashTabs.Proofs.Tab.JsonText

/-! Tabs are read in four places: bare, as JSON values, in JSON texts and in fragments. Bare texts and
fragments have words of their own, and in JSON it is the names of the tabs in small letters; but all
know the same tokens, and these are the tokens with which tabs are written. -/

namespace HashTabs.Tab

open Json (IsString)

theorem ofToken?_eq_none_iff {s : String} : ofToken? s = none ↔ ∀ t : Tab, s ≠ t.token := by
  rw [Option.eq_none_iff_forall_ne_some]
  exact forall_congr' fun t => not_congr ofToken?_eq_some_iff

/-- The names in JSON are the tokens of the strict reading. -/
theorem ofJsonName?_eq_ofToken? (s : String) : ofJsonName? s = ofToken? s :=
  Option.ext fun _ => ofJsonName?_eq_some_iff.trans ofToken?_eq_some_iff.symm

theorem ofJson_string_eq_ok_iff {s : String} {t : Tab} :
    ofJson (.string s) = .ok t ↔ s = t.token := by
  rw [ofJson_string, ← ofJsonName?_eq_some_iff]
  cases ofJsonName? s <;> simp

/-- Whatever the spelling of a string, its text is judged as a bare one is. -/
theorem ofJsonText_of_isString {s : String} {w : List Char} (h : IsString s w) :
    ofJsonText (String.ofList w) = (ofJsonName? s).elim (.error .noTab) .ok := by
  obtain ⟨v, hv, rfl⟩ := h
  have hquote : Json.skipBlanks (String.ofList ('"' :: v ++ ['"'])).toList =
      '"' :: (v ++ ['"']) := by
    rw [String.toList_ofList]
    exact Json.skipBlanks_cons (by decide) _
  -- The spelling is read up to its closing quotes, and those end the text.
  have hbody : Json.stringBody (v ++ ['"']) = .ok (s.toList, []) :=
    Json.stringBody_of_spells hv []
  simp only [ofJsonText, hquote, if_true, tokenAt, hbody, String.ofList_toList]
  cases ofJsonName? s with
  | none => rfl
  | some t => rfl

theorem ofJsonText_eq_ok_iff_of_isString {s : String} {w : List Char} (h : IsString s w)
    (t : Tab) : ofJsonText (String.ofList w) = .ok t ↔ s = t.token := by
  rw [ofJsonText_of_isString h, ← ofJsonName?_eq_some_iff]
  cases ofJsonName? s <;> simp

theorem toJson_eq_string_iff {s : String} {t : Tab} : t.toJson = .string s ↔ s = t.token := by
  rw [toJson, Json.Value.string.injEq, jsonName_eq_token, eq_comm]

theorem write_toJson (t : Tab) : Json.write t.toJson = "\"" ++ t.token ++ "\"" := by
  cases t <;> decide +kernel

/-- A text is a tab just if it is the token of that tab, whether it stands bare or as a JSON string,
in any spelling; the tab is written as that string, and every other text is refused. A fragment leads
to the tab of which the name in it is the token, or else to the first tab; and the fragment of a tab
leads to that tab. -/
theorem readings_agree_on_tokens :
    (∀ (s : String) (t : Tab),
      (ofToken? s = some t ↔ s = t.token) ∧
      (ofJson (.string s) = .ok t ↔ s = t.token) ∧
      (t.toJson = .string s ↔ s = t.token) ∧
      ∀ w, IsString s w → (ofJsonText (String.ofList w) = .ok t ↔ s = t.token)) ∧
    (∀ s : String, (∀ t : Tab, s ≠ t.token) →
      ofToken? s = none ∧ ofJson (.string s) = .error (.unknownToken s) ∧
      ∀ w, IsString s w → ofJsonText (String.ofList w) = .error .noTab) ∧
    (∀ raw : String, (∃! name, NameIn name raw.toList) ∧
      ∀ name, NameIn name raw.toList →
        ofFragment raw = (ofToken? (String.ofList name)).getD connect) ∧
    ∀ t : Tab, Json.write t.toJson = "\"" ++ t.token ++ "\"" ∧ ofFragment t.fragment = t := by
  refine ⟨fun s t => ?_, fun s hs => ?_, fun raw => ?_, fun t => ?_⟩
  · exact ⟨ofToken?_eq_some_iff, ofJson_string_eq_ok_iff, toJson_eq_string_iff,
      fun w hw => ofJsonText_eq_ok_iff_of_isString hw t⟩
  · have hnone : ofToken? s = none := ofToken?_eq_none_iff.mpr hs
    refine ⟨hnone, ?_, fun w hw => ?_⟩
    · rw [ofJson_string, ofJsonName?_eq_ofToken?, hnone]
      rfl
    · rw [ofJsonText_of_isString hw, ofJsonName?_eq_ofToken?, hnone]
      rfl
  · exact ⟨existsUnique_nameIn raw.toList, fun name hname => ofFragment_of_nameIn hname⟩
  · exact ⟨write_toJson t, ofFragment_fragment t⟩

end HashTabs.Tab
