import HashTabs.Proofs.Json.Faults
import HashTabs.Proofs.Json.Printed
import HashTabs.Proofs.Tab.Tokens

/-! A JSON value and its text are read as the same tab, or both as none; and the text of a value that
is no tab is never found to be cut short. -/

namespace HashTabs.Tab

open HashTabs.Json (Value OrFault print printMembers quote skipBlanks keyword stringBody)

/-! ## Values -/

theorem ofJson_of_unknown {s : String} (h : ofJsonName? s = none) (v : Value) :
    ofJson (.object [(s, v)]) = .error (.unknownToken s) := by
  simp only [ofJson, h]

theorem ofJson_of_null {s : String} {t : Tab} (h : ofJsonName? s = some t) :
    ofJson (.object [(s, .null)]) = .ok t := by
  simp only [ofJson, h]

theorem ofJson_of_ne_null {s : String} {t : Tab} (h : ofJsonName? s = some t) {v : Value}
    (hv : v ≠ .null) : ofJson (.object [(s, v)]) = .error (.notNull v) := by
  simp only [ofJson, h]

theorem ofJson_eq_ok_iff {v : Value} {t : Tab} :
    ofJson v = .ok t ↔ v = .string t.token ∨ v = .object [(t.token, .null)] := by
  constructor
  · intro h
    match v with
    | .string s => exact .inl (congrArg Value.string (ofJson_string_eq_ok_iff.mp h))
    | .object [(s, v)] =>
      cases hs : ofJsonName? s with
      | none => cases (ofJson_of_unknown hs v).symm.trans h
      | some t' =>
        by_cases hv : v = .null
        · subst hv
          obtain rfl := Except.ok.inj ((ofJson_of_null hs).symm.trans h)
          rw [ofJsonName?_eq_some_iff.mp hs]
          exact .inr rfl
        · cases (ofJson_of_ne_null hs hv).symm.trans h
    | .object [] => cases h
    | .object (_ :: _ :: _) => cases h
    | .null => cases h
    | .bool _ => cases h
    | .int _ => cases h
    | .float _ => cases h
    | .array _ => cases h
  · rintro (rfl | rfl)
    · exact ofJson_string_eq_ok_iff.mpr rfl
    · exact ofJson_of_null (ofJsonName?_eq_some_iff.mpr rfl)

/-! ## Texts -/

/-- Holds of two readings that find the same tab, or both none where the text is whole. -/
inductive Agree : Except JsonFault Tab → Except TextFault Tab → Prop
  | found (t : Tab) : Agree (.ok t) (.ok t)
  | refused {f : JsonFault} {g : TextFault} : g ≠ .cutShort → Agree (.error f) (.error g)

theorem nullAt_of_ne {c : Char} (hblank : Json.isBlank c = false) (h : c ≠ 'n') (s : List Char) :
    nullAt (c :: s) = .error (otherValue c s) := by
  rw [nullAt, Json.skipBlanks_cons hblank]
  exact if_neg h

theorem turnDown_ne_cutShort {α : Type} {P : α → Prop} {x : Except Json.Fault α}
    (h : OrFault .malformed P x) : turnDown x ≠ .cutShort := by
  rcases h.cases with rfl | ⟨a, rfl, -⟩ <;> exact nofun

theorem ne_of_number {c : Char} (hc : c = '-' ∨ c.isDigit) (d : Char)
    (hd : ¬(d = '-' ∨ d.isDigit)) : c ≠ d :=
  fun h => hd (h ▸ hc)

theorem isBlank_of_number {c : Char} (hc : c = '-' ∨ c.isDigit) : Json.isBlank c = false := by
  rw [Bool.eq_false_iff, Ne, Json.isBlank_iff]
  intro h
  simp only [List.mem_cons, List.not_mem_nil, or_false] at h
  rcases h with rfl | rfl | rfl | rfl <;> exact ne_of_number hc _ (by decide) rfl

theorem otherValue_of_number {c : Char} (hc : c = '-' ∨ c.isDigit) (s : List Char) :
    otherValue c s = turnDown (Json.number (c :: s)) := by
  have hne := ne_of_number hc
  have hopen : ¬(c = '[' ∨ c = '{') := not_or.mpr ⟨hne _ (by decide), hne _ (by decide)⟩
  rw [otherValue, if_neg (hne 'n' (by decide)), if_neg (hne 't' (by decide)),
    if_neg (hne 'f' (by decide)), if_neg (hne '"' (by decide)), if_neg hopen, if_pos hc]

theorem nullAt_of_startsNumber {s : List Char} (h : StartsNumber s) (hbrace : '}' ∈ s) :
    ∃ g, g ≠ .cutShort ∧ nullAt s = .error g := by
  obtain ⟨c, r, rfl, hc⟩ := h
  refine ⟨_, turnDown_ne_cutShort (Json.number_of_brace hbrace), ?_⟩
  rw [nullAt_of_ne (isBlank_of_number hc) (ne_of_number hc _ (by decide)), otherValue_of_number hc]

/-- A value other than null is turned down where a null has to stand. -/
theorem nullAt_print {v : Value} (h : v ≠ .null) {r : List Char} (hr : '}' ∈ r) :
    ∃ g, g ≠ .cutShort ∧ nullAt (print v ++ r) = .error g := by
  cases v with
  | null => exact absurd rfl h
  | bool b =>
    refine ⟨.noTab, by decide, ?_⟩
    cases b with
    | true =>
      have hword : keyword ['r', 'u', 'e'] (['r', 'u', 'e'] ++ r) = .ok r :=
        (Json.keyword_eq_ok_iff _ _ _).mpr rfl
      rw [print, List.cons_append, nullAt_of_ne (by decide) (by decide)]
      exact congrArg Except.error (congrArg turnDown hword)
    | false =>
      have hword : keyword ['a', 'l', 's', 'e'] (['a', 'l', 's', 'e'] ++ r) = .ok r :=
        (Json.keyword_eq_ok_iff _ _ _).mpr rfl
      rw [print, List.cons_append, nullAt_of_ne (by decide) (by decide)]
      exact congrArg Except.error (congrArg turnDown hword)
  | int n =>
    rw [print]
    exact nullAt_of_startsNumber ((StartsNumber.toString_int n).append r)
      (List.mem_append_right _ hr)
  | float x =>
    rw [print]
    exact nullAt_of_startsNumber ((StartsNumber.render x).append r) (List.mem_append_right _ hr)
  | string s =>
    obtain ⟨w, hw, hquote⟩ := Json.quote_append s r
    refine ⟨.noTab, by decide, ?_⟩
    rw [print, hquote, nullAt_of_ne (by decide) (by decide)]
    exact congrArg Except.error (congrArg turnDown (Json.stringBody_of_spells hw r))
  | array vs =>
    refine ⟨.noTab, by decide, ?_⟩
    rw [print, List.cons_append, List.cons_append, nullAt_of_ne (by decide) (by decide)]
    rfl
  | object ms =>
    refine ⟨.noTab, by decide, ?_⟩
    rw [print, List.cons_append, List.cons_append, nullAt_of_ne (by decide) (by decide)]
    rfl

theorem nullAt_print_null (r : List Char) : nullAt (print .null ++ r) = .ok r := by
  rw [print]
  exact nullAt_eq_ok_iff.mpr ⟨[], nofun, rfl⟩

/-- A text with a name in it is judged by that name, and by what follows its colon. -/
theorem ofJsonText_entry {k : String} {r : List Char} {text : String}
    (h : text.toList = '{' :: (quote k ++ ':' :: r)) :
    ofJsonText text = (ofJsonName? k).elim (.error .noTab) fun t =>
      nullAt r >>= charAt '}' otherSign >>= finish t := by
  obtain ⟨w, hw, hquote⟩ := Json.quote_append k (':' :: r)
  have hskip : skipBlanks text.toList = '{' :: '"' :: (w ++ '"' :: ':' :: r) := by
    rw [h, hquote]
    exact Json.skipBlanks_cons (by decide) _
  have hopen : charAt '"' otherValue ('"' :: (w ++ '"' :: ':' :: r)) = .ok (w ++ '"' :: ':' :: r) :=
    (charAt_eq_ok_iff (by decide)).mpr ⟨[], nofun, rfl⟩
  have hcolon : charAt ':' otherSign (':' :: r) = .ok r :=
    (charAt_eq_ok_iff (by decide)).mpr ⟨[], nofun, rfl⟩
  have hname : tokenAt (w ++ '"' :: ':' :: r) =
      (ofJsonName? k).elim (.error .noTab) fun t => .ok (t, ':' :: r) := by
    unfold tokenAt
    rw [Json.stringBody_of_spells hw]
    simp only [String.ofList_toList]
    cases ofJsonName? k <;> rfl
  cases hk : ofJsonName? k with
  | none =>
    rw [hk, Option.elim_none] at hname
    simp [ofJsonText, hskip, hopen, hname, bind, Except.bind]
  | some t =>
    rw [hk, Option.elim_some] at hname
    simp only [ofJsonText, hskip, hopen, hname, hcolon, bind, Except.bind, Option.elim_some]
    cases nullAt r <;> rfl

/-- What follows the first value of an object in its text. -/
theorem print_members (k : String) (v : Value) (ms : List (String × Value)) :
    ∃ r, print (.object ((k, v) :: ms)) = '{' :: (quote k ++ ':' :: (print v ++ r)) ∧ '}' ∈ r ∧
      if ms = [] then r = ['}'] else r.head? = some ',' := by
  cases ms with
  | nil => exact ⟨['}'], by simp [print, printMembers], by decide, by simp⟩
  | cons m ms =>
    exact ⟨',' :: printMembers (m :: ms) ++ ['}'], by simp [print, printMembers], by simp, by simp⟩

theorem agree_object (ms : List (String × Value)) :
    Agree (ofJson (.object ms)) (ofJsonText (Json.write (.object ms))) := by
  match ms with
  | [] => exact .refused (by decide)
  | (k, v) :: ms =>
    obtain ⟨r, hprint, hbrace, hnext⟩ := print_members k v ms
    rw [ofJsonText_entry (r := print v ++ r) (by rw [Json.write, hprint, String.toList_ofList])]
    cases hk : ofJsonName? k with
    | none =>
      -- The name is judged first in both readings, or else the number of members.
      cases ms with
      | nil =>
        rw [ofJson_of_unknown hk]
        exact .refused (by decide)
      | cons => exact .refused (by decide)
    | some t =>
      rw [Option.elim_some]
      by_cases hv : v = .null
      · subst hv
        rw [nullAt_print_null]
        cases ms with
        | nil =>
          rw [if_pos rfl] at hnext
          subst hnext
          rw [ofJson_of_null hk]
          exact .found t
        | cons m ms =>
          obtain ⟨r, rfl⟩ := List.head?_eq_some_iff.mp hnext
          exact .refused (show TextFault.malformed ≠ .cutShort by decide)
      · obtain ⟨g, hg, hnull⟩ := nullAt_print hv hbrace
        rw [hnull]
        cases ms with
        | nil =>
          rw [ofJson_of_ne_null hk hv]
          exact .refused hg
        | cons => exact .refused hg

/-- A text that does not start as a tab's text does is malformed. -/
theorem ofJsonText_of_first {c : Char} {s : List Char} {text : String} (h : text.toList = c :: s)
    (hc : Json.isBlank c = false) (hquote : c ≠ '"') (hbrace : c ≠ '{') :
    ofJsonText text = .error .malformed := by
  have hskip : skipBlanks text.toList = c :: s := h ▸ Json.skipBlanks_cons hc s
  simp only [ofJsonText, hskip, if_neg hquote, if_neg hbrace]

theorem ofJsonText_of_startsNumber {s : List Char} (h : StartsNumber s) :
    ofJsonText (String.ofList s) = .error .malformed := by
  obtain ⟨c, r, rfl, hc⟩ := h
  exact ofJsonText_of_first String.toList_ofList (isBlank_of_number hc)
    (ne_of_number hc _ (by decide)) (ne_of_number hc _ (by decide))

/-- A value is read as its text is. -/
theorem agree_write (v : Value) : Agree (ofJson v) (ofJsonText (Json.write v)) := by
  have hmalformed : TextFault.malformed ≠ .cutShort := by decide
  cases v with
  | null => exact .refused (by decide)
  | bool b => cases b <;> exact .refused (by decide)
  | int n =>
    rw [Json.write, print, ofJsonText_of_startsNumber (StartsNumber.toString_int n)]
    exact .refused hmalformed
  | float x =>
    rw [Json.write, print, ofJsonText_of_startsNumber (StartsNumber.render x)]
    exact .refused hmalformed
  | string s =>
    have hstring : Json.IsString s (quote s) :=
      ⟨_, Json.spells_flatMap_escapeChar s.toList, rfl⟩
    rw [Json.write, print, ofJsonText_of_isString hstring, ofJson_string]
    cases ofJsonName? s with
    | none => exact .refused (by decide)
    | some t => exact .found t
  | array vs =>
    have hopen : (Json.write (.array vs)).toList = '[' :: (Json.printElements vs ++ [']']) := by
      rw [Json.write, String.toList_ofList, print, List.cons_append]
    rw [ofJsonText_of_first hopen (by decide) (by decide) (by decide)]
    exact .refused hmalformed
  | object ms => exact agree_object ms

/-- A value stands for a tab just if it is that tab's token as a string, or an object that maps the
token to null and has no other member. The text of the value is read as the same tab then; and if the
value is no tab, its text is turned down, but not because it ends too early. -/
theorem text_of_value_reads_alike (v : Value) :
    (∀ t, ofJson v = .ok t ↔ v = .string t.token ∨ v = .object [(t.token, .null)]) ∧
    (∀ t, ofJsonText (Json.write v) = .ok t ↔ ofJson v = .ok t) ∧
    ∀ f, ofJson v = .error f →
      ofJsonText (Json.write v) = .error .noTab ∨ ofJsonText (Json.write v) = .error .malformed := by
  have hagree := agree_write v
  refine ⟨fun t => ofJson_eq_ok_iff, fun t => ?_, fun f hf => ?_⟩
  · generalize ofJson v = x, ofJsonText (Json.write v) = y at hagree
    cases hagree with
    | found t' => simp
    | refused => simp
  · rw [hf] at hagree
    generalize ofJsonText (Json.write v) = y at hagree
    cases hagree with
    | @refused _ g hg =>
      cases g with
      | cutShort => exact absurd rfl hg
      | malformed => exact .inr rfl
      | noTab => exact .inl rfl

end HashTabs.Tab
