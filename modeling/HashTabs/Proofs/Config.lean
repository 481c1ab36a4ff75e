import HashTabs.Config
import HashTabs.Proofs.Text.Blank
import HashTabs.Proofs.Query.Refused

/-! The configuration that a query of plain parameters asks for. -/

namespace HashTabs.Config

open Query Text.Percent

theorem ofQuery_of_error {query : String} {f : Query.Fault}
    (h : Query.Overrides.ofQuery (query.toList.dropWhile (· == '?')) = .error f) :
    ofQuery query =
      ⟨{}, [.malformedQuery (String.ofList (query.toList.dropWhile (· == '?'))) f]⟩ := by
  simp only [ofQuery, h]

theorem ofQuery_of_ok {query : String} {o : Query.Overrides}
    (h : Query.Overrides.ofQuery (query.toList.dropWhile (· == '?')) = .ok o) :
    ofQuery query = ⟨apply {} o, []⟩ := by
  simp only [ofQuery, h]

/-- A title that is given as a value counts if it has a character that is not white space. -/
theorem appTitle_apply (title level : Option String) :
    (apply {} ⟨Overrides.updated none (title.map .text), level⟩).appTitle =
      (title.filter fun t => t.toList.any (!Text.isBlank ·)).getD "Home Lab" := by
  cases title with
  | none => rfl
  | some t =>
    rw [Option.map_some, Overrides.updated]
    by_cases hempty : t = ""
    · subst hempty
      rfl
    · have hblank : Text.allBlank t = !t.toList.any (!Text.isBlank ·) := by
        rw [Text.allBlank, List.all_eq_not_any_not]
      rw [if_neg hempty, Option.filter_some]
      change (if Text.allBlank t then _ else t) = _
      rw [hblank]
      cases t.toList.any (!Text.isBlank ·) <;> rfl

theorem logLevel_apply (title : Option String) {level : Option String} (h : level ≠ some "") :
    (apply {} ⟨title, Overrides.updated none (level.map .text)⟩).logLevel =
      level.getD "info" := by
  cases level with
  | none => rfl
  | some l =>
    have hempty : l ≠ "" := fun hl => h (congrArg some hl)
    rw [Option.map_some, Overrides.updated, if_neg hempty]
    rfl

theorem dropWhile_marks (marks : Nat) (s : List Char) :
    (List.replicate marks '?' ++ s).dropWhile (· == '?') = s.dropWhile (· == '?') := by
  apply List.dropWhile_append_of_pos
  intro c hc
  rw [List.eq_of_mem_replicate hc]
  rfl

theorem dropWhile_query (marks : Nat) (ps : List Parameter) :
    (Parameter.query marks ps).toList.dropWhile (· == '?') = Parameter.joined ps := by
  rw [Parameter.query, String.toList_ofList, dropWhile_marks]
  -- The first key ends the question marks, since it is not empty and has none.
  cases hj : Parameter.joined ps with
  | nil => rfl
  | cons c r =>
    apply List.dropWhile_cons_of_neg
    intro h
    have hc := Parameter.isKeyChar_of_joined hj
    rw [eq_of_beq h] at hc
    exact absurd hc (by decide)

/-- However its values are spelled, and whatever stands beside them, a query sets the title and the
log level to the values that it gives them, and nothing is logged. A title counts only if it has a
character that is not white space. -/
theorem ofQuery_reads_values (marks : Nat) (ps : List Parameter)
    (hkeys : (ps.map Parameter.key).Nodup)
    (hlevel : ∀ p ∈ ps, p.key = "log_level" → p.value ≠ "") :
    ofQuery (Parameter.query marks ps) =
      ⟨{ appTitle := ((Parameter.valueOf? "app_title" ps).filter fun t =>
            t.toList.any (!Text.isBlank ·)).getD "Home Lab"
         logLevel := (Parameter.valueOf? "log_level" ps).getD "info" }, []⟩ := by
  have hgiven : Parameter.valueOf? "log_level" ps ≠ some "" := by
    intro h
    obtain ⟨p, hp, hk, hv⟩ := Parameter.exists_of_valueOf? h
    exact hlevel p hp hk hv
  rw [ofQuery, dropWhile_query]
  simp only [Overrides.ofQuery_joined hkeys]
  rw [← appTitle_apply, ← logLevel_apply _ hgiven]

theorem ofQuery_reads_mixed_spelling :
    ofQuery "??tag=x&log_level=debug&app_title=Z%c3%A9+1" =
      ⟨{ appTitle := "Zé 1", logLevel := "debug" }, []⟩ := by
  let tag : Parameter :=
    ⟨"tag", "x", "x".toList, by decide, by simp [IsKeyChar], Spells.self (by simp [IsUnreserved])⟩
  let level : Parameter :=
    ⟨"log_level", "debug", "debug".toList, by decide, by simp [IsKeyChar],
      Spells.self (by simp [IsUnreserved])⟩
  -- The two bytes of the second character are written in digits of different cases.
  let title : Parameter :=
    ⟨"app_title", "Zé 1", "Z%c3%A9+1".toList, by decide, by simp [IsKeyChar],
      .cons (.literal (c := 'Z') (by decide)) <|
      .cons (.escaped (.inr rfl) (.inl rfl)) <|
      .cons (.escaped (.inl rfl) (.inl rfl)) <|
      .cons .space <|
      .cons (.literal (c := '1') (by decide)) .nil⟩
  have hquery : Parameter.query 2 [tag, level, title] =
      "??tag=x&log_level=debug&app_title=Z%c3%A9+1" := by decide +kernel
  have h := ofQuery_reads_values 2 [tag, level, title] (by decide) (by decide)
  rw [hquery] at h
  exact h.trans (congrArg (Log.Logged.mk · []) (by decide +kernel))

/-! ## Parameters that nobody asks for -/

theorem ofQuery_of_nodup (marks : Nat) {ps : List Parameter}
    (h : (ps.map Parameter.key).Nodup) :
    ofQuery (Parameter.query marks ps) =
      ⟨apply {} ⟨Overrides.updated none ((Parameter.valueOf? "app_title" ps).map .text),
        Overrides.updated none ((Parameter.valueOf? "log_level" ps).map .text)⟩, []⟩ := by
  rw [ofQuery, dropWhile_query]
  simp only [Overrides.ofQuery_joined h]

theorem ofQuery_of_repeated (marks : Nat) {ps : List Parameter}
    (h : ¬(ps.map Parameter.key).Nodup) :
    ∃ k, 1 < (ps.map Parameter.key).count k ∧ ofQuery (Parameter.query marks ps) =
      ⟨{}, [.malformedQuery (String.ofList (Parameter.joined ps)) (.clash (.repeatedName k))]⟩ := by
  obtain ⟨k, hk, herror⟩ := Overrides.ofQuery_joined_of_repeated h
  refine ⟨k, hk, ?_⟩
  rw [ofQuery, dropWhile_query]
  simp only [herror]

/-- Parameters that nobody asks for make no difference if no key among them is repeated, and only
then: one that is repeated takes every override away, and leaves a record. -/
theorem ofQuery_ignores_others_iff (marks marks' : Nat) (ps : List Parameter)
    (htitle : (ps.map Parameter.key).count "app_title" ≤ 1)
    (hlevel : (ps.map Parameter.key).count "log_level" ≤ 1) :
    (ofQuery (Parameter.query marks ps) =
        ofQuery (Parameter.query marks' (ps.filter Parameter.isAsked)) ↔
      (ps.map Parameter.key).Nodup) ∧
    (ofQuery (Parameter.query marks' (ps.filter Parameter.isAsked))).events = [] ∧
    (¬(ps.map Parameter.key).Nodup →
      ∃ k, 1 < (ps.map Parameter.key).count k ∧ ofQuery (Parameter.query marks ps) =
        ⟨{}, [.malformedQuery (String.ofList (Parameter.joined ps))
          (.clash (.repeatedName k))]⟩) := by
  have hasked : ∀ k ∈ Parameter.askedNames, (ps.map Parameter.key).count k ≤ 1 := by
    simpa [Parameter.askedNames] using ⟨htitle, hlevel⟩
  have hfilter := ofQuery_of_nodup marks' (Parameter.nodup_filter_isAsked hasked)
  refine ⟨⟨fun heq => ?_, fun hnodup => ?_⟩, by rw [hfilter], ofQuery_of_repeated marks⟩
  · -- A repeated key leaves a record, and there is none without the other parameters.
    by_contra hrepeated
    obtain ⟨k, -, hk⟩ := ofQuery_of_repeated marks hrepeated
    rw [hk, hfilter] at heq
    cases congrArg Log.Logged.events heq
  · -- Without repeated keys, the overrides are the values under the names that are asked for.
    rw [hfilter, ofQuery_of_nodup marks hnodup]
    simp only [Parameter.valueOf?, Parameter.valuesOf_filter_isAsked (k := "app_title") (by decide),
      Parameter.valuesOf_filter_isAsked (k := "log_level") (by decide)]

theorem ofQuery_ignores_tag_and_page :
    ofQuery "?tag=a&log_level=debug&page=2" = ofQuery "log_level=debug" := by
  let ps := [Parameter.plain "tag" "a" (by simp [IsKeyChar, IsUnreserved]),
    .plain "log_level" "debug" (by simp [IsKeyChar, IsUnreserved]),
    .plain "page" "2" (by simp [IsKeyChar, IsUnreserved])]
  have hwhole : Parameter.query 1 ps = "?tag=a&log_level=debug&page=2" := by decide +kernel
  have hasked : Parameter.query 0 (ps.filter Parameter.isAsked) = "log_level=debug" := by
    decide +kernel
  have h := (ofQuery_ignores_others_iff 1 0 ps (by decide) (by decide)).1
  rw [hwhole, hasked] at h
  exact h.mpr (by decide)

/-- A list of tags takes the log level of the same query away. -/
theorem repeated_tag_discards_level :
    (ofQuery "log_level=debug").value = { logLevel := "debug" } ∧
    (ofQuery "log_level=debug").events.length = 0 ∧
    (ofQuery "tag=a&tag=b&log_level=debug").value = {} ∧
    (ofQuery "tag=a&tag=b&log_level=debug").events.map Log.Event.message =
      ["ignoring malformed config query 'tag=a&tag=b&log_level=debug': " ++
        "Multiple values for one key: \"tag\""] := by
  decide +kernel

/-! ## Queries that are refused -/

/-- Holds of what a query comes to that is refused: the defaults, and one record, which is a warning. -/
def IsRefusal (r : Log.Logged Config) : Prop :=
  r.value = {} ∧ ∃ e, r.events = [e] ∧ e.level = .warn

theorem isRefusal_of_error {query : String} {f : Query.Fault}
    (h : Overrides.ofQuery (query.toList.dropWhile (· == '?')) = .error f) :
    IsRefusal (ofQuery query) := by
  rw [ofQuery_of_error h]
  exact ⟨rfl, _, rfl, rfl⟩

theorem exists_not_whiteSpace {t : String} (h : Text.allBlank t = false) :
    ∃ c ∈ t.toList, c ∉ Text.whiteSpace := by
  rw [Text.allBlank, List.all_eq_false] at h
  obtain ⟨c, hc, hblank⟩ := h
  exact ⟨c, hc, mt Text.isBlank_iff_mem.mpr hblank⟩

/-- Overrides do not make a title blank that was not. -/
theorem allBlank_appTitle_apply {c : Config} (h : Text.allBlank c.appTitle = false)
    (o : Query.Overrides) : Text.allBlank (c.apply o).appTitle = false := by
  rw [apply]
  cases o.appTitle with
  | none => exact h
  | some t =>
    change Text.allBlank (if Text.allBlank t then c.appTitle else t) = false
    cases ht : Text.allBlank t with
    | true => exact h
    | false => exact ht

theorem allBlank_appTitle_ofQuery (query : String) :
    Text.allBlank (ofQuery query).value.appTitle = false := by
  have hdefault : Text.allBlank ({} : Config).appTitle = false := by decide +kernel
  cases h : Overrides.ofQuery (query.toList.dropWhile (· == '?')) with
  | error f =>
    rw [ofQuery_of_error h]
    exact hdefault
  | ok o =>
    rw [ofQuery_of_ok h]
    exact allBlank_appTitle_apply hdefault o

theorem appTitle_ofQuery_ne (query : String) : (ofQuery query).value.appTitle ≠ "" := by
  intro hempty
  have hblank := allBlank_appTitle_ofQuery query
  rw [hempty] at hblank
  cases hblank

theorem logLevel_ofQuery_ne (query : String) : (ofQuery query).value.logLevel ≠ "" := by
  have hdefault : ({} : Config).logLevel ≠ "" := by decide
  cases h : Overrides.ofQuery (query.toList.dropWhile (· == '?')) with
  | error f =>
    rw [ofQuery_of_error h]
    exact hdefault
  | ok o =>
    have hfilled := Overrides.filled_ofQuery h
    rw [ofQuery_of_ok h, apply]
    cases hlevel : o.logLevel with
    | none => exact hdefault
    | some l =>
      rintro rfl
      exact hfilled.logLevel hlevel

/-- Overrides come all or none: a query that gives a name that is asked for more than once, or with a
value that is no text, is refused, wherever in it that happens. Any query at all is refused or leaves
no record. The title has a character that is not white space, and question marks in front of the query
make no difference. -/
theorem ofQuery_all_or_nothing (query : String) :
    (∀ ps : List Written, query.toList.dropWhile (· == '?') = Written.joined ps →
      (∃ k ∈ Parameter.askedNames, 1 < ps.countP (·.isNamed k) ∨
        ∃ p ∈ ps, p.isNamed k ∧ ¬IsText p.value) →
      IsRefusal (ofQuery query)) ∧
    ((ofQuery query).events = [] ∨ IsRefusal (ofQuery query)) ∧
    (∃ c ∈ (ofQuery query).value.appTitle.toList, c ∉ Text.whiteSpace) ∧
    ∀ marks, ofQuery (String.ofList (List.replicate marks '?') ++ query) = ofQuery query := by
  refine ⟨fun ps hps hbad => ?_, ?_, ?_, fun marks => ?_⟩
  · obtain ⟨f, hf⟩ := (Overrides.ofQuery_joined_refused_iff ps).mpr <| by
      obtain ⟨k, -, hrepeated | ⟨p, hp, -, hvalue⟩⟩ := hbad
      · exact .inr ⟨k, hrepeated⟩
      · exact .inl ⟨p, hp, fun h => hvalue h.2⟩
    exact isRefusal_of_error (hps ▸ hf)
  · cases h : Overrides.ofQuery (query.toList.dropWhile (· == '?')) with
    | error f => exact .inr (isRefusal_of_error h)
    | ok o =>
      rw [ofQuery_of_ok h]
      exact .inl rfl
  · exact exists_not_whiteSpace (allBlank_appTitle_ofQuery query)
  · rw [ofQuery, ofQuery, String.toList_append, String.toList_ofList, dropWhile_marks]

/-- An escaped byte that begins no text, or a title given twice, takes the log level beside it away. -/
theorem ofQuery_all_or_nothing_beside_level :
    IsRefusal (ofQuery "?log_level=debug&app_title=%FF&x=1") ∧
      IsRefusal (ofQuery "app_title=A&log_level=debug&app%5Ftitle=B") := by
  let level : Written :=
    ⟨"log_level".toList, "debug".toList, by decide, by simp, by simp⟩
  let title : Written :=
    ⟨"app_title".toList, "A".toList, by decide, by simp, by simp⟩
  let again : Written :=
    ⟨"app%5Ftitle".toList, "B".toList, by decide, by simp, by simp⟩
  let broken : Written :=
    ⟨"app_title".toList, "%FF".toList, by decide, by simp, by simp⟩
  let other : Written :=
    ⟨"x".toList, "1".toList, by decide, by simp, by simp⟩
  have hno : broken.isNamed "app_title" ∧ ¬IsText broken.value := by decide +kernel
  have htwice : 1 < [title, level, again].countP (·.isNamed "app_title") := by decide +kernel
  refine ⟨?_, ?_⟩
  · refine (ofQuery_all_or_nothing _).1 [level, broken, other] (by decide +kernel) ?_
    exact ⟨"app_title", by decide, .inr ⟨broken, by simp, hno⟩⟩
  · refine (ofQuery_all_or_nothing _).1 [title, level, again] (by decide +kernel) ?_
    exact ⟨"app_title", by decide, .inl htwice⟩

end HashTabs.Config
