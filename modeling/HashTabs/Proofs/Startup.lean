import HashTabs.Startup
import HashTabs.Proofs.Config
import HashTabs.Proofs.Log.Level

/-! What is logged when a page starts. Warnings about the configuration come before the threshold that
it sets, so none of them is lost; and a configuration that gave rise to one sets a threshold that lets
the report of the start through. -/

namespace HashTabs

open Log

namespace Config

theorem level_of_names {c : Config} (h : Level.Names c.logLevel) : c.level.events = [] := by
  obtain ⟨l, hl⟩ := Level.names_iff.mp h
  rw [level, hl]

theorem level_of_not_names {c : Config} (h : ¬Level.Names c.logLevel) :
    c.level = ⟨.info, [.unknownLevel c.logLevel]⟩ := by
  have hnone : Level.ofName? c.logLevel = none := by
    rw [Option.eq_none_iff_forall_ne_some]
    exact fun l hl => h (Level.names_iff.mpr ⟨l, hl⟩)
  rw [level, hnone]

/-- The level in force has the name that was given just if that is the name of a level. -/
theorem sameLetters_level_iff (c : Config) :
    Level.sameLetters c.level.value.name c.logLevel = true ↔ Level.Names c.logLevel := by
  constructor
  · intro h
    exact Level.names_iff.mpr ⟨_, Level.ofName?_eq_some_iff.mpr h⟩
  · intro h
    obtain ⟨l, hl⟩ := Level.names_iff.mp h
    have hlevel : c.level.value = l := by rw [level, hl]
    rw [hlevel]
    exact Level.sameLetters_of_ofName? hl

end Config

namespace Page

/-- The query of a page as it is read: without question marks in front. -/
def query (p : Page) : List Char := (p.search.getD "").toList.dropWhile (· == '?')

theorem start_eq (p : Page) :
    p.start = ⟨p.config.value.level.value, p.config.events ++ p.config.value.level.events ++
      if p.config.value.level.value ∈ [.info, .debug, .trace] then
        [.starting p.config.value.appTitle .connect] else []⟩ := by
  -- Only the report of the start waits for the threshold, and it is an info.
  have hkept : ∀ threshold title, kept threshold [.starting title .connect] =
      if threshold ∈ [.info, .debug, .trace] then [.starting title .connect] else [] := by
    intro threshold title
    rw [kept, List.filter_cons, List.filter_nil]
    exact ite_cond_congr (propext threshold.admits_info_iff)
  rw [← hkept]
  rfl

theorem start_value (query : String) :
    (start { search := some query }).value = (Config.ofQuery query).value.level.value := by
  rw [start_eq, config, Option.getD_some]

theorem start_of_malformed {p : Page} {f : Query.Fault}
    (h : Query.Overrides.ofQuery p.query = .error f) :
    p.start = ⟨.info, [.malformedQuery (String.ofList p.query) f,
      .starting p.config.value.appTitle .connect]⟩ := by
  have hconfig : p.config = ⟨{}, [.malformedQuery (String.ofList p.query) f]⟩ :=
    Config.ofQuery_of_error h
  have hinfo : Level.ofName? "info" = some .info := by decide +kernel
  have hlevel : ({} : Config).level = ⟨.info, []⟩ := by rw [Config.level, hinfo]
  simp [start_eq, hconfig, hlevel]

theorem start_of_unnamed {p : Page} {o : Query.Overrides}
    (h : Query.Overrides.ofQuery p.query = .ok o) (hn : ¬Level.Names p.config.value.logLevel) :
    p.start = ⟨.info, [.unknownLevel p.config.value.logLevel,
      .starting p.config.value.appTitle .connect]⟩ := by
  have hevents : p.config.events = [] := congrArg Logged.events (Config.ofQuery_of_ok h)
  simp [start_eq, hevents, Config.level_of_not_names hn]

theorem start_of_named {p : Page} {o : Query.Overrides}
    (h : Query.Overrides.ofQuery p.query = .ok o) (hn : Level.Names p.config.value.logLevel) :
    p.start.events = if p.start.value ∈ [.info, .debug, .trace] then
      [.starting p.config.value.appTitle .connect] else [] := by
  have hevents : p.config.events = [] := congrArg Logged.events (Config.ofQuery_of_ok h)
  rw [start_eq, hevents, Config.level_of_names hn, List.nil_append, List.nil_append]

/-- A warning is followed by the report of the start, and comes once. -/
theorem eq_warning_of_start {p : Page} {w e : Event} {title : String}
    (h : p.start = ⟨.info, [w, .starting title .connect]⟩) (he : e ∈ p.start.events)
    (hwarn : e.level = .warn) :
    p.start.value = .info ∧ p.start.events = [e, .starting title .connect] := by
  rw [h] at he ⊢
  rcases List.mem_cons.mp he with rfl | he
  · exact ⟨rfl, rfl⟩
  · obtain rfl := List.mem_singleton.mp he
    cases hwarn

end Page

/-- When a page starts, the threshold of its log is the level of the configuration that its query asks
for. First come the warnings: that the query was refused, or else that its log level has no level's
name, up to the case of ASCII letters. They are followed by the report of the start, with the first
tab, just if the threshold is info or more talkative. So after a warning the threshold is info, and
the report follows. A page that knows no query starts as one with an empty query. -/
theorem start_keeps_warnings (p : Page) :
    let config := (Config.ofQuery (p.search.getD "")).value
    let starting := Event.starting config.appTitle .connect
    p.start.value = config.level.value ∧
    (∀ f, Query.Overrides.ofQuery p.query = .error f →
      p.start = ⟨.info, [.malformedQuery (String.ofList p.query) f, starting]⟩) ∧
    (∀ o, Query.Overrides.ofQuery p.query = .ok o →
      p.start.events =
        (if Level.Names config.logLevel then [] else [.unknownLevel config.logLevel]) ++
        if p.start.value ∈ [.info, .debug, .trace] then [starting] else []) ∧
    (∀ e ∈ p.start.events, e.level = .warn →
      p.start.value = .info ∧ p.start.events = [e, starting]) ∧
    (p.search = none → p.start = Page.start { search := some "" }) := by
  intro config starting
  refine ⟨by rw [Page.start_eq]; rfl, fun f hf => Page.start_of_malformed hf,
    fun o ho => ?_, fun e he hwarn => ?_, fun hnone => ?_⟩
  · by_cases hn : Level.Names config.logLevel
    · rw [if_pos hn, List.nil_append]
      exact Page.start_of_named ho hn
    · have hinfo : Level.info ∈ [.info, .debug, .trace] := by decide
      rw [if_neg hn, Page.start_of_unnamed ho hn, if_pos hinfo]
      rfl
  · cases hq : Query.Overrides.ofQuery p.query with
    | error f => exact Page.eq_warning_of_start (Page.start_of_malformed hq) he hwarn
    | ok o =>
      by_cases hn : Level.Names config.logLevel
      · -- Without a warning there is at most the report, which is none.
        rw [Page.start_of_named hq hn] at he
        split at he
        · obtain rfl := List.mem_singleton.mp he
          cases hwarn
        · cases he
      · exact Page.eq_warning_of_start (Page.start_of_unnamed hq hn) he hwarn
  · rw [Page.start, Page.config, hnone]
    rfl

end HashTabs
