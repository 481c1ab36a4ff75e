import HashTabs.Proofs.Session.Clicks
import HashTabs.Proofs.Session.Shell
import HashTabs.Proofs.Startup

/-! What the settings say of the configuration. Their title is the one that the header and the
document have. Their log level is the text that was asked for, which names the level in force only if
it names a level at all. -/

namespace HashTabs

open Log Html

namespace Session

theorem exists_title_of_mem_titles {s : Session} {st : Step} {x : String}
    (hx : x ∈ (s.step st).2.titles) : ∃ t : Tab, x = View.documentTitle s.config t := by
  rw [titles_step] at hx
  obtain ⟨i, -, hi⟩ := List.mem_filterMap.mp hx
  unfold title? at hi
  split at hi
  · rename_i m c _ _
    obtain ⟨-, htitle⟩ := Option.ite_none_right_eq_some.mp hi
    exact ⟨c.active, by rw [← config_step s st, Option.some.inj htitle]⟩
  · cases hi

/-- A new mount that keeps the title is the only one that sets a title in the step that makes it. -/
theorem titles_mounting {s : Session} {st : Step} {m : Mount} {c : Context}
    (he : s.effect? st = some (.mount m)) (hset : m.setsTitle = true)
    (hc : (s.navigation? m.owner).map (·.context) = some c) :
    (s.step st).2.titles = [View.documentTitle s.config c.active] := by
  have hshows := shows_mounting he hc
  have hother : ∀ k ≠ s.mounts.length, (s.mounts ++ [some m])[k]? = s.mounts[k]? := by
    intro k hk
    rcases Nat.lt_or_gt_of_ne hk with hlt | hgt
    · exact List.getElem?_append_left hlt
    · have hlong : (s.mounts ++ [some m]).length ≤ k := by
        rw [List.length_append, List.length_singleton]
        omega
      rw [List.getElem?_eq_none hlong, List.getElem?_eq_none (by omega)]
  rw [titles_step]
  refine titles_eq_singleton hshows.lt_length (fun k hk => title?_of_same_context ?_) ?_
  · -- No other mount is touched, nor any context.
    rw [step_of_effect? he, mountContext?, apply, hother k hk]
    rfl
  · rw [title?_of_mounted (Nat.le_refl _) hshows hset, config_step]

/-- What is read between the tags of the settings. -/
theorem texts_settings {s : Session} {i : Nat} {n : Navigation} {act : Action}
    (hn : s.contexts.get? i = some n)
    (hact : act.drawing? = some { component := "SettingsView" }) :
    ∃ page, s.page? ⟨i, act⟩ = some page ∧
      (textsBetween "dd" (tokens page.render.toList)).map unescape =
        [shown s.config.appTitle, shown s.config.logLevel, n.context.active.fragment].map
          String.toList := by
  refine ⟨Component.settingsView.html s.config n.context.active, page?_of_drawing hn hact, ?_⟩
  rw [toList_render, Component.unescape_textsBetween_description]
  rfl

/-- What is read between the tags of the header. -/
theorem texts_header {s : Session} {i : Nat} {n : Navigation} {act : Action}
    (hn : s.contexts.get? i = some n)
    (hact : act.drawing? = some { component := "TopHeader" }) :
    ∃ page, s.page? ⟨i, act⟩ = some page ∧
      (textsBetween "span" (tokens page.render.toList)).map unescape =
        [(shown s.config.appTitle).toList] := by
  refine ⟨Component.topHeader.html s.config n.context.active, page?_of_drawing hn hact, ?_⟩
  rw [toList_render, Component.unescape_textsBetween_span]
  rfl

end Session

/-- In every session whose configuration comes from a query, the settings that are drawn for a context
show, between their tags, the title of the configuration, a log level, and the fragment of the active
tab. That title is the one that the header shows, which every title of the document begins with. That
log level is, but for the case of letters, the name of the level in force, which is also the threshold
with which a page of that query starts, just if it is the name of a level. If not, it is what the query
asked for, though the level in force is info and a warning has said so. -/
theorem settings_show_level_in_force_iff (query : String) (hash : Option String)
    (steps : List Step) :
    let config := Config.ofQuery query
    let s := Session.reached hash config steps
    ∀ i n, s.contexts.get? i = some n → ∃ title level,
      (∀ act : Action, act.drawing? = some { component := "SettingsView" } →
        ∃ page, s.page? ⟨i, act⟩ = some page ∧
          (textsBetween "dd" (tokens page.render.toList)).map unescape =
            [title, level, n.context.active.fragment].map String.toList) ∧
      (∀ act : Action, act.drawing? = some { component := "TopHeader" } →
        ∃ page, s.page? ⟨i, act⟩ = some page ∧
          (textsBetween "span" (tokens page.render.toList)).map unescape = [title.toList]) ∧
      title = config.value.appTitle ∧
      (s.step ⟨i, .mount { component := "TopHeader" }⟩).2.titles =
        [title ++ " · " ++ n.context.active.label] ∧
      (∀ st, ∀ x ∈ (s.step st).2.titles, ∃ t : Tab, x = title ++ " · " ++ t.label) ∧
      level = config.value.logLevel ∧
      (Page.start { search := some query }).value = config.value.level.value ∧
      (Level.sameLetters config.value.level.value.name level = true ↔ Level.Names level) ∧
      (¬Level.Names level → config.value.level = ⟨.info, [.unknownLevel level]⟩) := by
  intro config s i n hn
  have hconfig : s.config = config.value := Session.config_reached hash config steps
  -- Neither text is empty, so each shows as it is.
  have htitle : shown s.config.appTitle = config.value.appTitle := by
    rw [hconfig, shown_of_ne (Config.appTitle_ofQuery_ne query)]
  have hlevel : shown s.config.logLevel = config.value.logLevel := by
    rw [hconfig, shown_of_ne (Config.logLevel_ofQuery_ne query)]
  have hheader : s.effect? ⟨i, .mount { component := "TopHeader" }⟩ =
      some (.mount ⟨.context i, [], true⟩) :=
    Session.effect?_mount hn (c := .topHeader) rfl (.inl rfl)
  refine ⟨config.value.appTitle, config.value.logLevel, fun act hact => ?_, fun act hact => ?_,
    rfl, ?_, fun st x hx => ?_, rfl, ?_, Config.sameLetters_level_iff config.value,
    Config.level_of_not_names⟩
  · rw [← htitle, ← hlevel]
    exact Session.texts_settings hn hact
  · rw [← htitle]
    exact Session.texts_header hn hact
  · have hcontext : (s.navigation? (.context i)).map (·.context) = some n.context :=
      Contexts.context?_of_get? hn
    rw [Session.titles_mounting hheader rfl hcontext, hconfig]
    rfl
  · rw [← hconfig]
    exact Session.exists_title_of_mem_titles hx
  · exact Page.start_value query

/-- A level's name counts in letters of any case, and is shown in those that were given. -/
theorem settings_show_debug_in_any_case :
    let query := "?log_level=Debug&app_title=A%26B"
    let s := Session.reached (some "#settings") (Config.ofQuery query) [⟨0, .attach⟩]
    (∃ page, s.page? ⟨1, .mount { component := "SettingsView" }⟩ = some page ∧
      (textsBetween "dd" (tokens page.render.toList)).map unescape =
        ["A&B", "Debug", "#settings"].map String.toList) ∧
    (Page.start { search := some query }).value = .debug ∧
    Level.sameLetters Level.debug.name "Debug" = true := by
  intro query s
  have hvalue : (Config.ofQuery query).value = { appTitle := "A&B", logLevel := "Debug" } := by
    decide +kernel
  have hdebug : ({ appTitle := "A&B", logLevel := "Debug" } : Config).level.value = .debug := by
    decide +kernel
  have hn : s.contexts.get? 1 = some ⟨⟨"#settings"⟩, { active := .settings }⟩ := by decide +kernel
  obtain ⟨title, level, hsettings, -, htitle, -, -, hgiven, hstart, hlevel, -⟩ :=
    settings_show_level_in_force_iff query (some "#settings") [⟨0, .attach⟩] 1 _ hn
  rw [hvalue] at htitle hgiven hstart hlevel
  rw [hdebug] at hstart hlevel
  subst htitle hgiven
  exact ⟨hsettings (.mount { component := "SettingsView" }) rfl, hstart,
    hlevel.mpr (by decide +kernel)⟩

/-- A name that is no level's is shown as if it were in force. -/
theorem settings_show_unknown_level :
    let config := Config.ofQuery "log_level=loud"
    let s := Session.reached none config []
    (∃ page, s.page? ⟨0, .render { component := "SettingsView" }⟩ = some page ∧
      (textsBetween "dd" (tokens page.render.toList)).map unescape =
        ["Home Lab", "loud", "#connect"].map String.toList) ∧
    config.value.level.value = .info ∧
    (Page.start { search := some "log_level=loud" }).value = .info ∧
    Level.sameLetters Level.info.name "loud" = false := by
  intro config s
  have hvalue : config.value = { logLevel := "loud" } := by decide +kernel
  have hlevel : config.value.level.value = .info := by
    rw [hvalue]
    decide +kernel
  have hconfig : s.config = { logLevel := "loud" } :=
    (Session.config_reached none config []).trans hvalue
  have hn : s.contexts.get? 0 = some Navigation.detached.value := rfl
  refine ⟨?_, hlevel, ?_, by decide +kernel⟩
  · have hact : (Action.render { component := "SettingsView" }).drawing? =
        some { component := "SettingsView" } := rfl
    have htexts := Session.texts_settings hn hact
    rw [hconfig] at htexts
    exact htexts
  · exact (Page.start_value _).trans hlevel

end HashTabs
