import HashTabs.Proofs.Html.Attributes
import HashTabs.Proofs.Html.Elements
import HashTabs.Proofs.Session.Pages

/-! The whole page as it is read: the tab bar, the middle and the view in it, and the texts of the
settings all show one tab, the active one. No more of a session than that tab and the configuration
gets into any page. -/

namespace HashTabs

open Log Html

/-- The tags that open buttons. -/
def Html.buttonTags (ts : List Token) : List (List Char) :=
  (ts.filterMap Token.tag?).filter fun t => tagName t = "button".toList

/-- Holds of the tag of a button in the appearance that stands out. -/
def Html.standsOut (t : List Char) : Bool :=
  attribute? "class" t = some Appearance.primary.classes.toList

/-- Holds of a written page that shows one tab in all its parts. -/
structure ShowsTab (c : Config) (a : Tab) (page : List Char) : Prop where
  /-- Of the buttons in the one tab bar, just that of the tab stands out. -/
  bar : ∃ tag inside, elementsIn "nav" (tokens page) = [(tag, inside)] ∧
    (buttonTags inside).length = Tab.all.length ∧
    (buttonTags inside).countP standsOut = 1 ∧
    (buttonTags inside).findIdx? standsOut = some a.index
  /-- The one element for the middle has the tab for its key, and nothing but the tab's view inside. -/
  center : ∃ tag, attribute? "data-tab-key" tag = some a.token.toList ∧
    ((elementsIn "div" (tokens page)).filter fun x =>
        attribute? "data-zone" x.1 = some "center".toList) =
      [(tag, tokens ((Component.tabContent a).html c a).render.toList)]
  /-- No other tag has a key. -/
  key : (tags page).filterMap (attribute? "data-tab-key") = [a.token.toList]
  /-- There is one view. -/
  view : (elementsIn "section" (tokens page)).map (fun x => attribute? "class" x.1) =
    [some ("view view--" ++ a.token).toList]
  /-- The settings repeat the title of the header, and give the fragment of the tab. -/
  settings : a = .settings → ∃ title level, textsBetween "span" (tokens page) = [title] ∧
    textsBetween "dd" (tokens page) = [title, level, a.fragment.toList]

namespace View

/-- The opening tag of the button of a tab. -/
def tabTag (active t : Tab) : List Char :=
  openTag "button" [.classes (if active = t then Appearance.primary else .subtle).classes]

theorem buttonTags_tabButtons (a : Tab) (ts : List Tab) :
    buttonTags (tokensOfAll (ts.map (tabButton a))) = ts.map (tabTag a) := by
  rw [buttonTags, filterMap_tag?_tokensOfAll]
  induction ts with
  | nil => rfl
  | cons t ts ih =>
    have htags : (tabButton a t).tagsOf = [tabTag a t, closeTag "button"] := rfl
    have hopen : tagName (tabTag a t) = "button".toList := tagName_openTag isName_button _
    have hclose : tagName (closeTag "button") ≠ "button".toList :=
      tagName_closeTag_ne isName_button isName_button
    rw [List.map_cons, tagsOfAll, htags, List.filter_append, ih,
      List.filter_cons_of_pos (by simp only [hopen, decide_true]),
      List.filter_cons_of_neg (by simp only [hclose, decide_false, Bool.false_eq_true,
        not_false_iff])]
    rfl

theorem standsOut_tabTag (a t : Tab) : standsOut (tabTag a t) = decide (a = t) := by
  have hvalue : ∀ s, attribute? "class" (openTag "button" [.classes s]) =
      some (valueChars (.classes s)) := fun s =>
    attribute?_openTag (by decide) quote_notMem_button [.classes s]
  rw [standsOut, tabTag, hvalue]
  by_cases h : a = t
  · rw [if_pos h, decide_eq_true h]
    decide +kernel
  · rw [if_neg h, decide_eq_false h]
    decide +kernel

theorem valueChars_tabKey (t : Tab) : valueChars (.tabKey t) = t.token.toList := by
  cases t <;> decide +kernel

theorem valueChars_view (t : Tab) :
    valueChars (.classes ("view view--" ++ t.token)) = ("view view--" ++ t.token).toList := by
  cases t <;> decide +kernel

theorem elementsOf_nav_shell (c : Config) (a : Tab) :
    (Component.shell.html c a).elementsOf .nav =
      [(openTag "nav" [.role "tablist", .classes "tab-bar"],
        tokensOfAll (Tab.all.map (tabButton a)))] := by
  cases a <;> rfl

theorem elementsOf_section_shell (c : Config) (a : Tab) :
    ((Component.shell.html c a).elementsOf .section).map Prod.fst =
      [openTag "section" [.classes ("view view--" ++ a.token)]] := by
  cases a <;> rfl

/-- The opening tag of the middle. -/
def centerTag (a : Tab) : List Char :=
  openTag "div"
    [.zone "center", .tabKey a, .classes "app-tabs", .style "flex: 1; overflow: auto;;"]

theorem filter_zone_shell (c : Config) (a : Tab) :
    ((Component.shell.html c a).elementsOf .div).filter
        (fun x => attribute? "data-zone" x.1 = some "center".toList) =
      [(centerTag a, ((Component.tabContent a).html c a).tokensOf)] := by
  have hbar : (Component.tabBar.html c a).elementsOf .div = [] := by cases a <;> rfl
  have hview : ((Component.tabContent a).html c a).elementsOf .div = [] := by cases a <;> rfl
  have hzone : ∀ as, attribute? "data-zone" (openTag "div" as) =
      (as.find? fun b => b.name = "data-zone").map valueChars :=
    attribute?_openTag (by decide) (quote_notMem_name .div)
  have hcenter : attribute? "data-zone" (centerTag a) = some "center".toList := hzone _
  have hother : ∀ s, attribute? "data-zone" (openTag "div" [.classes s]) = none :=
    fun s => hzone [.classes s]
  have hheader : (Component.topHeader.html c a).elementsOf .div =
      [(openTag "div" [.classes "top-header"],
          tokensOfAll [element .div [.classes "top-header__brand"] [
            element .span [.classes "top-header__title"] [text c.appTitle]]]),
        (openTag "div" [.classes "top-header__brand"],
          tokensOfAll [element .span [.classes "top-header__title"] [text c.appTitle]])] := rfl
  -- The middle is the one of five that has a zone; neither the tab bar nor a view brings another.
  have hdivs : (Component.shell.html c a).elementsOf .div =
      [(openTag "div" [.classes "app-layout"],
          tokensOfAll [Component.topHeader.html c a, Component.tabBar.html c a,
            element .div [.classes "app-main"] [Component.center.html c a]])] ++
        (Component.topHeader.html c a).elementsOf .div ++
        [(openTag "div" [.classes "app-main"], tokensOfAll [Component.center.html c a]),
          (centerTag a, tokensOfAll [(Component.tabContent a).html c a])] := by
    simp [Component.html_shell, Component.html_center, shell, View.center, elementsOf,
      elementsOfAll, hbar, hview, Element.name, centerTag]
  rw [hdivs, hheader]
  simp [hother, hcenter, tokensOfAll]

end View

theorem showsTab_shell (c : Config) (a : Tab) :
    ShowsTab c a (Component.shell.html c a).render.toList := by
  have htokens : ∀ e : Element, elementsIn e.name (tokens (Component.shell.html c a).chars) =
      (Component.shell.html c a).elementsOf e := fun e => elementsIn_tokens_chars e _
  rw [toList_render]
  constructor
  case bar =>
    refine ⟨_, _, (htokens .nav).trans (View.elementsOf_nav_shell c a), ?_⟩
    have hstands : standsOut ∘ View.tabTag a = fun t => decide (a = t) :=
      funext (View.standsOut_tabTag a)
    rw [View.buttonTags_tabButtons, List.length_map, List.countP_map, List.findIdx?_map, hstands]
    cases a <;> decide
  case center =>
    have hkey : attribute? "data-tab-key" (View.centerTag a) = some (valueChars (.tabKey a)) :=
      attribute?_openTag (by decide) (quote_notMem_name .div) _
    refine ⟨View.centerTag a, ?_, ?_⟩
    · rw [hkey, View.valueChars_tabKey]
    · rw [show "div" = Element.div.name from rfl, htokens, toList_render, tokens_chars]
      exact View.filter_zone_shell c a
  case key =>
    rw [filterMap_attribute?_tags_chars (by decide), ← View.valueChars_tabKey]
    cases a <;> rfl
  case view =>
    have hclass : attribute? "class" (openTag "section" [.classes ("view view--" ++ a.token)]) =
        some (valueChars (.classes ("view view--" ++ a.token))) :=
      attribute?_openTag (by decide) (quote_notMem_name .section) _
    have hsection := congrArg (List.map (attribute? "class")) (View.elementsOf_section_shell c a)
    rw [show "section" = Element.section.name from rfl, htokens]
    rwa [List.map_map, List.map_singleton, hclass, View.valueChars_view] at hsection
  case settings =>
    rintro rfl
    refine ⟨escape c.appTitle, escape c.logLevel, ?_, ?_⟩
    · rw [show "span" = Element.span.name from rfl, textsBetween_chars,
        Component.textsOf_span_html]
      rfl
    · rw [show "dd" = Element.description.name from rfl, textsBetween_chars,
        Component.textsOf_description_html]
      rfl

/-- In every session that is reached by steps, the whole page, drawn or mounted for a context, shows
the active tab of that context in all its parts. Whatever component is drawn, it looks the same in
any two such sessions under one configuration in which the contexts that it is drawn for have the same
active tab, wherever the two come from and whatever hashes their locations hold. -/
theorem page_shows_active_tab (hash : Option String) (config : Logged Config)
    (steps : List Step) :
    let s := Session.reached hash config steps
    ∀ i n, s.contexts.get? i = some n →
      (∀ act : Action, act.drawing? = some { component := "Shell" } →
        ∃ page, s.page? ⟨i, act⟩ = some page ∧
          ShowsTab config.value n.context.active page.render.toList) ∧
      ∀ hash' config' steps' i' n', config'.value = config.value →
        (Session.reached hash' config' steps').contexts.get? i' = some n' →
        n'.context.active = n.context.active →
        ∀ (act : Action) d, act.drawing? = some d →
          (Session.reached hash' config' steps').page? ⟨i', act⟩ = s.page? ⟨i, act⟩ := by
  intro s i n hn
  have hconfig : s.config = config.value := Session.config_after _ steps
  refine ⟨fun act hact => ?_, fun hash' config' steps' i' n' hsame hn' hactive act d hact => ?_⟩
  · refine ⟨_, Session.page?_of_drawing hn hact, ?_⟩
    rw [hconfig]
    exact showsTab_shell config.value n.context.active
  · have hconfig' : (Session.reached hash' config' steps').config = config.value :=
      (Session.config_after _ steps').trans hsame
    rw [Session.page?_of_drawing hn hact, Session.page?_of_drawing hn' hact, hconfig, hconfig',
      hactive]

end HashTabs
