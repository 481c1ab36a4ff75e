import HashTabs.Proofs.Draw
import HashTabs.Proofs.Html.Texts

/-! What can be read off the page of a component: which buttons and which tags it has does not depend
on the configuration, and the texts of the configuration stand where they are meant to be. -/

namespace HashTabs.Component

open Html

/-- The tab that a component shows when it is drawn while a tab is active: the whole page over a
navigation of its own begins with the first. -/
def tabShown (active : Tab) : Component → Tab
  | app => .connect
  | _ => active

/-- What the buttons of a component select, in order: those of the tab bar, and that of the first
view. -/
def buttonTabs (active : Tab) : Component → List Tab
  | tabBar => Tab.all
  | center => if active = .connect then [.devices] else []
  | shell => Tab.all ++ if active = .connect then [.devices] else []
  | app => Tab.all ++ [.devices]
  | connectView => [.devices]
  | tabContent t => if t = .connect then [.devices] else []
  | topHeader | devicesView | settingsView => []

/-- The tab whose view a component shows while a tab is active. -/
def view? (active : Tab) : Component → Option Tab
  | center | shell => some active
  | app | connectView => some .connect
  | devicesView => some .devices
  | settingsView => some .settings
  | tabContent t => some t
  | topHeader | tabBar => none

theorem html_tabShown (k : Component) (c : Config) (a : Tab) :
    k.html c (k.tabShown a) = k.html c a := by
  cases k <;> rfl

/-- Induction along the composition: what holds of the parts of a component holds of the component. -/
@[elab_as_elim]
theorem parts_induction {motive : Component → Tab → Prop} (topHeader : ∀ a, motive .topHeader a)
    (tabBar : ∀ a, motive .tabBar a) (tabContent : ∀ t a, motive (.tabContent t) a)
    (connectView : ∀ a, motive (.tabContent .connect) a → motive .connectView a)
    (devicesView : ∀ a, motive (.tabContent .devices) a → motive .devicesView a)
    (settingsView : ∀ a, motive (.tabContent .settings) a → motive .settingsView a)
    (center : ∀ a, motive (.tabContent a) a → motive .center a)
    (shell : ∀ a, motive .topHeader a → motive .tabBar a → motive .center a → motive .shell a)
    (app : ∀ a, motive .shell .connect → motive .app a) (k : Component) (a : Tab) :
    motive k a := by
  have hcenter : ∀ a, motive .center a := fun a => center a (tabContent a a)
  have hshell : ∀ a, motive .shell a := fun a => shell a (topHeader a) (tabBar a) (hcenter a)
  cases k with
  | topHeader => exact topHeader a
  | tabBar => exact tabBar a
  | center => exact hcenter a
  | shell => exact hshell a
  | app => exact app a (hshell .connect)
  | connectView => exact connectView a (tabContent .connect a)
  | devicesView => exact devicesView a (tabContent .devices a)
  | settingsView => exact settingsView a (tabContent .settings a)
  | tabContent t => exact tabContent t a

theorem buttons_html (k : Component) (c : Config) (a : Tab) :
    (k.html c a).buttons = k.buttonTabs a := by
  induction k, a using parts_induction with
  | topHeader => rfl
  | tabBar a => cases a <;> rfl
  | tabContent t => cases t <;> rfl
  | center a hview => simp [html_center, View.center, buttons, buttonsOfAll, hview, buttonTabs]
  | shell a hheader hbar hcenter =>
    simp [html_shell, View.shell, buttons, buttonsOfAll, hheader, hbar, hcenter, buttonTabs]
  | app _ h | connectView _ h | devicesView _ h | settingsView _ h => exact h

theorem tagsOf_html (k : Component) (c c' : Config) (a : Tab) :
    (k.html c a).tagsOf = (k.html c' a).tagsOf := by
  induction k, a using parts_induction with
  | topHeader | tabBar => rfl
  | tabContent t => cases t <;> rfl
  | center a hview => simp only [html_center, View.center, tagsOf, tagsOfAll, hview]
  | shell a hheader hbar hcenter =>
    simp only [html_shell, View.shell, tagsOf, tagsOfAll, hheader, hbar, hcenter]
  | app _ h | connectView _ h | devicesView _ h | settingsView _ h => exact h

/-! ## Texts of the configuration -/

/-- The texts of a component are those of its header and those of its view. -/
theorem textsOf_html (e : Element) (k : Component) (c : Config) (a : Tab) :
    (k.html c a).textsOf e =
      (if k ∈ [topHeader, shell, app] then (topHeader.html c a).textsOf e else []) ++
        (k.view? a).elim [] fun t => ((tabContent t).html c a).textsOf e := by
  induction k, a using parts_induction with
  | topHeader => exact (List.append_nil _).symm
  | tabBar a =>
    change (View.tabBar a).textsOf e = []
    cases a <;> simp [View.tabBar, View.tabButton, Tab.all, textsOf, textsOfAll, textOnly?]
  | tabContent => rfl
  | center a =>
    have hone : textOnly? [(tabContent a).html c a] = none := by cases a <;> rfl
    simp [html_center, View.center, textsOf, textsOfAll, hone, view?]
  | shell a _ hbar hcenter =>
    have hparts : ∀ h, textOnly? [topHeader.html c a, tabBar.html c a, h] = none := fun _ => rfl
    have hmiddle : textOnly? [center.html c a] = none := by
      rw [html_center]
      rfl
    simp [html_shell, View.shell, textsOf, textsOfAll, hparts, hmiddle, hbar, hcenter, view?]
  | app _ h | connectView _ h | devicesView _ h | settingsView _ h => exact h

theorem textsOf_span_html (k : Component) (c : Config) (a : Tab) :
    (k.html c a).textsOf .span =
      if k ∈ [topHeader, shell, app] then [escape c.appTitle] else [] := by
  have hheader : (topHeader.html c a).textsOf .span = [escape c.appTitle] := by
    change (View.topHeader c).textsOf .span = _
    simp [View.topHeader, textsOf, textsOfAll, textOnly?]
  have hview : ((k.view? a).elim [] fun t => ((tabContent t).html c a).textsOf .span) = [] := by
    rcases k.view? a with _ | _ | _ | _ <;> rfl
  rw [textsOf_html, hheader, hview, List.append_nil]

theorem textsOf_description_html (k : Component) (c : Config) (a : Tab) :
    (k.html c a).textsOf .description =
      if k.view? a = some .settings then [escape c.appTitle, escape c.logLevel, escape a.fragment]
      else [] := by
  have hheader : (topHeader.html c a).textsOf .description = [] := rfl
  have hsettings : (settingsView.html c a).textsOf .description =
      [escape c.appTitle, escape c.logLevel, escape a.fragment] := by
    change (View.settings c a).textsOf .description = _
    simp [View.settings, textsOf, textsOfAll, textOnly?]
  rw [textsOf_html, hheader, ite_self, List.nil_append]
  rcases k.view? a with _ | _ | _ | _
  · rfl
  · rfl
  · rfl
  · exact hsettings

/-- The title of a configuration is read back where the header shows it. -/
theorem unescape_textsBetween_span (k : Component) (c : Config) (a : Tab) :
    (textsBetween "span" (tokens (k.html c a).chars)).map unescape =
      if k ∈ [topHeader, shell, app] then [(shown c.appTitle).toList] else [] := by
  rw [show "span" = Element.span.name from rfl, textsBetween_chars, textsOf_span_html]
  split
  · simp [unescape_escape]
  · rfl

example :
    (textsBetween "span" (tokens (topHeader.html { appTitle := "<button>&lt;" } .connect).chars)).map
      unescape = ["<button>&lt;".toList] := by
  decide +kernel

/-- Both texts of a configuration are read back where the settings show them. -/
theorem unescape_textsBetween_description (k : Component) (c : Config) (a : Tab) :
    (textsBetween "dd" (tokens (k.html c a).chars)).map unescape =
      if k.view? a = some .settings then
        [(shown c.appTitle).toList, (shown c.logLevel).toList, a.fragment.toList]
      else [] := by
  have hfragment : shown a.fragment = a.fragment := by cases a <;> decide
  rw [show "dd" = Element.description.name from rfl, textsBetween_chars, textsOf_description_html]
  split
  · simp [unescape_escape, hfragment]
  · rfl

/-- Two configurations give the same settings just if they show the same. -/
theorem settings_chars_eq_iff (c c' : Config) (a : Tab) :
    (View.settings c a).chars = (View.settings c' a).chars ↔
      shown c.appTitle = shown c'.appTitle ∧ shown c.logLevel = shown c'.logLevel := by
  have htexts : ∀ c, textsBetween Element.description.name (tokens (View.settings c a).chars) =
      [escape c.appTitle, escape c.logLevel, escape a.fragment] := fun c => by
    rw [textsBetween_chars]
    exact textsOf_description_html settingsView c a
  rw [← escape_eq_iff, ← escape_eq_iff]
  constructor
  · -- What was written stands between the tags of the descriptions.
    intro h
    have heq := (htexts c).symm.trans (h ▸ htexts c')
    simpa using heq
  · rintro ⟨htitle, hlevel⟩
    simp only [View.settings, chars, charsOfAll, htitle, hlevel]

end HashTabs.Component
