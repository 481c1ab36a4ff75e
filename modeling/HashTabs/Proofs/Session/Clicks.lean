import HashTabs.Proofs.Session.Pages

/-! Clicks. A button of a mount keeps the tab that it was drawn with, and to click it is to select that
tab in the navigation that the mount uses, wherever the session has got to since. -/

namespace HashTabs

open Log

namespace Session

/-- The session in which a mount has another navigation of its own. -/
def withOwn (s : Session) (i : Nat) (m : Mount) (n : Navigation) : Session :=
  { s with mounts := s.mounts.set i (some { m with owner := .own n }) }

/-- What it comes to that the navigation of a mount selects a tab. A context of the session is told
to by a step. In a navigation of the mount's own, only that navigation changes, and only this mount
sets the title. -/
def selectFor (s : Session) (i : Nat) (m : Mount) (t : Tab) : Session × Outcome :=
  match m.owner with
  | .context j => s.step ⟨j, .select t.token⟩
  | .own n =>
    (s.withOwn i m (n.select t).value,
      ⟨.ok .nothing, [View.documentTitle s.config t], (n.select t).events⟩)

/-- Holds of what a step can say to mean the mount with a number: the number, or nothing for the last
one made. -/
def Means (s : Session) (number : Option Nat) (i : Nat) : Prop :=
  number = some i ∨ number = none ∧ s.mounts.length = i + 1

/-- Holds of a mount whose clicks are selections. From any context, a click on one of its buttons
selects the tab of that button, and a click beyond its buttons is refused and changes nothing. -/
structure ClicksSelect (s : Session) (i : Nat) (m : Mount) : Prop where
  inside : ∀ k < s.contexts.toList.length, ∀ number, s.Means number i →
    ∀ b t, m.buttons[b]? = some t → s.step ⟨k, .click b number⟩ = s.selectFor i m t
  beyond : ∀ k < s.contexts.toList.length, ∀ number, s.Means number i →
    ∀ b, m.buttons.length ≤ b →
      s.step ⟨k, .click b number⟩ = (s, ⟨.error .noSuchButton, [], []⟩)

theorem Means.mount? {s : Session} {number : Option Nat} {i : Nat} {m : Mount}
    (h : s.Means number i) (hm : s.mounts[i]? = some (some m)) :
    s.mount? number = some (i, m) := by
  have hi : number.getD (s.mounts.length - 1) = i := by
    rcases h with rfl | ⟨rfl, hlast⟩
    · rfl
    · rw [Option.getD_none, hlast, Nat.add_sub_cancel]
  simp [Session.mount?, hi, hm]

/-! ## Steps that select, and steps that click -/

theorem step_select {s : Session} {j : Nat} {n : Navigation} (hn : s.contexts.get? j = some n)
    (t : Tab) :
    s.step ⟨j, .select t.token⟩ =
      let after := { s with contexts := s.contexts.set j (n.select t).value }
      (after, ⟨.ok .nothing, titles s after, (n.select t).events⟩) := by
  have ht : Tab.ofToken? t.token = some t := Tab.ofToken?_eq_some_iff.mpr rfl
  simp only [step, hn, act, ht]
  rfl

theorem step_click {s : Session} {k i b : Nat} {n : Navigation} {number : Option Nat} {m : Mount}
    {t : Tab} (hn : s.contexts.get? k = some n) (hm : s.mount? number = some (i, m))
    (hb : m.buttons[b]? = some t) :
    s.step ⟨k, .click b number⟩ =
      ((s.click i m t).value,
        ⟨.ok .nothing, titles s (s.click i m t).value, (s.click i m t).events⟩) := by
  simp only [step, hn, act, hm, hb]
  rfl

theorem step_click_beyond {s : Session} {k i b : Nat} {n : Navigation} {number : Option Nat}
    {m : Mount} (hn : s.contexts.get? k = some n) (hm : s.mount? number = some (i, m))
    (hb : m.buttons.length ≤ b) :
    s.step ⟨k, .click b number⟩ = (s, ⟨.error .noSuchButton, [], []⟩) := by
  simp only [step, hn, act, hm, List.getElem?_eq_none hb, refuse]

/-! ## Titles of a click -/

theorem titles_eq_singleton {s s' : Session} {i : Nat} {title : String}
    (hi : i < s'.mounts.length) (hother : ∀ k ≠ i, title? s s' k = none)
    (htitle : title? s s' i = some title) : titles s s' = [title] := by
  obtain ⟨before, since, hsplit⟩ := List.append_of_mem (List.mem_range.mpr hi)
  -- No number comes twice, so those before and those after are others.
  have hnodup := hsplit ▸ List.nodup_range (n := s'.mounts.length)
  have hsince : i ∉ since := (List.nodup_cons.mp (List.nodup_append.mp hnodup).2.1).1
  have hbefore : i ∉ before := fun h =>
    (List.nodup_append.mp hnodup).2.2 i h i List.mem_cons_self rfl
  rw [titles, hsplit, List.filterMap_append, List.filterMap_cons_some htitle,
    List.filterMap_eq_nil_iff.mpr fun k hk => hother k fun h => hbefore (h ▸ hk),
    List.filterMap_eq_nil_iff.mpr fun k hk => hother k fun h => hsince (h ▸ hk)]
  rfl

theorem title?_of_same_context {s s' : Session} {i : Nat}
    (h : s'.mountContext? i = s.mountContext? i) : title? s s' i = none := by
  unfold title?
  split
  · rename_i m c hm hc
    rw [← h, hc]
    simp
  · rfl

theorem title?_of_select {s s' : Session} {i : Nat} {m m' : Mount} {n : Navigation} {t : Tab}
    (h : s.Shows i m n.context) (h' : s'.Shows i m' (n.select t).value.context)
    (hset : m'.setsTitle = true) : title? s s' i = some (View.documentTitle s'.config t) := by
  rcases title?_of_next h h' hset (n.next_select t) with ⟨hsame, -⟩ | ⟨-, htitle⟩
  · -- Selecting always tells the watchers.
    exact absurd (congrArg Context.notified hsame) (Nat.succ_ne_self _)
  · exact htitle

theorem titles_withOwn {s : Session} {i : Nat} {m : Mount} {n : Navigation}
    (hm : s.mounts[i]? = some (some m)) (ho : m.owner = .own n) (hset : m.setsTitle = true)
    (t : Tab) :
    titles s (s.withOwn i m (n.select t).value) = [View.documentTitle s.config t] := by
  obtain ⟨hi, -⟩ := List.getElem?_eq_some_iff.mp hm
  have hbefore : s.Shows i m n.context := ⟨hm, by rw [ho]; rfl⟩
  have hafter : (s.withOwn i m (n.select t).value).Shows i
      { m with owner := .own (n.select t).value } (n.context.activate t) :=
    ⟨List.getElem?_set_self hi, rfl⟩
  refine titles_eq_singleton hafter.lt_length (fun k hk => title?_of_same_context ?_) ?_
  · rw [mountContext?, withOwn, List.getElem?_set_ne hk.symm]
    rfl
  · exact title?_of_select hbefore hafter hset

/-! ## Clicking is selecting -/

theorem click_of_context {s : Session} {i j : Nat} {m : Mount} {n : Navigation}
    (ho : m.owner = .context j) (hn : s.contexts.get? j = some n) (t : Tab) :
    s.click i m t =
      ⟨{ s with contexts := s.contexts.set j (n.select t).value }, (n.select t).events⟩ := by
  simp only [click, ho, hn]
  rfl

theorem click_of_own {s : Session} {i : Nat} {m : Mount} {n : Navigation} (ho : m.owner = .own n)
    (t : Tab) : s.click i m t = ⟨s.withOwn i m (n.select t).value, (n.select t).events⟩ := by
  simp only [click, ho]
  rfl

theorem clicksSelect {s : Session} {i : Nat} {m : Mount} (hm : s.mounts[i]? = some (some m))
    (hcontext : ∀ j, m.owner = .context j → j < s.contexts.toList.length)
    (hown : ∀ n, m.owner = .own n → m.setsTitle = true) : s.ClicksSelect i m where
  inside k hk number hnumber b t hb := by
    obtain ⟨nₖ, hnₖ⟩ := Contexts.exists_get?_of_lt hk
    rw [step_click hnₖ (hnumber.mount? hm) hb]
    -- Both sides write the same navigation back, so the titles are told by the same two sessions.
    cases ho : m.owner with
    | context j =>
      obtain ⟨n, hn⟩ := Contexts.exists_get?_of_lt (hcontext j ho)
      simp only [selectFor, ho, step_select hn, click_of_context ho hn]
    | own n =>
      simp only [selectFor, ho, click_of_own ho, titles_withOwn hm ho (hown n ho)]
  beyond k hk number hnumber b hb := by
    obtain ⟨n, hn⟩ := Contexts.exists_get?_of_lt hk
    exact step_click_beyond hn (hnumber.mount? hm) hb

/-! ## Mounts and the steps that made them -/

/-- A component that is mounted for a context uses it, unless it is the whole page. -/
theorem effect?_mount {s : Session} {i : Nat} {n : Navigation} {d : Drawing} {c : Component}
    (hn : s.contexts.get? i = some n) (hc : d.resolve = .ok c)
    (hdrawn : d.provided ∨ c ∈ [.app, .devicesView, .tabContent .devices]) :
    s.effect? ⟨i, .mount d⟩ =
      some (.mount ⟨if c = .app then .own Navigation.detached.value else .context i,
        c.buttonTabs n.context.active, c ∈ [.topHeader, .shell, .app]⟩) := by
  rw [effect?, hn, Option.bind_some, effectOf?, draw_of_resolve hc, if_pos hdrawn,
    ← c.buttons_html s.config]
  rfl

theorem page_of_mounting {s : Session} {st : Step} {m : Mount}
    (he : s.effect? st = some (.mount m)) :
    ∃ page, s.page? st = some page ∧ m.buttons = page.buttons := by
  obtain ⟨c, ⟨d, -, ha, -, -⟩, -, -⟩ := mountsBy_of_effect? he
  obtain ⟨n, hn, he⟩ := Option.bind_eq_some_iff.mp he
  rw [ha] at he
  obtain ⟨p, hp, hm⟩ := Option.map_eq_some_iff.mp he
  obtain rfl := Effect.mount.inj hm
  refine ⟨p.page, ?_, rfl⟩
  rw [page?_eq, hn, ha, Option.bind_some, Action.drawing?, Option.bind_some,
    ← page_draw s st.context, hp]
  rfl

theorem lt_length_of_mountContext? {s : Session} {i j : Nat} {m : Mount} {c : Context}
    (hc : s.mountContext? i = some c) (hm : s.mounts[i]? = some (some m))
    (ho : m.owner = .context j) : j < s.contexts.toList.length := by
  rw [mountContext?, hm] at hc
  obtain ⟨n, hn, -⟩ := Option.map_eq_some_iff.mp hc
  rw [ho] at hn
  exact Contexts.get?_lt hn

end Session

/-- Every mount that stands was made by one step, which drew a component for a context and answered
with its page. The mount has the buttons of that page: the tab bar's in the order of the tabs, then
that of the first view where it was shown. Whatever has happened since, to click one of them is to
select its tab in the navigation of the mount, with the same session, records and titles; and a
click beyond them is refused and changes nothing. -/
theorem click_is_select (hash : Option String) (config : Logged Config) (steps : List Step) (i : Nat)
    (m : Mount)
    (standing : (Session.reached hash config steps).mounts[i]? = some (some m)) :
    let s₀ := (Session.start hash config).value
    ∃ pre st post d c n page, steps = pre ++ st :: post ∧ (s₀.after pre).mounts.length = i ∧
      st.action = .mount d ∧ d.resolve = .ok c ∧
      (s₀.after pre).contexts.get? st.context = some n ∧ (s₀.after pre).page? st = some page ∧
      (if c = .app then ∃ n', m.owner = .own n' else m.owner = .context st.context) ∧
      m.buttons = c.buttonTabs (c.tabShown n.context.active) ∧
      Html.buttonCount (Html.tags page.render.toList) = m.buttons.length ∧
      (Session.reached hash config steps).ClicksSelect i m := by
  intro s₀
  obtain ⟨hi, -⟩ := List.getElem?_eq_some_iff.mp standing
  obtain ⟨pre, st, post, m₀, hsteps, rfl, he⟩ :=
    Session.exists_mounting (s := s₀) (Nat.zero_le i) hi
  have hs : Session.reached hash config steps = (s₀.after pre).after (st :: post) := by
    rw [← Session.after_append, ← hsteps]
    rfl
  obtain ⟨c, ⟨d, -, ha, hc, -⟩, hset, howner⟩ := Session.mountsBy_of_effect? he
  obtain ⟨page, hpage, hbuttons⟩ := Session.page_of_mounting he
  obtain ⟨d', k, n, hd', hk, hn, rfl⟩ := Session.drawn_of_page? hpage
  obtain rfl : d = d' := Option.some.inj ((congrArg Action.drawing? ha).symm.trans hd')
  obtain rfl : c = k := Except.ok.inj (hc.symm.trans hk)
  -- Since it was made, the mount has kept its buttons and the sort of navigation that it uses.
  obtain ⟨hb, -, now, -, hnow, -⟩ := Session.titlesOf_mounting he (hs ▸ standing)
  rw [← hs] at hnow
  have howner' := hb.owner howner
  refine ⟨pre, st, post, d, c, n, _, hsteps, rfl, ha, hc, hn, hpage, howner', ?_, ?_, ?_⟩
  · rw [hb.buttons, hbuttons, c.buttons_html]
  · rw [Html.toList_render, Html.buttonCount_tags_chars, hb.buttons, hbuttons]
  · refine Session.clicksSelect standing
      (fun j hj => Session.lt_length_of_mountContext? hnow standing hj) fun n' hn' => ?_
    -- Only the whole page has a navigation of its own, and it keeps the title.
    by_cases happ : c = .app
    · rw [hb.setsTitle, hset, happ]
      decide
    · rw [if_neg happ, hn'] at howner'
      cases howner'

/-- The whole page is drawn while the first tab is active, and a button of its view is clicked when
the third is. -/
theorem click_after_sync_is_select :
    let steps : List Step :=
      [⟨0, .attach⟩, ⟨1, .mount { component := "Shell" }⟩, ⟨0, .setHash (some "settings")⟩,
        ⟨1, .sync⟩]
    let s := Session.reached (some "#bogus") ⟨{}, []⟩ steps
    s.mounts[0]? = some (some ⟨.context 1, [.connect, .devices, .settings, .devices], true⟩) ∧
    s.step ⟨0, .click 3 none⟩ = s.step ⟨1, .select "devices"⟩ ∧
    s.step ⟨0, .click 4 (some 0)⟩ = (s, ⟨.error .noSuchButton, [], []⟩) := by
  intro steps s
  have standing : s.mounts[0]? =
      some (some ⟨.context 1, [.connect, .devices, .settings, .devices], true⟩) := by decide +kernel
  have hlast : s.mounts.length = 1 := by decide +kernel
  have hzero : 0 < s.contexts.toList.length := by decide +kernel
  obtain ⟨-, -, -, -, -, -, -, -, -, -, -, -, -, -, -, -, hclicks⟩ :=
    click_is_select (some "#bogus") ⟨{}, []⟩ steps 0 _ standing
  exact ⟨standing, hclicks.inside 0 hzero none (.inr ⟨rfl, hlast⟩) 3 .devices rfl,
    hclicks.beyond 0 hzero (some 0) (.inl rfl) 4 (Nat.le_refl 4)⟩

end HashTabs
