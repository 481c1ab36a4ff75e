import HashTabs.Proofs.Component
import HashTabs.Proofs.Session.Titles

/-! The pages that a session answers with. A session does the same under any configuration, and the
configuration comes into its pages as text and as nothing else. -/

namespace HashTabs

open Log

/-- What an action draws, if it draws anything. -/
def Action.drawing? : Action → Option Drawing
  | .render d | .mount d => some d
  | _ => none

theorem Action.eq_of_drawing? {a : Action} {d : Drawing} (h : a.drawing? = some d) :
    a = .render d ∨ a = .mount d := by
  cases a with
  | render d' | mount d' =>
    obtain rfl := Option.some.inj h
    simp
  | _ => cases h

/-- The page of a drawing, if it can be drawn: it depends on the configuration and the active tab. -/
def Drawing.page? (c : Config) (a : Tab) (d : Drawing) : Option Html :=
  match d.resolve with
  | .error _ => none
  | .ok k =>
    if d.provided ∨ k ∈ [.app, .devicesView, .tabContent .devices] then some (k.html c a) else none

namespace Session

/-- The page that a step answers with, if it does. -/
def page? (s : Session) (st : Step) : Option Html :=
  match (s.step st).2.result with
  | .ok (.page h) => some h
  | _ => none

/-- The session under another configuration. -/
def withConfig (s : Session) (c : Config) : Session := { s with config := c }

/-! ## Drawing -/

theorem page_draw (s : Session) (i : Nat) (n : Navigation) (d : Drawing) :
    ((s.draw i n d).value.toOption.map fun p => p.page) =
      d.page? s.config n.context.active := by
  rw [Drawing.page?]
  cases hd : d.resolve with
  | error e =>
    rw [draw_of_unresolved hd]
    rfl
  | ok k =>
    rw [draw_of_resolve hd]
    dsimp only
    split <;> rfl

/-- The page that an action answers with, if it does. -/
def pageOf? : Except Refusal (Session × Answer) → Option Html
  | .ok (_, .page h) => some h
  | _ => none

theorem pageOf?_act (s : Session) (i : Nat) (n : Navigation) (a : Action) :
    pageOf? (s.act i n a).value =
      a.drawing?.bind fun d => d.page? s.config n.context.active := by
  cases a with
  | render d | mount d =>
    rw [Action.drawing?, Option.bind_some, ← page_draw s i]
    cases hd : (s.draw i n d).value <;> simp [act, hd, pageOf?, Except.map, Except.toOption]
  | select token =>
    cases ht : Tab.ofToken? token <;> simp [act, ht, pageOf?, Action.drawing?, refuse]
  | setHash value =>
    cases value <;> cases hs : s.contexts.isShared <;>
      simp [act, hs, pageOf?, Action.drawing?, refuse]
  | click button number =>
    cases hm : s.mount? number with
    | none => simp [act, hm, pageOf?, Action.drawing?, refuse]
    | some p =>
      cases hb : p.2.buttons[button]? <;>
        simp [act, hm, hb, pageOf?, Action.drawing?, refuse]
  | unmount number =>
    cases hm : s.mount? number <;> simp [act, hm, pageOf?, Action.drawing?, refuse]
  | sync | attach | refuse reason => rfl

/-- Pages come from drawing, for a context that exists. -/
theorem page?_eq (s : Session) (st : Step) :
    s.page? st = (s.contexts.get? st.context).bind fun n =>
      st.action.drawing?.bind fun d => d.page? s.config n.context.active := by
  cases hn : s.contexts.get? st.context with
  | none => simp [page?, step, hn]
  | some n =>
    rw [Option.bind_some, ← pageOf?_act s st.context, page?, result_step hn]
    obtain e | ⟨after, answer⟩ := (s.act st.context n st.action).value
    · rfl
    · cases answer <;> rfl

theorem page?_of_drawing {s : Session} {i : Nat} {n : Navigation} {act : Action} {d : Drawing}
    (hn : s.contexts.get? i = some n) (hd : act.drawing? = some d) :
    s.page? ⟨i, act⟩ = d.page? s.config n.context.active := by
  rw [page?_eq, hn, Option.bind_some, hd, Option.bind_some]

/-- A component is drawn for every context that there is, unless its navigation is held back and it is
one of those that ask for it. -/
theorem exists_page?_iff {s : Session} {st : Step} {n : Navigation} {d : Drawing} {k : Component}
    (ha : st.action = .render d ∨ st.action = .mount d) (hk : d.resolve = .ok k)
    (hn : s.contexts.get? st.context = some n) :
    (∃ h, s.page? st = some h) ↔
      d.provided ∨ k ∈ [.app, .devicesView, .tabContent .devices] := by
  have hd : st.action.drawing? = some d := by
    rcases ha with ha | ha <;> rw [ha] <;> rfl
  rw [page?_of_drawing hn hd, Drawing.page?, hk]
  dsimp only
  split
  · rename_i hdrawn
    exact iff_of_true ⟨_, rfl⟩ hdrawn
  · rename_i hheld
    exact iff_of_false (fun ⟨_, h⟩ => nomatch h) hheld

theorem drawn_of_page? {s : Session} {st : Step} {h : Html} (hp : s.page? st = some h) :
    ∃ d k n, st.action.drawing? = some d ∧ d.resolve = .ok k ∧
      s.contexts.get? st.context = some n ∧
      h = k.html s.config (k.tabShown n.context.active) := by
  rw [page?_eq] at hp
  obtain ⟨n, hn, hp⟩ := Option.bind_eq_some_iff.mp hp
  obtain ⟨d, hd, hp⟩ := Option.bind_eq_some_iff.mp hp
  unfold Drawing.page? at hp
  split at hp
  · cases hp
  · rename_i k hk
    obtain ⟨-, hpage⟩ := Option.ite_none_right_eq_some.mp hp
    obtain rfl := Option.some.inj hpage
    exact ⟨d, k, n, hd, hk, hn, (k.html_tabShown _ _).symm⟩

/-! ## Another configuration -/

/-- What a page has to say that does not depend on the configuration is the same under another one. -/
theorem map_page?_withConfig {α : Type} {f : Html → α}
    (hf : ∀ (k : Component) (c c' : Config) (a : Tab), f (k.html c a) = f (k.html c' a))
    (s : Session) (c : Config) (st : Step) :
    ((s.withConfig c).page? st).map f = (s.page? st).map f := by
  rw [page?_eq, page?_eq]
  have hcontexts : (s.withConfig c).contexts = s.contexts := rfl
  rw [hcontexts]
  cases s.contexts.get? st.context with
  | none => rfl
  | some n =>
    cases st.action.drawing? with
    | none => rfl
    | some d =>
      -- Whether a component can be drawn does not depend on the configuration.
      simp only [Option.bind_some, Drawing.page?]
      cases d.resolve with
      | error e => rfl
      | ok k =>
        dsimp only
        split
        · exact congrArg some (hf _ _ _ _)
        · rfl

theorem effect?_withConfig (s : Session) (c : Config) (st : Step) :
    (s.withConfig c).effect? st = s.effect? st := by
  refine Option.bind_congr fun n _ => ?_
  cases ha : st.action with
  | mount d =>
    rw [effectOf?, effectOf?]
    cases hd : d.resolve with
    | error e => rw [draw_of_unresolved hd, draw_of_unresolved hd]
    | ok k =>
      rw [draw_of_resolve hd, draw_of_resolve hd]
      split
      · -- The buttons of a page are the same under both configurations.
        simp [drawn, Drawn.toMount, Component.buttons_html, Except.toOption]
      · rfl
  | _ => rfl

theorem apply_withConfig (s : Session) (c : Config) (e : Effect) :
    (s.withConfig c).apply e = (s.apply e).withConfig c := by
  cases e <;> rfl

theorem step_withConfig (s : Session) (c : Config) (st : Step) :
    ((s.withConfig c).step st).1 = ((s.step st).1).withConfig c := by
  rw [step_fst, step_fst, effect?_withConfig]
  cases s.effect? st with
  | none => rfl
  | some e => exact s.apply_withConfig c e

theorem after_withConfig (s : Session) (c : Config) (sts : List Step) :
    (s.withConfig c).after sts = (s.after sts).withConfig c := by
  induction sts generalizing s with
  | nil => rfl
  | cons st sts ih => rw [after_cons, after_cons, step_withConfig, ih]

/-- Whatever the configuration is, the same steps lead to the same contexts and mounts. -/
theorem reached_withConfig (hash : Option String) (config config' : Logged Config)
    (sts : List Step) :
    (reached hash config sts).withConfig config'.value = reached hash config' sts :=
  (after_withConfig _ _ sts).symm

end Session

open Html

/-- Take two sessions that differ in the configuration alone, after the same steps. Each further step
answers both with the same tags in the same order, and with the same buttons, if it answers them
with a page. It does when it draws a component with a navigation for a context that there is, the
header and the settings among them, and without one for those that need none. Between the tags of a
page the title of the configuration is read back where the header and the settings show it, and the
log level where the settings do. So the settings look the same just if both texts do, an empty one
looking like a space. -/
theorem config_stays_text (hash : Option String) (config₁ config₂ : Logged Config)
    (steps : List Step) :
    let s₁ := Session.reached hash config₁ steps
    let s₂ := Session.reached hash config₂ steps
    (∀ st, (s₁.page? st).map (fun h => (tags h.render.toList, h.buttons)) =
      (s₂.page? st).map fun h => (tags h.render.toList, h.buttons)) ∧
    (∀ st d k n, (st.action = .render d ∨ st.action = .mount d) → d.resolve = .ok k →
      s₁.contexts.get? st.context = some n →
      ((∃ h, s₁.page? st = some h) ↔
        d.provided ∨ k ∈ [.app, .devicesView, .tabContent .devices])) ∧
    (∀ st h, s₁.page? st = some h → ∃ d k n,
      (st.action = .render d ∨ st.action = .mount d) ∧ d.resolve = .ok k ∧
      s₁.contexts.get? st.context = some n ∧
      (textsBetween "span" (tokens h.render.toList)).map unescape =
        (if k ∈ [.topHeader, .shell, .app] then [(shown config₁.value.appTitle).toList] else []) ∧
      (textsBetween "dd" (tokens h.render.toList)).map unescape =
        (if k.view? (k.tabShown n.context.active) = some .settings then
          [(shown config₁.value.appTitle).toList, (shown config₁.value.logLevel).toList,
            (k.tabShown n.context.active).fragment.toList]
        else [])) ∧
    ∀ a, (Component.settingsView.html config₁.value a).render =
        (Component.settingsView.html config₂.value a).render ↔
      shown config₁.value.appTitle = shown config₂.value.appTitle ∧
      shown config₁.value.logLevel = shown config₂.value.logLevel := by
  intro s₁ s₂
  -- The second session is the first one under the other configuration.
  have hs₂ : s₁.withConfig config₂.value = s₂ :=
    Session.reached_withConfig hash config₁ config₂ steps
  have hconfig : s₁.config = config₁.value := Session.config_after _ steps
  refine ⟨fun st => ?_, fun st d k n => Session.exists_page?_iff, fun st h hp => ?_, fun a => ?_⟩
  · rw [← hs₂, Session.map_page?_withConfig (c := config₂.value)]
    intro k c c' a
    rw [toList_render, toList_render, tags_chars, tags_chars, k.tagsOf_html c c' a, k.buttons_html,
      k.buttons_html]
  · obtain ⟨d, k, n, hd, hk, hn, rfl⟩ := Session.drawn_of_page? hp
    refine ⟨d, k, n, Action.eq_of_drawing? hd, hk, hn, ?_, ?_⟩
    · rw [toList_render, k.unescape_textsBetween_span, hconfig]
    · rw [toList_render, k.unescape_textsBetween_description, hconfig]
  · rw [← String.toList_inj, toList_render, toList_render]
    exact Component.settings_chars_eq_iff _ _ a

end HashTabs
