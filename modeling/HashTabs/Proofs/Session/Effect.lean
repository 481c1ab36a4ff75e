import HashTabs.Session
import HashTabs.Proofs.Contexts
import HashTabs.Proofs.Draw

/-! What a step comes to. A step that is taken has one effect on the session or none, a step that is
refused has none, and a run is the sum of the effects of its steps. -/

namespace HashTabs

open Log

/-- What can happen to a session. -/
inductive Effect where
  /-- A context selects a tab, because it is told to or because a button of a mount is clicked. -/
  | select (index : Nat) (t : Tab)
  | sync (index : Nat)
  /-- A hash is stored in the shared location behind the backs of its contexts. -/
  | edit (value : String)
  /-- One more context is made, and gets this number. -/
  | attach (index : Nat)
  | mount (m : Mount)
  /-- A mount with a navigation of its own selects a tab there. -/
  | press (number : Nat) (t : Tab)
  | unmount (number : Nat)
  deriving DecidableEq, Repr

/-- Selects a tab in the navigation that a mount has of its own. -/
def Mount.press (t : Tab) (m : Mount) : Mount :=
  match m.owner with
  | .context _ => m
  | .own n => { m with owner := .own (n.select t).value }

def Drawn.toMount (p : Drawn) : Mount := ⟨p.owner, p.page.buttons, p.setsTitle⟩

namespace Session

def clicked? (s : Session) (number : Nat) (m : Mount) (t : Tab) : Option Effect :=
  match m.owner with
  | .context j => (s.contexts.get? j).map fun _ => .select j t
  | .own _ => some (.press number t)

/-- The effect of an action that is aimed at a context. -/
def effectOf? (s : Session) (index : Nat) (n : Navigation) : Action → Option Effect
  | .select token => (Tab.ofToken? token).map (.select index)
  | .sync => some (.sync index)
  | .setHash value => if s.contexts.isShared then value.map .edit else none
  | .attach => some (.attach s.contexts.toList.length)
  | .mount d => (s.draw index n d).value.toOption.map fun p => .mount p.toMount
  | .click button number =>
    (s.mount? number).bind fun p => (p.2.buttons[button]?).bind (s.clicked? p.1 p.2)
  | .unmount number => (s.mount? number).map fun p => .unmount p.1
  | .render _ | .refuse _ => none

def effect? (s : Session) (st : Step) : Option Effect :=
  (s.contexts.get? st.context).bind (s.effectOf? st.context · st.action)

def apply (s : Session) : Effect → Session
  | .select i t => { s with contexts := s.contexts.modify i fun n => (n.select t).value }
  | .sync i => { s with contexts := s.contexts.modify i fun n => n.sync.value.1 }
  | .edit v => { s with contexts := s.contexts.setHash v }
  | .attach _ => { s with contexts := s.contexts.attach.value }
  | .mount m => { s with mounts := s.mounts ++ [some m] }
  | .press i t => { s with mounts := s.mounts.modify i (Option.map (Mount.press t)) }
  | .unmount i => { s with mounts := s.mounts.set i none }

theorem mount?_eq_some {s : Session} {number : Option Nat} {i : Nat} {m : Mount}
    (h : s.mount? number = some (i, m)) : s.mounts[i]? = some (some m) := by
  obtain ⟨m', hm, hp⟩ := Option.map_eq_some_iff.mp h
  obtain ⟨rfl, rfl⟩ := Prod.mk.injEq .. ▸ hp
  exact Option.join_eq_some_iff.mp hm

theorem modify_press {ms : List (Option Mount)} {i : Nat} {m : Mount} {n : Navigation}
    (hm : ms[i]? = some (some m)) (hn : m.owner = .own n) (t : Tab) :
    ms.modify i (Option.map (Mount.press t)) =
      ms.set i (some { m with owner := .own (n.select t).value }) := by
  rw [List.modify_eq_set, hm]
  simp [Mount.press, hn]

theorem click_eq {s : Session} {i : Nat} {m : Mount} (hm : s.mounts[i]? = some (some m))
    (t : Tab) : (s.click i m t).value = (s.clicked? i m t).elim s s.apply := by
  -- A mount whose context does not exist is not reached by any run; it has no effect.
  cases ho : m.owner with
  | context j =>
    cases hj : s.contexts.get? j with
    | none => simp [click, clicked?, ho, hj]
    | some n => simp [click, clicked?, ho, hj, apply, Contexts.modify]
  | own n => simp [click, clicked?, ho, apply, modify_press hm ho]

/-- An action that is refused has no effect; any other leaves behind what its effect makes of the
session. -/
theorem act_spec {s : Session} {i : Nat} {n : Navigation} (hn : s.contexts.get? i = some n)
    (a : Action) :
    match (s.act i n a).value with
    | .error _ => s.effectOf? i n a = none
    | .ok r => r.1 = (s.effectOf? i n a).elim s s.apply := by
  cases a with
  | select token =>
    cases ht : Tab.ofToken? token with
    | none => simp [act, refuse, effectOf?, ht]
    | some t => simp [act, effectOf?, ht, apply, Contexts.modify, hn]
  | sync => simp [act, effectOf?, apply, Contexts.modify, hn]
  | setHash value =>
    by_cases hs : s.contexts.isShared
    · cases value with
      | none => simp [act, refuse, effectOf?, hs]
      | some v => simp [act, effectOf?, hs, apply]
    · simp [act, refuse, effectOf?, hs]
  | attach => simp [act, effectOf?, apply]
  | render d =>
    cases hd : (s.draw i n d).value with
    | error e => simp [act, effectOf?, hd, Except.map]
    | ok p => simp [act, effectOf?, hd, Except.map]
  | mount d =>
    cases hd : (s.draw i n d).value with
    | error e => simp [act, effectOf?, hd, Except.map, Except.toOption]
    | ok p => simp [act, effectOf?, hd, apply, Drawn.toMount, Except.map, Except.toOption]
  | click button number =>
    cases hm : s.mount? number with
    | none => simp [act, refuse, effectOf?, hm]
    | some p =>
      cases hb : p.2.buttons[button]? with
      | none => simp [act, refuse, effectOf?, hm, hb]
      | some t => simp [act, effectOf?, hm, hb, click_eq (mount?_eq_some hm)]
  | unmount number =>
    cases hm : s.mount? number with
    | none => simp [act, refuse, effectOf?, hm]
    | some p => simp [act, effectOf?, hm, apply]
  | refuse reason => simp [act, refuse, effectOf?]

theorem step_fst (s : Session) (st : Step) : (s.step st).1 = (s.effect? st).elim s s.apply := by
  cases hn : s.contexts.get? st.context with
  | none => simp [step, effect?, hn]
  | some n =>
    have hact := act_spec hn st.action
    simp only [step, effect?, hn, Option.bind_some]
    generalize s.act st.context n st.action = r at hact ⊢
    obtain ⟨e | ⟨after, answer⟩, events⟩ := r
    · have hnone : s.effectOf? st.context n st.action = none := hact
      rw [hnone]
      rfl
    · exact hact

theorem result_step {s : Session} {st : Step} {n : Navigation}
    (hn : s.contexts.get? st.context = some n) :
    (s.step st).2.result = (s.act st.context n st.action).value.map Prod.snd := by
  simp only [step, hn]
  obtain ⟨_ | ⟨after, answer⟩, events⟩ := s.act st.context n st.action <;> rfl

theorem step_of_effect? {s : Session} {st : Step} {e : Effect} (h : s.effect? st = some e) :
    (s.step st).1 = s.apply e := by
  rw [step_fst, h]
  rfl

theorem step_of_no_effect {s : Session} {st : Step} (h : s.effect? st = none) :
    (s.step st).1 = s := by
  rw [step_fst, h]
  rfl

theorem step_render {s : Session} {st : Step} {d : Drawing} (h : st.action = .render d) :
    (s.step st).1 = s := by
  have he : s.effect? st = none := by
    rw [effect?, h]
    cases s.contexts.get? st.context <;> rfl
  exact step_of_no_effect he

theorem title?_self (s : Session) (i : Nat) : title? s s i = none := by
  unfold title?
  split
  · rename_i m c hm hc
    rw [hc]
    simp
  · rfl

theorem titles_self (s : Session) : titles s s = [] :=
  List.filterMap_eq_nil_iff.mpr fun i _ => title?_self s i

/-! ## What can happen -/

/-- What a session has to be like for an effect on it. -/
def Admits (s : Session) : Effect → Prop
  | .select i _ | .sync i => i < s.contexts.toList.length
  | .edit _ => s.contexts.isShared
  | .attach i => i = s.contexts.toList.length
  | .mount m => ∀ j, m.owner = .context j → j < s.contexts.toList.length
  | .press i _ => ∃ m n, s.mounts[i]? = some (some m) ∧ m.owner = .own n
  | .unmount i => ∃ m, s.mounts[i]? = some (some m)

/-- A component that can be drawn for a context. Only the whole page has a navigation of its own. -/
def drawn (s : Session) (i : Nat) (n : Navigation) (k : Component) : Drawn where
  owner := if k = .app then .own Navigation.detached.value else .context i
  page := k.html s.config n.context.active
  setsTitle := k ∈ [.topHeader, .shell, .app]

theorem draw_of_unresolved {s : Session} {i : Nat} {n : Navigation} {d : Drawing} {e : Refusal}
    (h : d.resolve = .error e) : s.draw i n d = refuse e := by
  rw [draw, h]

/-- A component is drawn if a navigation is provided, or if it asks for none. -/
theorem draw_of_resolve {s : Session} {i : Nat} {n : Navigation} {d : Drawing} {k : Component}
    (h : d.resolve = .ok k) :
    s.draw i n d =
      if d.provided ∨ k ∈ [.app, .devicesView, .tabContent .devices] then
        ⟨.ok (s.drawn i n k), if k = .app then Navigation.detached.events else []⟩
      else refuse .noNavigation := by
  simp only [draw, h]
  by_cases happ : k = .app
  · subst happ
    simp only [Component.run_app]
    rw [if_pos (.inr List.mem_cons_self)]
    rfl
  by_cases hview : k ∈ [.devicesView, .tabContent .devices]
  · have hdrawn : d.provided ∨ k ∈ [.app, .devicesView, .tabContent .devices] :=
      .inr (.tail _ hview)
    rw [Component.run_of_undemanding hview _ n.context.active, if_pos hdrawn]
    simp only [List.mem_cons, List.not_mem_nil, or_false] at hview
    rcases hview with rfl | rfl <;> rfl
  cases d.provided with
  | true => simp [Component.run_of_provided happ, drawn, happ]
  | false =>
    have hmissing : k ∉ [.app, .devicesView, .tabContent .devices] := fun hk =>
      (List.mem_cons.mp hk).elim happ hview
    rw [if_neg (not_or.mpr ⟨Bool.false_ne_true, hmissing⟩)]
    simp only [Bool.false_eq_true, if_false, Component.run_of_missing hmissing]
    rfl

theorem draw_eq_ok {s : Session} {i : Nat} {n : Navigation} {d : Drawing} {p : Drawn}
    (h : (s.draw i n d).value = .ok p) : ∃ k, d.resolve = .ok k ∧ p = s.drawn i n k := by
  cases hd : d.resolve with
  | error e =>
    rw [draw_of_unresolved hd] at h
    cases h
  | ok k =>
    rw [draw_of_resolve hd] at h
    split at h
    · exact ⟨k, rfl, (Except.ok.inj h).symm⟩
    · cases h

/-- A drawing that is refused has logged nothing, wherever in the component it was broken off. -/
theorem events_draw_of_refused {s : Session} {i : Nat} {n : Navigation} {d : Drawing} {e : Refusal}
    (h : (s.draw i n d).value = .error e) : (s.draw i n d).events = [] := by
  cases hd : d.resolve with
  | error e' =>
    rw [draw_of_unresolved hd]
    rfl
  | ok k =>
    simp only [draw, hd] at h ⊢
    split at h
    · rename_i t hrun
      have hleft := (Component.run_of_broken_off (congrArg Prod.fst hrun)).2
      rw [hrun] at hleft
      exact congrArg Trace.events hleft
    · cases h

theorem events_act_of_refused {s : Session} {i : Nat} {n : Navigation} {a : Action} {e : Refusal}
    (h : (s.act i n a).value = .error e) : (s.act i n a).events = [] := by
  cases a with
  | render d | mount d =>
    cases hd : (s.draw i n d).value with
    | error e' => exact events_draw_of_refused hd
    | ok p => simp [act, hd, Except.map] at h
  | select token =>
    cases ht : Tab.ofToken? token with
    | none => simp [act, ht, refuse]
    | some t => simp [act, ht] at h
  | setHash value =>
    by_cases hs : s.contexts.isShared
    · cases value with
      | none => simp [act, hs, refuse]
      | some v => simp [act, hs] at h
    · simp [act, hs, refuse]
  | click button number =>
    cases hm : s.mount? number with
    | none => simp [act, hm, refuse]
    | some p =>
      cases hb : p.2.buttons[button]? with
      | none => simp [act, hm, hb, refuse]
      | some t => simp [act, hm, hb] at h
  | unmount number =>
    cases hm : s.mount? number with
    | none => simp [act, hm, refuse]
    | some p => simp [act, hm] at h
  | sync | attach => cases h
  | refuse reason => rfl

theorem admits_clicked {s : Session} {i : Nat} {m : Mount} {t : Tab} {e : Effect}
    (hm : s.mounts[i]? = some (some m)) (h : s.clicked? i m t = some e) : s.Admits e := by
  unfold clicked? at h
  split at h
  · obtain ⟨n, hn, rfl⟩ := Option.map_eq_some_iff.mp h
    exact Contexts.get?_lt hn
  · rename_i n ho
    obtain rfl := Option.some.inj h
    exact ⟨m, n, hm, ho⟩

theorem admits_of_effect? {s : Session} {st : Step} {e : Effect} (h : s.effect? st = some e) :
    s.Admits e := by
  obtain ⟨n, hn, he⟩ := Option.bind_eq_some_iff.mp h
  have hi := Contexts.get?_lt hn
  cases ha : st.action with
  | select token =>
    obtain ⟨t, -, rfl⟩ := Option.map_eq_some_iff.mp (ha ▸ he)
    exact hi
  | sync =>
    obtain rfl := Option.some.inj (ha ▸ he)
    exact hi
  | setHash value =>
    simp only [ha, effectOf?] at he
    split at he
    · rename_i hs
      obtain ⟨v, -, rfl⟩ := Option.map_eq_some_iff.mp he
      exact hs
    · simp at he
  | attach =>
    obtain rfl := Option.some.inj (ha ▸ he)
    exact rfl
  | mount d =>
    simp only [ha, effectOf?] at he
    obtain ⟨p, hp, rfl⟩ := Option.map_eq_some_iff.mp he
    intro j hj
    cases hd : (s.draw st.context n d).value with
    | error r => simp [hd, Except.toOption] at hp
    | ok q =>
      obtain rfl : q = p := by simpa [hd, Except.toOption] using hp
      obtain ⟨k, -, rfl⟩ := draw_eq_ok hd
      -- Only a component without a navigation of its own uses a context, and then that of the step.
      by_cases happ : k = .app
      · simp [Drawn.toMount, drawn, happ] at hj
      · obtain rfl : st.context = j := by simpa [Drawn.toMount, drawn, happ] using hj
        exact hi
  | click button number =>
    simp only [ha, effectOf?] at he
    obtain ⟨p, hp, hb⟩ := Option.bind_eq_some_iff.mp he
    obtain ⟨t, -, hc⟩ := Option.bind_eq_some_iff.mp hb
    exact admits_clicked (mount?_eq_some hp) hc
  | unmount number =>
    simp only [ha, effectOf?] at he
    obtain ⟨p, hp, rfl⟩ := Option.map_eq_some_iff.mp he
    exact ⟨p.2, mount?_eq_some hp⟩
  | render d => simp [ha, effectOf?] at he
  | refuse reason => simp [ha, effectOf?] at he

theorem step_keeps {P : Session → Prop} {s : Session} {st : Step} (h : P s)
    (keep : ∀ e, s.effect? st = some e → s.Admits e → P (s.apply e)) : P (s.step st).1 := by
  cases he : s.effect? st with
  | none =>
    rw [step_of_no_effect he]
    exact h
  | some e =>
    rw [step_of_effect? he]
    exact keep e he (admits_of_effect? he)

/-- The action that an effect comes from. -/
theorem action_of_effectOf? {s : Session} {i : Nat} {n : Navigation} {a : Action} {e : Effect}
    (h : s.effectOf? i n a = some e) :
    match e with
    | .select _ _ => (∃ token, a = .select token) ∨ ∃ button number, a = .click button number
    | .sync j => a = .sync ∧ j = i
    | .edit v => a = .setHash (some v)
    | .attach _ => a = .attach
    | .mount _ => ∃ d, a = .mount d
    | .press _ _ => ∃ button number, a = .click button number
    | .unmount _ => ∃ number, a = .unmount number := by
  cases a with
  | select token =>
    obtain ⟨t, -, rfl⟩ := Option.map_eq_some_iff.mp h
    exact .inl ⟨token, rfl⟩
  | sync =>
    obtain rfl := Option.some.inj h
    exact ⟨rfl, rfl⟩
  | setHash value =>
    rw [effectOf?] at h
    split at h
    · obtain ⟨v, rfl, rfl⟩ := Option.map_eq_some_iff.mp h
      rfl
    · cases h
  | attach =>
    obtain rfl := Option.some.inj h
    rfl
  | mount d =>
    obtain ⟨p, -, rfl⟩ := Option.map_eq_some_iff.mp h
    exact ⟨d, rfl⟩
  | click button number =>
    obtain ⟨p, -, hb⟩ := Option.bind_eq_some_iff.mp h
    obtain ⟨t, -, hc⟩ := Option.bind_eq_some_iff.mp hb
    -- The owner of the mount decides in which navigation the tab is selected.
    unfold clicked? at hc
    split at hc
    · obtain ⟨nj, -, rfl⟩ := Option.map_eq_some_iff.mp hc
      exact .inr ⟨button, number, rfl⟩
    · obtain rfl := Option.some.inj hc
      exact ⟨button, number, rfl⟩
  | unmount number =>
    obtain ⟨p, -, rfl⟩ := Option.map_eq_some_iff.mp h
    exact ⟨number, rfl⟩
  | render d => cases h
  | refuse reason => cases h

/-! ## Runs -/

def after (s : Session) (sts : List Step) : Session := ((s.run sts).getLast?.map Prod.fst).getD s

/-- What happens to a session in the course of steps, in order. -/
def effects (s : Session) : List Step → List Effect
  | [] => []
  | st :: sts => (s.effect? st).toList ++ effects (s.step st).1 sts

@[simp] theorem after_nil (s : Session) : s.after [] = s := rfl

@[simp] theorem after_cons (s : Session) (st : Step) (sts : List Step) :
    s.after (st :: sts) = (s.step st).1.after sts := by
  unfold after
  rw [run, List.getLast?_cons]
  cases ((s.step st).1.run sts).getLast? <;> rfl

theorem after_append (s : Session) (sts more : List Step) :
    s.after (sts ++ more) = (s.after sts).after more := by
  induction sts generalizing s with
  | nil => rfl
  | cons st sts ih => simp only [List.cons_append, after_cons, ih]

def reached (hash : Option String) (config : Logged Config) (sts : List Step) : Session :=
  (start hash config).value.after sts

/-- All that happens in a session from the start, the making of its first context included. -/
def history (hash : Option String) (config : Logged Config) (sts : List Step) : List Effect :=
  .attach 0 :: (start hash config).value.effects sts

/-- A step has one effect at most, so what happened up to an effect is what happened in the course of
the first steps. -/
theorem exists_prefix_of_effects {s : Session} {sts : List Step} {past since : List Effect}
    {e : Effect} (h : s.effects sts = past ++ e :: since) :
    ∃ pre post, sts = pre ++ post ∧ s.effects pre = past ++ [e] := by
  induction sts generalizing s past with
  | nil => simp [effects] at h
  | cons st sts ih =>
    rw [effects] at h
    cases he : s.effect? st with
    | none =>
      rw [he] at h
      obtain ⟨pre, post, rfl, hpre⟩ := ih h
      exact ⟨st :: pre, post, rfl, by rw [effects, he, hpre]; rfl⟩
    | some e' =>
      rw [he, Option.toList_some, List.singleton_append] at h
      cases past with
      | nil =>
        obtain ⟨rfl, -⟩ := List.cons.inj h
        exact ⟨[st], sts, rfl, by rw [effects, he]; rfl⟩
      | cons e₀ past =>
        obtain ⟨rfl, htail⟩ := List.cons.inj h
        obtain ⟨pre, post, rfl, hpre⟩ := ih htail
        exact ⟨st :: pre, post, rfl, by rw [effects, he, hpre]; rfl⟩

theorem exists_prefix_of_history {hash : Option String} {config : Logged Config}
    {sts : List Step} {past since : List Effect} {e : Effect}
    (h : history hash config sts = past ++ e :: since) :
    ∃ pre post, sts = pre ++ post ∧ history hash config pre = past ++ [e] := by
  cases past with
  | nil =>
    -- The first context was made before any step.
    obtain ⟨rfl, -⟩ := List.cons.inj h
    exact ⟨[], sts, rfl, rfl⟩
  | cons e₀ past =>
    obtain ⟨rfl, htail⟩ := List.cons.inj h
    obtain ⟨pre, post, hsts, hpre⟩ := exists_prefix_of_effects htail
    exact ⟨pre, post, hsts, congrArg (List.cons _) hpre⟩

/-- What holds of a session before anything happens, and is kept by all that it admits, holds after
all that steps do to it. -/
theorem after_induction {P : List Effect → Session → Prop} {s : Session} {h₀ : List Effect}
    (start : P h₀ s)
    (keep : ∀ h s e, P h s → s.Admits e → P (h ++ [e]) (s.apply e)) (sts : List Step) :
    P (h₀ ++ s.effects sts) (s.after sts) := by
  -- By induction on the steps: the history so far grows with what each of them does.
  induction sts generalizing s h₀ with
  | nil => simpa [effects] using start
  | cons st sts ih =>
    rw [after_cons, effects]
    cases he : s.effect? st with
    | none =>
      rw [step_of_no_effect he]
      exact ih start
    | some e =>
      rw [step_of_effect? he, Option.toList_some, ← List.append_assoc]
      exact ih (keep h₀ s e start (admits_of_effect? he))

end Session

end HashTabs
