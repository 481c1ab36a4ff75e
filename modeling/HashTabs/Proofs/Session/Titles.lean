import HashTabs.Proofs.Session.Frame

/-! Document titles over a whole run. A mount that keeps the title sets it when it is made and once
for each time that its context tells its watchers to look again, so the last title that it set
names the tab that is active now. -/

namespace HashTabs

open Log

namespace Session

/-- The titles that the mount with a number sets in the course of steps. -/
def titlesOf (s : Session) (i : Nat) : List Step → List String
  | [] => []
  | st :: sts => (title? s (s.step st).1 i).toList ++ titlesOf (s.step st).1 i sts

/-- Holds of a step that mounts a component. -/
def MountsBy (s : Session) (st : Step) (c : Component) : Prop :=
  ∃ d page, st.action = .mount d ∧ d.resolve = .ok c ∧ (s.step st).2.result = .ok (.page page)

/-- Holds if the mount with a number stands and uses a context. -/
structure Shows (s : Session) (i : Nat) (m : Mount) (c : Context) : Prop where
  mount : s.mounts[i]? = some (some m)
  context : (s.navigation? m.owner).map (·.context) = some c

/-- Holds if the mount with a number sets no titles: it is none that keeps the title, or it was
taken down. -/
structure Quiet (s : Session) (i : Nat) : Prop where
  made : i < s.mounts.length
  silent : ∀ m, s.mounts[i]? = some (some m) → m.setsTitle = false

theorem titlesOf_append (s : Session) (i : Nat) (sts more : List Step) :
    s.titlesOf i (sts ++ more) = s.titlesOf i sts ++ (s.after sts).titlesOf i more := by
  induction sts generalizing s with
  | nil => rfl
  | cons st sts ih => simp only [List.cons_append, titlesOf, ih, after_cons, List.append_assoc]

/-! ## Mounts along a run -/

theorem config_step (s : Session) (st : Step) : (s.step st).1.config = s.config :=
  step_keeps (P := fun s' => s'.config = s.config) rfl fun e _ _ => s.config_apply e

theorem config_after (s : Session) (sts : List Step) : (s.after sts).config = s.config := by
  induction sts generalizing s with
  | nil => rfl
  | cons st sts ih => rw [after_cons, ih, config_step]

theorem config_reached (hash : Option String) (config : Logged Config) (sts : List Step) :
    (reached hash config sts).config = config.value :=
  config_after _ sts

theorem lt_length_mounts_step {s : Session} {i : Nat} (st : Step) (hi : i < s.mounts.length) :
    i < (s.step st).1.mounts.length :=
  step_keeps (P := fun s' => i < s'.mounts.length) hi fun e _ _ => lt_length_mounts_apply e hi

theorem lt_length_mounts_after {s : Session} {i : Nat} (sts : List Step)
    (hi : i < s.mounts.length) : i < (s.after sts).mounts.length := by
  induction sts generalizing s with
  | nil => exact hi
  | cons st sts ih =>
    rw [after_cons]
    exact ih (lt_length_mounts_step st hi)

theorem standing_before_step {s : Session} {i : Nat} {m' : Mount} (st : Step)
    (hi : i < s.mounts.length) (hm : (s.step st).1.mounts[i]? = some (some m')) :
    ∃ m, s.mounts[i]? = some (some m) ∧ m.Becomes m' := by
  rw [step_fst] at hm
  cases he : s.effect? st with
  | none =>
    rw [he] at hm
    exact ⟨m', hm, Mount.Becomes.refl m'⟩
  | some e =>
    rw [he] at hm
    obtain ⟨m, hm₀, rfl | ⟨t, rfl⟩⟩ := standing_before hi hm
    · exact ⟨m', hm₀, Mount.Becomes.refl m'⟩
    · exact ⟨m, hm₀, Mount.Becomes.press t m⟩

theorem standing_before_after {s : Session} {i : Nat} {m' : Mount} (sts : List Step)
    (hi : i < s.mounts.length) (hm : (s.after sts).mounts[i]? = some (some m')) :
    ∃ m, s.mounts[i]? = some (some m) ∧ m.Becomes m' := by
  induction sts generalizing s with
  | nil => exact ⟨m', hm, Mount.Becomes.refl m'⟩
  | cons st sts ih =>
    rw [after_cons] at hm
    obtain ⟨m₁, hm₁, hb₁⟩ := ih (lt_length_mounts_step st hi) hm
    obtain ⟨m, hm₀, hb₀⟩ := standing_before_step st hi hm₁
    exact ⟨m, hm₀, hb₀.trans hb₁⟩

/-- A number that is given out in the course of steps is given out by one step, which mounts. -/
theorem exists_mounting {s : Session} {i : Nat} {sts : List Step} (hs : s.mounts.length ≤ i)
    (hi : i < (s.after sts).mounts.length) :
    ∃ pre st post m, sts = pre ++ st :: post ∧ (s.after pre).mounts.length = i ∧
      (s.after pre).effect? st = some (.mount m) := by
  induction sts generalizing s with
  | nil => exact absurd hi (by simpa using hs)
  | cons st sts ih =>
    by_cases hlt : (s.step st).1.mounts.length ≤ i
    · obtain ⟨pre, st', post, m, rfl, hlen, he⟩ := ih hlt (by simpa using hi)
      exact ⟨st :: pre, st', post, m, rfl, by rw [after_cons, hlen], by rw [after_cons, he]⟩
    · -- The step itself gives out the number, so what it does is to mount.
      cases he : s.effect? st with
      | none =>
        rw [step_of_no_effect he] at hlt
        exact absurd hs hlt
      | some e =>
        rw [step_of_effect? he] at hlt
        rcases s.length_mounts_apply e with h | ⟨m, rfl, h⟩
        · omega
        · exact ⟨[], st, sts, m, rfl, by rw [after_nil]; omega, he⟩

theorem mountsBy_of_effect? {s : Session} {st : Step} {m : Mount}
    (h : s.effect? st = some (.mount m)) :
    ∃ c, s.MountsBy st c ∧ (m.setsTitle = true ↔ c ∈ [.topHeader, .shell, .app]) ∧
      if c = .app then ∃ n, m.owner = .own n else m.owner = .context st.context := by
  obtain ⟨n, hn, he⟩ := Option.bind_eq_some_iff.mp h
  obtain ⟨d, ha⟩ := action_of_effectOf? he
  cases hd : (s.draw st.context n d).value with
  | error r => simp [ha, effectOf?, hd, Except.toOption] at he
  | ok p =>
    obtain rfl : p.toMount = m := by simpa [ha, effectOf?, hd, Except.toOption] using he
    obtain ⟨c, hc, rfl⟩ := draw_eq_ok hd
    refine ⟨c, ⟨d, (s.drawn st.context n c).page, ha, hc, ?_⟩, decide_eq_true_iff, ?_⟩
    · simp [result_step hn, ha, act, hd, Except.map]
    · by_cases happ : c = .app
      · rw [if_pos happ]
        exact ⟨_, if_pos happ⟩
      · rw [if_neg happ]
        exact if_neg happ

/-! ## What a mount shows -/

theorem Shows.mountContext? {s : Session} {i : Nat} {m : Mount} {c : Context}
    (h : s.Shows i m c) : s.mountContext? i = some c := by
  rw [Session.mountContext?, h.mount]
  exact h.context

theorem Shows.mount_eq {s : Session} {i : Nat} {m m' : Mount} {c : Context} (h : s.Shows i m c)
    (hm' : s.mounts[i]? = some (some m')) : m = m' :=
  Option.some.inj (Option.some.inj (h.mount.symm.trans hm'))

theorem Shows.lt_length {s : Session} {i : Nat} {m : Mount} {c : Context} (h : s.Shows i m c) :
    i < s.mounts.length :=
  (List.getElem?_eq_some_iff.mp h.mount).1

theorem Shows.apply {s : Session} {e : Effect} {i : Nat} {m m' : Mount} {c : Context}
    (h : s.Shows i m c) (ha : s.Admits e) (hm' : (s.apply e).mounts[i]? = some (some m')) :
    ∃ c', (s.apply e).Shows i m' c' ∧ c.Next c' := by
  obtain ⟨m₀, hm₀, hcase⟩ := standing_before h.lt_length hm'
  obtain rfl := h.mount_eq hm₀
  have hctx := h.context
  cases ho : m.owner with
  | context j =>
    -- Only a context of the session can have changed, not the mount.
    have hsame : m' = m := by
      rcases hcase with rfl | ⟨t, rfl⟩
      · rfl
      · simp [Mount.press, ho]
    subst hsame
    rw [ho] at hctx
    obtain ⟨c', hc', hnext⟩ := context?_apply_next ha hctx
    exact ⟨c', ⟨hm', by rw [ho]; exact hc'⟩, hnext⟩
  | own n =>
    rw [ho] at hctx
    obtain rfl : n.context = c := Option.some.inj hctx
    rcases hcase with rfl | ⟨t, rfl⟩
    · exact ⟨n.context, ⟨hm', by rw [ho]; rfl⟩, .inl rfl⟩
    · refine ⟨(n.select t).value.context, ⟨hm', ?_⟩, n.next_select t⟩
      simp [Mount.press, ho, navigation?]

theorem shows_mounting {s : Session} {st : Step} {m : Mount} {c : Context}
    (he : s.effect? st = some (.mount m))
    (hc : (s.navigation? m.owner).map (·.context) = some c) :
    (s.step st).1.Shows s.mounts.length m c := by
  rw [step_of_effect? he]
  exact ⟨by simp [apply], hc⟩

theorem shows_of_mounting {s : Session} {st : Step} {m : Mount}
    (he : s.effect? st = some (.mount m)) : ∃ c, (s.step st).1.Shows s.mounts.length m c := by
  cases ho : m.owner with
  | context j =>
    obtain ⟨c, hc⟩ := Contexts.exists_context?_of_lt (admits_of_effect? he j ho)
    exact ⟨c, shows_mounting he (by rw [ho]; exact hc)⟩
  | own n => exact ⟨n.context, shows_mounting he (by rw [ho]; rfl)⟩

/-! ## Titles of a mount -/

theorem title?_of_unmade {s s' : Session} {i : Nat} (h : s'.mounts.length ≤ i) :
    title? s s' i = none := by
  unfold title?
  rw [List.getElem?_eq_none h]
  rfl

theorem titlesOf_of_unmade {s : Session} {i : Nat} {sts : List Step}
    (h : (s.after sts).mounts.length ≤ i) : s.titlesOf i sts = [] := by
  induction sts generalizing s with
  | nil => rfl
  | cons st sts ih =>
    rw [after_cons] at h
    have hstep : (s.step st).1.mounts.length ≤ i :=
      Nat.le_of_not_lt fun hlt => Nat.not_le_of_lt (lt_length_mounts_after sts hlt) h
    rw [titlesOf, title?_of_unmade hstep, ih h]
    rfl

theorem Quiet.title? {s s' : Session} {i : Nat} (h : s'.Quiet i) :
    Session.title? s s' i = none := by
  unfold Session.title?
  split
  · rename_i m c hm hc
    rw [h.silent m (Option.join_eq_some_iff.mp hm)]
    rfl
  · rfl

theorem Quiet.after {s : Session} {i : Nat} (h : s.Quiet i) (sts : List Step) :
    (s.after sts).Quiet i where
  made := lt_length_mounts_after sts h.made
  silent m' hm' := by
    obtain ⟨m, hm, hb⟩ := standing_before_after sts h.made hm'
    rw [hb.setsTitle, h.silent m hm]

theorem Quiet.titlesOf {s : Session} {i : Nat} (h : s.Quiet i) (sts : List Step) :
    s.titlesOf i sts = [] := by
  induction sts generalizing s with
  | nil => rfl
  | cons st sts ih =>
    have hstep : (s.step st).1.Quiet i := h.after [st]
    rw [Session.titlesOf, hstep.title?, ih hstep]
    rfl

/-- A mount sets the title after an effect that makes its context tell its watchers, and after no
other. -/
theorem title?_of_next {s s' : Session} {i : Nat} {m m' : Mount} {c c' : Context}
    (h : s.Shows i m c) (h' : s'.Shows i m' c') (hset : m'.setsTitle = true) (hn : c.Next c') :
    (c' = c ∧ title? s s' i = none) ∨
      (c'.notified = c.notified + 1 ∧
        title? s s' i = some (View.documentTitle s'.config c'.active)) := by
  have ht : title? s s' i = if c.notified ≠ c'.notified then
      some (View.documentTitle s'.config c'.active) else none := by
    unfold title?
    rw [h'.mountContext?, h.mountContext?, h'.mount]
    simp [hset, bne_iff_ne]
  rcases hn with rfl | hn
  · exact .inl ⟨rfl, by simpa using ht⟩
  · refine .inr ⟨hn, ?_⟩
    rw [ht, if_pos (by omega)]

/-- Along a run, a mount that keeps the title sets one for each time that its context tells its
watchers. Before and after it has set the title last for the tab that is active. -/
theorem titlesOf_of_shows {s : Session} {i : Nat} {m m' : Mount} {c : Context} {sts : List Step}
    (h : s.Shows i m c) (hm' : (s.after sts).mounts[i]? = some (some m')) :
    ∃ c', (s.after sts).Shows i m' c' ∧
      (m.setsTitle = true →
        (s.titlesOf i sts).length + c.notified = c'.notified ∧
        (View.documentTitle s.config c.active :: s.titlesOf i sts).getLast? =
          some (View.documentTitle s.config c'.active)) := by
  induction sts generalizing s m c with
  | nil =>
    obtain rfl := h.mount_eq hm'
    exact ⟨c, h, fun _ => ⟨Nat.zero_add _, rfl⟩⟩
  | cons st sts ih =>
    rw [after_cons] at hm'
    -- A mount that stands in the end stands after the first step.
    obtain ⟨m₁, hm₁, -⟩ :=
      standing_before_after sts (lt_length_mounts_step st h.lt_length) hm'
    have hb : m.Becomes m₁ := by
      obtain ⟨m₀, hm₀, hb⟩ := standing_before_step st h.lt_length hm₁
      obtain rfl := h.mount_eq hm₀
      exact hb
    obtain ⟨c₁, h₁, hnext⟩ : ∃ c₁, (s.step st).1.Shows i m₁ c₁ ∧ c.Next c₁ := by
      cases he : s.effect? st with
      | none =>
        rw [step_of_no_effect he] at hm₁ ⊢
        obtain rfl := h.mount_eq hm₁
        exact ⟨c, h, .inl rfl⟩
      | some e =>
        rw [step_of_effect? he] at hm₁ ⊢
        exact h.apply (admits_of_effect? he) hm₁
    -- What the step itself adds is one title if the context told its watchers, and none otherwise.
    obtain ⟨c', h', htitles⟩ := ih h₁ hm'
    refine ⟨c', by rw [after_cons]; exact h', fun hset => ?_⟩
    have hset₁ : m₁.setsTitle = true := by rw [hb.setsTitle, hset]
    obtain ⟨hlen, hlast⟩ := htitles hset₁
    rw [config_step] at hlast
    rcases title?_of_next h h₁ hset₁ hnext with ⟨rfl, ht⟩ | ⟨hn, ht⟩
    · rw [titlesOf, ht]
      exact ⟨hlen, hlast⟩
    · rw [titlesOf, ht, config_step, Option.toList_some, List.singleton_append,
        List.getLast?_cons_cons, List.length_cons]
      exact ⟨by omega, hlast⟩

theorem title?_of_mounted {s s' : Session} {i : Nat} {m : Mount} {c : Context}
    (hi : s.mounts.length ≤ i) (h : s'.Shows i m c) (hset : m.setsTitle = true) :
    title? s s' i = some (View.documentTitle s'.config c.active) := by
  have hnone : s.mountContext? i = none := by
    rw [mountContext?, List.getElem?_eq_none hi]
    rfl
  unfold title?
  rw [h.mountContext?, h.mount, hnone]
  simp [hset]

theorem quiet_of_mounting {s : Session} {st : Step} {m : Mount}
    (he : s.effect? st = some (.mount m)) (hset : m.setsTitle = false) :
    (s.step st).1.Quiet s.mounts.length := by
  obtain ⟨c, hc⟩ := shows_of_mounting he
  exact ⟨hc.lt_length, fun m' hm' => hc.mount_eq hm' ▸ hset⟩

theorem titlesOf_mounting {s : Session} {st : Step} {m₀ m : Mount} {post : List Step}
    (he : s.effect? st = some (.mount m₀))
    (hm : (s.after (st :: post)).mounts[s.mounts.length]? = some (some m)) :
    m₀.Becomes m ∧ ∃ made now,
      (s.step st).1.mountContext? s.mounts.length = some made ∧
      (s.after (st :: post)).mountContext? s.mounts.length = some now ∧
      (m₀.setsTitle = true →
        (s.titlesOf s.mounts.length (st :: post)).getLast? =
          some (View.documentTitle s.config now.active) ∧
        (s.titlesOf s.mounts.length (st :: post)).length + made.notified = 1 + now.notified) := by
  rw [after_cons] at hm ⊢
  obtain ⟨made, hmade⟩ := shows_of_mounting he
  obtain ⟨m₁, hm₁, hb⟩ := standing_before_after post hmade.lt_length hm
  obtain rfl := hmade.mount_eq hm₁
  obtain ⟨now, hnow, hrun⟩ := titlesOf_of_shows hmade hm
  refine ⟨hb, made, now, hmade.mountContext?, hnow.mountContext?, fun hset => ?_⟩
  obtain ⟨hcount, hlast⟩ := hrun hset
  rw [config_step] at hlast
  rw [titlesOf, title?_of_mounted (Nat.le_refl _) hmade hset, config_step, Option.toList_some,
    List.singleton_append, List.length_cons]
  exact ⟨hlast, by omega⟩

/-! ## Titles of a step -/

theorem titles_step (s : Session) (st : Step) :
    (s.step st).2.titles = titles s (s.step st).1 := by
  unfold step
  split
  · exact s.titles_self.symm
  · split
    · exact s.titles_self.symm
    · rfl

/-- The titles of a step are those that each mount sets in it, in the order of the mounts. -/
theorem titles_step_eq_flatMap (s : Session) (st : Step) :
    (s.step st).2.titles =
      (List.range (s.step st).1.mounts.length).flatMap fun i => s.titlesOf i [st] := by
  rw [titles_step, titles, List.filterMap_eq_flatMap_toList]
  simp only [titlesOf, List.append_nil]

theorem titles_render {s : Session} {st : Step} {d : Drawing} (h : st.action = .render d) :
    (s.step st).2.titles = [] := by
  rw [titles_step, step_render h, titles_self]

end Session

theorem Mount.Becomes.owner {m m' : Mount} {c : Component} {j : Nat} (hb : m.Becomes m')
    (h : if c = .app then ∃ n, m.owner = .own n else m.owner = .context j) :
    if c = .app then ∃ n, m'.owner = .own n else m'.owner = .context j := by
  by_cases happ : c = .app
  · rw [if_pos happ] at h ⊢
    obtain ⟨n, hn⟩ := h
    exact hb.own n hn
  · rw [if_neg happ] at h ⊢
    exact hb.context j h

/-- In every run each mount is made by one step, of some component. If it is one that keeps the title
and still stands, it uses the context that the step was aimed at, or for the whole page one of its
own; the title that it set last is that of the tab that is now active there; and it has set one
title when it was made and one for each time that the context told its watchers since. Other mounts
set no titles, nor does one that was taken down, nor does drawing alone. What a step answers with are
the titles that each mount sets in it, in the order of the mounts, and what a mount sets in the course
of steps is what it sets in one after the other. -/
theorem title_keeps_step_with_tab (hash : Option String) (config : Logged Config)
    (steps : List Step) :
    let s₀ := (Session.start hash config).value
    let s := Session.reached hash config steps
    (∀ i, s.mounts.length ≤ i → s₀.titlesOf i steps = []) ∧
    (∀ i < s.mounts.length, ∃ pre st post c,
      steps = pre ++ st :: post ∧ (s₀.after pre).mounts.length = i ∧
      (s₀.after pre).MountsBy st c ∧
      (c ∉ [.topHeader, .shell, .app] → s₀.titlesOf i steps = []) ∧
      (s.mounts[i]? = some none → ∀ more, s.titlesOf i more = []) ∧
      ∀ m, s.mounts[i]? = some (some m) →
        (if c = .app then ∃ n, m.owner = .own n else m.owner = .context st.context) ∧
        ∃ made now, ((s₀.after pre).step st).1.mountContext? i = some made ∧
          s.mountContext? i = some now ∧
          (c ∈ [.topHeader, .shell, .app] →
            (s₀.titlesOf i steps).getLast? =
              some (config.value.appTitle ++ " · " ++ now.active.label) ∧
            (s₀.titlesOf i steps).length + made.notified = 1 + now.notified)) ∧
    ∀ pre st,
      ((s₀.after pre).step st).2.titles =
        ((List.range ((s₀.after pre).step st).1.mounts.length).flatMap fun i =>
          (s₀.after pre).titlesOf i [st]) ∧
      (∀ i, s₀.titlesOf i (pre ++ [st]) = s₀.titlesOf i pre ++ (s₀.after pre).titlesOf i [st]) ∧
      ((∃ d, st.action = .render d) → ((s₀.after pre).step st).2.titles = []) := by
  intro s₀ s
  refine ⟨fun i hi => Session.titlesOf_of_unmade hi, fun i hi => ?_, fun pre st =>
    ⟨Session.titles_step_eq_flatMap _ st, fun i => Session.titlesOf_append s₀ i pre [st],
      fun ⟨_, hd⟩ => Session.titles_render hd⟩⟩
  obtain ⟨pre, st, post, m₀, hsteps, rfl, he⟩ :=
    Session.exists_mounting (s := s₀) (Nat.zero_le i) hi
  obtain ⟨c, hmounts, hset, howner⟩ := Session.mountsBy_of_effect? he
  have hs : s = (s₀.after pre).after (st :: post) := by
    rw [← Session.after_append, ← hsteps]
    rfl
  -- Before it is made, a mount sets no title.
  have htitles : s₀.titlesOf (s₀.after pre).mounts.length steps =
      (s₀.after pre).titlesOf (s₀.after pre).mounts.length (st :: post) := by
    rw [hsteps, Session.titlesOf_append, Session.titlesOf_of_unmade (Nat.le_refl _),
      List.nil_append]
  have hconfig : (s₀.after pre).config = config.value := by
    rw [Session.config_after]
    rfl
  refine ⟨pre, st, post, c, hsteps, rfl, hmounts, fun hc => ?_, fun hdown => ?_, fun m hm => ?_⟩
  · -- A component that does not keep the title is quiet from the start.
    have hquiet := Session.quiet_of_mounting he (Bool.eq_false_iff.mpr (hc ∘ hset.mp))
    rw [htitles, Session.titlesOf, hquiet.title?, hquiet.titlesOf]
    rfl
  · -- A mount that was taken down is quiet from then on.
    have hquiet : s.Quiet (s₀.after pre).mounts.length :=
      ⟨hi, fun m hm => by rw [hdown] at hm; cases hm⟩
    exact hquiet.titlesOf
  · -- A mount that stands keeps its owner, and has set a title for each notification.
    rw [hs] at hm
    obtain ⟨hb, made, now, hmade, hnow, hrun⟩ := Session.titlesOf_mounting he hm
    refine ⟨hb.owner howner, made, now, hmade, by rw [hs]; exact hnow, fun hc => ?_⟩
    rw [htitles, ← hconfig]
    exact hrun (hset.mpr hc)

end HashTabs
