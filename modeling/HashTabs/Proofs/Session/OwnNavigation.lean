import HashTabs.Proofs.Session.Clicks
import HashTabs.Proofs.Session.Selections
import HashTabs.Proofs.Session.Shell

/-! The whole page over a navigation of its own. It looks like the page over a context that holds
the first tab, and sets the titles that clicks would make that page set; what happens in the session
around it does not reach it, and its clicks do not reach the contexts of the session. -/

namespace HashTabs

open Log

/-- The tab that a mount selects by an effect in a navigation of its own. -/
def Effect.press? (i : Nat) : Effect → Option Tab
  | press k t => if k = i then some t else none
  | _ => none

/-- The tabs that the buttons of the whole page select when it is drawn with the first tab. -/
def firstButtons : List Tab := Component.app.buttonTabs .connect

theorem Drawing.resolve_app {d : Drawing} (h : d.component = "App") : d.resolve = .ok .app := by
  rw [resolve, h]
  rfl

namespace Session

/-- The button of a mount that a step clicks. The mount has to stand, and the context to exist that
the step is aimed at, but there may be no such button. -/
def clickOn? (s : Session) (i : Nat) (st : Step) : Option Nat :=
  match s.contexts.get? st.context, st.action with
  | some _, .click button number =>
    (s.mount? number).bind fun p => if p.1 = i then some button else none
  | _, _ => none

/-- The buttons of a mount that are clicked in the course of steps, in order. -/
def clicksOn (s : Session) (i : Nat) (sts : List Step) : List Nat :=
  (s.moments sts).filterMap fun p => p.1.clickOn? i p.2

/-- Holds of a mount that, while it stands, has a navigation of its own and these buttons and keeps
the title. -/
structure OwnPage (s : Session) (i : Nat) (ts : List Tab) : Prop where
  made : i < s.mounts.length
  standing : ∀ m, s.mounts[i]? = some (some m) →
    (∃ n, m.owner = .own n) ∧ m.buttons = ts ∧ m.setsTitle = true

/-! ## Clicks on a mount -/

theorem clickOn?_eq_some_iff {s : Session} {i b : Nat} {st : Step} :
    s.clickOn? i st = some b ↔ ∃ n number m, s.contexts.get? st.context = some n ∧
      st.action = .click b number ∧ s.mount? number = some (i, m) := by
  constructor
  · intro h
    unfold clickOn? at h
    split at h
    · rename_i n button number hn ha
      obtain ⟨⟨k, m⟩, hm, hk⟩ := Option.bind_eq_some_iff.mp h
      obtain ⟨rfl, hb⟩ := Option.ite_none_right_eq_some.mp hk
      obtain rfl := Option.some.inj hb
      exact ⟨n, number, m, hn, ha, hm⟩
    · cases h
  · rintro ⟨n, number, m, hn, ha, hm⟩
    simp [clickOn?, hn, ha, hm]

theorem clicksOn_cons (s : Session) (i : Nat) (st : Step) (sts : List Step) :
    s.clicksOn i (st :: sts) = (s.clickOn? i st).toList ++ (s.step st).1.clicksOn i sts := by
  rw [clicksOn, moments, List.filterMap_cons]
  cases s.clickOn? i st <;> rfl

theorem clickOn?_of_press {s : Session} {i : Nat} {t : Tab} {st : Step}
    (h : s.effect? st = some (.press i t)) : ∃ b, s.clickOn? i st = some b := by
  obtain ⟨n, hn, he⟩ := Option.bind_eq_some_iff.mp h
  obtain ⟨button, number, ha⟩ := action_of_effectOf? he
  rw [ha] at he
  obtain ⟨⟨k, m⟩, hm, hb⟩ := Option.bind_eq_some_iff.mp he
  obtain ⟨t', -, hc⟩ := Option.bind_eq_some_iff.mp hb
  refine ⟨button, clickOn?_eq_some_iff.mpr ⟨n, number, m, hn, ha, ?_⟩⟩
  -- A click on a mount that uses a context is a selection there, and presses nothing.
  unfold clicked? at hc
  split at hc
  · obtain ⟨nj, -, hselect⟩ := Option.map_eq_some_iff.mp hc
    cases hselect
  · obtain ⟨rfl, -⟩ := Effect.press.inj (Option.some.inj hc)
    exact hm

namespace OwnPage

variable {s : Session} {i : Nat} {ts : List Tab}

theorem step (h : s.OwnPage i ts) (st : Step) : (s.step st).1.OwnPage i ts where
  made := lt_length_mounts_step st h.made
  standing m' hm' := by
    obtain ⟨m, hm, hb⟩ := standing_before_step st h.made hm'
    obtain ⟨⟨n, hn⟩, hbuttons, hset⟩ := h.standing m hm
    exact ⟨hb.own n hn, hb.buttons.trans hbuttons, hb.setsTitle.trans hset⟩

/-- A click on a button presses it, and a click beyond the buttons does nothing. -/
theorem effect?_of_clickOn? (h : s.OwnPage i ts) {st : Step} {b : Nat}
    (hb : s.clickOn? i st = some b) : s.effect? st = (ts[b]?).map (.press i) := by
  obtain ⟨n, number, m, hn, ha, hm⟩ := clickOn?_eq_some_iff.mp hb
  obtain ⟨⟨own, ho⟩, rfl, -⟩ := h.standing m (mount?_eq_some hm)
  have hclicked : s.clicked? i m = some ∘ Effect.press i := by
    funext t
    simp only [clicked?, ho]
    rfl
  rw [effect?, hn, ha, Option.bind_some, effectOf?, hm, Option.bind_some, hclicked]
  exact Option.map_eq_bind.symm

theorem press?_effect? (h : s.OwnPage i ts) (st : Step) :
    (s.effect? st).bind (Effect.press? i) = (s.clickOn? i st).bind (ts[·]?) := by
  cases hc : s.clickOn? i st with
  | some b =>
    rw [h.effect?_of_clickOn? hc, Option.bind_some]
    cases ts[b]? with
    | none => rfl
    | some t => exact if_pos rfl
  | none =>
    rw [Option.bind_none, Option.bind_eq_none_iff]
    intro e he
    cases e with
    | press k t =>
      refine if_neg fun hk => ?_
      -- The button that is pressed would be one that is clicked.
      obtain ⟨b, hb⟩ := clickOn?_of_press (hk ▸ he)
      rw [hc] at hb
      cases hb
    | _ => rfl

/-- A click leaves every context of the session as it is. -/
theorem contexts_step (h : s.OwnPage i ts) {st : Step} (hc : (s.clickOn? i st).isSome) :
    (s.step st).1.contexts = s.contexts := by
  obtain ⟨b, hb⟩ := Option.isSome_iff_exists.mp hc
  rw [step_fst, h.effect?_of_clickOn? hb]
  cases ts[b]? <;> rfl

end OwnPage

/-! ## Titles of a mount with a navigation of its own -/

theorem shows_own {s : Session} {i : Nat} {m : Mount} {n : Navigation}
    (hm : s.mounts[i]? = some (some m)) (ho : m.owner = .own n) : s.Shows i m n.context :=
  ⟨hm, by rw [ho]; rfl⟩

theorem title?_of_same_own {s s' : Session} {i : Nat} {m : Mount} {n : Navigation}
    (hm : s.mounts[i]? = some (some m)) (hm' : s'.mounts[i]? = some (some m))
    (ho : m.owner = .own n) : title? s s' i = none :=
  title?_of_same_context <| by
    rw [(shows_own hm' ho).mountContext?, (shows_own hm ho).mountContext?]

theorem title?_apply_own {s : Session} {i : Nat} {m : Mount} {n : Navigation}
    (hm : s.mounts[i]? = some (some m)) (ho : m.owner = .own n) (hset : m.setsTitle = true)
    (e : Effect) : title? s (s.apply e) i = (e.press? i).map (View.documentTitle s.config) := by
  have hmounts := getElem?_mounts_apply e hm
  cases e with
  | press k t =>
    by_cases hk : k = i
    · have hpress : m.press t = { m with owner := .own (n.select t).value } := by
        rw [Mount.press, ho]
      rw [Effect.onMount, if_pos hk, Option.map_some, hpress] at hmounts
      rw [Effect.press?, if_pos hk, Option.map_some, ← s.config_apply (.press k t)]
      exact title?_of_select (shows_own hm ho) (shows_own hmounts rfl) hset
    · rw [Effect.onMount, if_neg hk] at hmounts
      rw [Effect.press?, if_neg hk]
      exact title?_of_same_own hm hmounts ho
  | unmount k =>
    by_cases hk : k = i
    · rw [Effect.onMount, if_pos hk] at hmounts
      simp [title?, hmounts, Effect.press?]
    · rw [Effect.onMount, if_neg hk] at hmounts
      exact title?_of_same_own hm hmounts ho
  | _ => exact title?_of_same_own hm hmounts ho

namespace OwnPage

variable {s : Session} {i : Nat} {ts : List Tab}

theorem title?_step (h : s.OwnPage i ts) (st : Step) :
    title? s (s.step st).1 i =
      ((s.clickOn? i st).bind (ts[·]?)).map (View.documentTitle s.config) := by
  obtain ⟨x, hi⟩ : ∃ x, s.mounts[i]? = some x := ⟨_, List.getElem?_eq_getElem h.made⟩
  cases x with
  | none =>
    -- What was taken down sets no title, and cannot be clicked.
    have hquiet : s.Quiet i := ⟨h.made, fun m hm => by rw [hi] at hm; cases hm⟩
    have hstep : (s.step st).1.Quiet i := hquiet.after [st]
    have hclick : s.clickOn? i st = none := by
      rw [Option.eq_none_iff_forall_ne_some]
      intro b hb
      obtain ⟨n, number, m, -, -, hm⟩ := clickOn?_eq_some_iff.mp hb
      rw [mount?_eq_some hm] at hi
      cases hi
    rw [hstep.title?, hclick]
    rfl
  | some m =>
    obtain ⟨⟨n, ho⟩, -, hset⟩ := h.standing m hi
    rw [← h.press?_effect? st]
    cases he : s.effect? st with
    | none =>
      rw [step_of_no_effect he, title?_self]
      rfl
    | some e =>
      rw [step_of_effect? he, Option.bind_some]
      exact title?_apply_own hi ho hset e

/-- Whatever happens in between, such a mount sets the titles of the tabs that are clicked. -/
theorem titlesOf (h : s.OwnPage i ts) (sts : List Step) :
    s.titlesOf i sts =
      ((s.clicksOn i sts).filterMap (ts[·]?)).map (View.documentTitle s.config) := by
  induction sts generalizing s with
  | nil => rfl
  | cons st sts ih =>
    rw [Session.titlesOf, h.title?_step, ih (h.step st), config_step, clicksOn_cons]
    cases s.clickOn? i st with
    | none => rfl
    | some b => cases hb : ts[b]? <;> simp [hb]

end OwnPage

/-! ## Titles of the whole page -/

theorem effect?_mount_app {s : Session} {i : Nat} {n : Navigation} {d : Drawing}
    (hn : s.contexts.get? i = some n) (hd : d.component = "App") :
    s.effect? ⟨i, .mount d⟩ =
      some (.mount ⟨.own Navigation.detached.value, firstButtons, true⟩) :=
  effect?_mount hn (Drawing.resolve_app hd) (.inr List.mem_cons_self)

theorem effect?_mount_shell {s : Session} {j : Nat} {n : Navigation}
    (hn : s.contexts.get? j = some n) (hc : n.context.active = .connect) :
    s.effect? ⟨j, .mount { component := "Shell" }⟩ =
      some (.mount ⟨.context j, firstButtons, true⟩) := by
  rw [effect?_mount hn (c := .shell) rfl (.inl rfl), hc]
  rfl

theorem ownPage_of_mounting {s : Session} {st : Step} {n : Navigation} {ts : List Tab}
    (he : s.effect? st = some (.mount ⟨.own n, ts, true⟩)) :
    (s.step st).1.OwnPage s.mounts.length ts := by
  obtain ⟨c, hc⟩ := shows_of_mounting he
  refine ⟨hc.lt_length, fun m hm => ?_⟩
  obtain rfl := hc.mount_eq hm
  exact ⟨⟨n, rfl⟩, rfl, rfl⟩

/-- A mount that uses a context, and on which nothing but clicks follow, sets the titles of the tabs
that are clicked. -/
theorem titlesOf_clicks {s : Session} {i j : Nat} {m : Mount} {n : Navigation}
    (hm : s.mounts[i]? = some (some m)) (ho : m.owner = .context j) (hset : m.setsTitle = true)
    (hn : s.contexts.get? j = some n) (bs : List Nat) :
    s.titlesOf i (bs.map fun b => ⟨j, .click b (some i)⟩) =
      (bs.filterMap (m.buttons[·]?)).map (View.documentTitle s.config) := by
  induction bs generalizing s n with
  | nil => rfl
  | cons b bs ih =>
    have hmeans : s.mount? (some i) = some (i, m) := Means.mount? (.inl rfl) hm
    rw [List.map_cons, titlesOf]
    cases hb : m.buttons[b]? with
    | none =>
      rw [step_click_beyond hn hmeans (List.getElem?_eq_none_iff.mp hb), title?_self, ih hm hn,
        List.filterMap_cons_none hb]
      rfl
    | some t =>
      -- The context selects the tab, and the mount is told.
      let s' : Session := { s with contexts := s.contexts.set j (n.select t).value }
      have hstep : (s.step ⟨j, .click b (some i)⟩).1 = s' := by
        rw [step_click hn hmeans hb, click_of_context ho hn]
      have hn' : s'.contexts.get? j = some (n.select t).value := Contexts.get?_set_self hn _
      have hbefore : s.Shows i m n.context := ⟨hm, by rw [ho]; exact Contexts.context?_of_get? hn⟩
      have hafter : s'.Shows i m (n.select t).value.context :=
        ⟨hm, by rw [ho]; exact Contexts.context?_of_get? hn'⟩
      rw [hstep, title?_of_select hbefore hafter hset, ih (s := s') hm hn',
        List.filterMap_cons_some hb]
      rfl

theorem titlesOf_app {s : Session} {i : Nat} {n : Navigation} {d : Drawing}
    (hn : s.contexts.get? i = some n) (hd : d.component = "App") (more : List Step) :
    s.titlesOf s.mounts.length (⟨i, .mount d⟩ :: more) =
      View.documentTitle s.config .connect ::
        (((s.step ⟨i, .mount d⟩).1.clicksOn s.mounts.length more).filterMap
          (firstButtons[·]?)).map (View.documentTitle s.config) := by
  have he := effect?_mount_app hn hd
  have hshows := shows_mounting he rfl
  rw [titlesOf, title?_of_mounted (Nat.le_refl _) hshows rfl, (ownPage_of_mounting he).titlesOf,
    config_step]
  rfl

theorem titlesOf_shell {s : Session} {j : Nat} {n : Navigation}
    (hn : s.contexts.get? j = some n) (hc : n.context.active = .connect) (bs : List Nat) :
    s.titlesOf s.mounts.length (⟨j, .mount { component := "Shell" }⟩ ::
        bs.map fun b => ⟨j, .click b (some s.mounts.length)⟩) =
      View.documentTitle s.config .connect ::
        (bs.filterMap (firstButtons[·]?)).map (View.documentTitle s.config) := by
  have he := effect?_mount_shell hn hc
  have hshows := shows_mounting he (Contexts.context?_of_get? hn)
  -- To mount leaves the context as it is.
  have hn' : (s.step ⟨j, .mount { component := "Shell" }⟩).1.contexts.get? j = some n := by
    rw [step_of_effect? he]
    exact hn
  rw [titlesOf, title?_of_mounted (Nat.le_refl _) hshows rfl, hc,
    titlesOf_clicks hshows.mount rfl rfl hn', config_step]
  rfl

end Session

/-- Draw or mount the whole page with a navigation of its own, for any context of any session, and
whether or not that context is provided to it. The page is the one that every session under the same
configuration answers with when the page is drawn for a context that holds the first tab. Once it is
mounted, whatever steps follow, it sets just the titles that the page sets that is mounted for a new
context, in any session under the same configuration, when it gets the same clicks. And neither the
mounting nor a click on it changes any context of the session. -/
theorem app_is_shell_over_own_navigation (hash : Option String) (config : Logged Config)
    (steps : List Step) :
    let s := Session.reached hash config steps
    ∀ i n d, s.contexts.get? i = some n → d.component = "App" →
      (∀ act : Action, act.drawing? = some d → ∃ page, s.page? ⟨i, act⟩ = some page ∧
        ∀ hash' config' steps' j n', config'.value = config.value →
          (Session.reached hash' config' steps').contexts.get? j = some n' →
          n'.context.active = .connect →
          ∀ act' : Action, act'.drawing? = some { component := "Shell" } →
            (Session.reached hash' config' steps').page? ⟨j, act'⟩ = some page) ∧
      ∀ more : List Step,
        let mounted := (s.step ⟨i, .mount d⟩).1
        let clicks := mounted.clicksOn s.mounts.length more
        (∀ hash' config' steps' j, config'.value = config.value →
          let t := Session.reached hash' config' steps'
          t.contexts.get? j = some Navigation.detached.value →
          s.titlesOf s.mounts.length (⟨i, .mount d⟩ :: more) =
            t.titlesOf t.mounts.length (⟨j, .mount { component := "Shell" }⟩ ::
              clicks.map fun b => ⟨j, .click b (some t.mounts.length)⟩)) ∧
        mounted.contexts = s.contexts ∧
        ∀ p ∈ mounted.moments more, (p.1.clickOn? s.mounts.length p.2).isSome →
          (p.1.step p.2).1.contexts = p.1.contexts := by
  intro s i n d hn hd
  have hconfig : s.config = config.value := Session.config_reached hash config steps
  have he := Session.effect?_mount_app hn hd
  refine ⟨fun act hact => ⟨Component.shell.html config.value .connect, ?_,
    fun hash' config' steps' j n' hsame hn' hactive act' hact' => ?_⟩,
    fun more => ⟨?_, ?_, fun p hp hclick => ?_⟩⟩
  · rw [Session.page?_of_drawing hn hact, hconfig, Drawing.page?, Drawing.resolve_app hd]
    exact if_pos (.inr List.mem_cons_self)
  · have hconfig' : (Session.reached hash' config' steps').config = config.value :=
      (Session.config_reached hash' config' steps').trans hsame
    rw [Session.page?_of_drawing hn' hact', hconfig', hactive]
    rfl
  · intro hash' config' steps' j hsame t ht
    have hconfig' : t.config = config.value :=
      (Session.config_reached hash' config' steps').trans hsame
    rw [Session.titlesOf_app hn hd, Session.titlesOf_shell ht rfl, hconfig, hconfig']
  · rw [Session.step_of_effect? he]
    rfl
  · -- The mount is what it was when it was made, wherever the steps have led since.
    have hpage : p.1.OwnPage s.mounts.length firstButtons :=
      Session.forall_moments (P := (·.OwnPage s.mounts.length firstButtons))
        (Session.ownPage_of_mounting he) (fun q _ h => h.step q.2) p hp
    exact hpage.contexts_step hclick

/-- Between the clicks on the page its session goes on, with another page mounted, and in the end it
is taken down. One of the clicks is beyond its buttons. -/
theorem app_clicked_amid_other_steps_is_shell :
    let s := Session.reached (some "#settings") ⟨{}, []⟩
      [⟨0, .attach⟩, ⟨1, .mount { component := "Shell" }⟩]
    let app : Step := ⟨1, .mount { component := "App", provided := false }⟩
    let more : List Step := [⟨0, .click 1 none⟩, ⟨0, .setHash (some "#devices")⟩, ⟨1, .sync⟩,
      ⟨0, .click 0 (some 0)⟩, ⟨1, .click 4 (some 1)⟩, ⟨1, .click 2 (some 1)⟩,
      ⟨0, .unmount (some 1)⟩, ⟨0, .click 0 (some 1)⟩]
    (s.step app).1.contexts = s.contexts ∧
    s.titlesOf 1 (app :: more) =
      (Session.start none ⟨{}, []⟩).value.titlesOf 0 [⟨0, .mount { component := "Shell" }⟩,
        ⟨0, .click 1 (some 0)⟩, ⟨0, .click 4 (some 0)⟩, ⟨0, .click 2 (some 0)⟩] := by
  intro s app more
  have hmounts : s.mounts.length = 1 := by decide +kernel
  have hclicks : (s.step app).1.clicksOn 1 more = [1, 4, 2] := by decide +kernel
  obtain ⟨n, hn⟩ : ∃ n, s.contexts.get? 1 = some n :=
    Contexts.exists_get?_of_lt (by decide +kernel)
  have hmore := (app_is_shell_over_own_navigation (some "#settings") ⟨{}, []⟩ _ 1 n
    { component := "App", provided := false } hn rfl).2 more
  have htitles := hmore.1 none ⟨{}, []⟩ [] 0 rfl rfl
  rw [hmounts, hclicks] at htitles
  exact ⟨hmore.2.1, htitles⟩

end HashTabs
