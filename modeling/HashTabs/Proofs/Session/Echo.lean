import HashTabs.Proofs.Session.Delivery
import HashTabs.Proofs.Session.Selections

/-! A browser tells a context of every write, the context's own included. As long as nothing else
writes to its location, what a context reads there is what it holds already, and its readings can be
dropped from a run, or put into it, unseen. -/

namespace HashTabs

open Log

namespace Session

/-- The steps of a run but for the readings of one context. -/
def withoutReadings (i : Nat) (sts : List Step) : List Step := sts.filter fun st => st ≠ ⟨i, .sync⟩

/-- What is seen of a run but for the readings of one context: after every other step, the session
and what the step came to. -/
def seenWithoutReadings (s : Session) (i : Nat) (sts : List Step) : List (Session × Outcome) :=
  ((s.moments sts).filter fun p => p.2 ≠ ⟨i, .sync⟩).map fun p => p.1.step p.2

/-- Holds of steps in the course of which nothing but one context stores a hash. -/
def WritesAlone (s : Session) (i : Nat) (sts : List Step) : Prop :=
  ∀ p ∈ s.moments sts, ∀ e, p.1.effect? p.2 = some e → e.stored? = none ∨ e.actor? = some i

theorem writesAlone_cons {s : Session} {i : Nat} {st : Step} {sts : List Step} :
    s.WritesAlone i (st :: sts) ↔
      (∀ e, s.effect? st = some e → e.stored? = none ∨ e.actor? = some i) ∧
        (s.step st).1.WritesAlone i sts := by
  rw [WritesAlone, moments, List.forall_mem_cons]
  rfl

theorem current_start (hash : Option String) (config : Logged Config) (i : Nat) :
    (start hash config).value.Current i := by
  intro n hn
  cases i with
  | zero =>
    cases hash <;>
    · obtain rfl := Option.some.inj hn
      rfl
  | succ i => cases hash <;> cases hn

theorem Current.step {s : Session} {i : Nat} {st : Step} (hc : s.Current i)
    (h : ∀ e, s.effect? st = some e → e.stored? = none ∨ e.actor? = some i) :
    (s.step st).1.Current i :=
  step_keeps (P := (·.Current i)) hc fun e he ha => hc.apply ha ((h e he).imp_right .inr)

/-- A context that holds the tab of its hash reads it again to no effect. -/
theorem Current.step_reading {s : Session} {i : Nat} (hc : s.Current i) :
    (s.step ⟨i, .sync⟩).1 = s := by
  cases hn : s.contexts.get? i with
  | none => rw [Session.step, hn]
  | some n => rw [step_sync_of_current hn (hc n hn)]

/-! ## Readings dropped from a run -/

theorem withoutReadings_cons_self (i : Nat) (sts : List Step) :
    withoutReadings i (⟨i, .sync⟩ :: sts) = withoutReadings i sts :=
  List.filter_cons_of_neg (by simp)

theorem withoutReadings_cons_of_ne {i : Nat} {st : Step} (h : st ≠ ⟨i, .sync⟩) (sts : List Step) :
    withoutReadings i (st :: sts) = st :: withoutReadings i sts :=
  List.filter_cons_of_pos (by simpa using h)

theorem writesAlone_withoutReadings {s : Session} {i : Nat} (hc : s.Current i) (sts : List Step) :
    s.WritesAlone i (withoutReadings i sts) ↔ s.WritesAlone i sts := by
  -- By induction on the steps: after a reading, the rest of both runs begins in the same session.
  induction sts generalizing s with
  | nil => rfl
  | cons st sts ih =>
    by_cases hst : st = ⟨i, .sync⟩
    · subst hst
      have hreads : ∀ e, s.effect? ⟨i, .sync⟩ = some e → e.stored? = none ∨ e.actor? = some i := by
        intro e he
        obtain ⟨n, -, hsync⟩ := Option.bind_eq_some_iff.mp he
        obtain rfl := Option.some.inj hsync
        exact .inl rfl
      rw [withoutReadings_cons_self, writesAlone_cons, hc.step_reading, ih hc, and_iff_right hreads]
    · rw [withoutReadings_cons_of_ne hst, writesAlone_cons, writesAlone_cons]
      exact and_congr_right fun h => ih (hc.step h)

/-- Every other step is taken in the same session, with the readings and without them. -/
theorem filter_moments {s : Session} {i : Nat} {sts : List Step} (hc : s.Current i)
    (hw : s.WritesAlone i sts) :
    (s.moments sts).filter (fun p => p.2 ≠ ⟨i, .sync⟩) = s.moments (withoutReadings i sts) := by
  induction sts generalizing s with
  | nil => rfl
  | cons st sts ih =>
    obtain ⟨hfirst, hrest⟩ := writesAlone_cons.mp hw
    by_cases hst : st = ⟨i, .sync⟩
    · subst hst
      rw [hc.step_reading] at hrest
      rw [moments, hc.step_reading, List.filter_cons_of_neg (by simp), withoutReadings_cons_self]
      exact ih hc hrest
    · rw [moments, List.filter_cons_of_pos (by simpa using hst), withoutReadings_cons_of_ne hst,
        moments, ih (hc.step hfirst) hrest]

theorem seenWithoutReadings_eq_run {s : Session} {i : Nat} {sts : List Step} (hc : s.Current i)
    (hw : s.WritesAlone i sts) :
    s.seenWithoutReadings i sts = s.run (withoutReadings i sts) := by
  rw [seenWithoutReadings, filter_moments hc hw, run_eq_map_moments]

/-! ## Runs in which one context selects -/

theorem mem_of_mem_moments {s : Session} {sts : List Step} {p : Session × Step}
    (hp : p ∈ s.moments sts) : p.2 ∈ sts := by
  induction sts generalizing s with
  | nil => cases hp
  | cons st sts ih =>
    rcases List.mem_cons.mp hp with rfl | hp
    · exact List.mem_cons_self
    · exact List.mem_cons_of_mem st (ih hp)

theorem grounded_of_mem_moments {s : Session} (hg : s.Grounded) {sts : List Step}
    {p : Session × Step} (hp : p ∈ s.moments sts) : p.1.Grounded :=
  forall_moments hg (fun p _ hg => hg.step p.2) p hp

theorem writesAlone_of_selections {s : Session} {i : Nat} {sts : List Step} (hg : s.Grounded)
    (no_edit : ∀ st ∈ sts, ∀ value, st.action ≠ .setHash value)
    (alone : ∀ j, j ≠ i → s.selections j sts = []) : s.WritesAlone i sts := by
  intro p hp e he
  cases e with
  | select j t =>
    by_cases hj : j = i
    · exact .inr (congrArg some hj)
    · -- The tab would be among the selections of the other context.
      have hselected : p.1.selected? j p.2 = some t := by
        rw [selected?_eq (grounded_of_mem_moments hg hp), he]
        exact if_pos rfl
      have hmem : t ∈ s.selections j sts := List.mem_filterMap.mpr ⟨p, hp, hselected⟩
      rw [alone j hj] at hmem
      cases hmem
  | edit v =>
    obtain ⟨n, -, haction⟩ := Option.bind_eq_some_iff.mp he
    exact absurd (action_of_effectOf? haction) (no_edit p.2 (mem_of_mem_moments hp) (some v))
  | _ => exact .inl rfl

end Session

/-- Take a run in which no hash is stored from outside, and no context but one selects, told to or by
a click. Leave out readings of that context, or put in more, wherever you like: every other step
finds the same session and comes to the same. And every reading of the context, once it is made,
answers that its tab has not changed, sets no title and leaves the session as it is. -/
theorem own_writes_echo_unseen (hash : Option String) (config : Logged Config) (i : Nat)
    (steps : List Step) (no_edit : ∀ st ∈ steps, ∀ value, st.action ≠ .setHash value)
    (alone : ∀ j, j ≠ i → (Session.start hash config).value.selections j steps = []) :
    let s₀ := (Session.start hash config).value
    ∀ steps', Session.withoutReadings i steps' = Session.withoutReadings i steps →
      s₀.seenWithoutReadings i steps' = s₀.run (Session.withoutReadings i steps) ∧
      ∀ p ∈ s₀.moments steps', p.2 = ⟨i, .sync⟩ → i < p.1.contexts.toList.length →
        (p.1.step p.2).1 = p.1 ∧ (p.1.step p.2).2.result = .ok (.changed false) ∧
        (p.1.step p.2).2.titles = [] := by
  intro s₀ steps' hsame
  have hcurrent : s₀.Current i := Session.current_start hash config i
  have hsteps : s₀.WritesAlone i steps :=
    Session.writesAlone_of_selections (Session.grounded_start hash config) no_edit alone
  -- Readings store nothing, so the one run is written to by the context alone just as the other is.
  have hsteps' : s₀.WritesAlone i steps' := by
    rw [← Session.writesAlone_withoutReadings hcurrent, hsame,
      Session.writesAlone_withoutReadings hcurrent]
    exact hsteps
  refine ⟨hsame ▸ Session.seenWithoutReadings_eq_run hcurrent hsteps', fun p hp hread hi => ?_⟩
  have hp_current : p.1.Current i :=
    Session.forall_moments (P := (·.Current i)) hcurrent
      (fun q hq hc => hc.step (hsteps' q hq)) p hp
  obtain ⟨n, hn⟩ := Contexts.exists_get?_of_lt hi
  rw [hread, Session.step_sync_of_current hn (hp_current n hn)]
  exact ⟨rfl, rfl, rfl⟩

/-- The second of two contexts selects a tab, and a button of the page that uses it is clicked. What it
reads in between is unseen, though the first context finds another tab in the same place. -/
theorem echoes_of_select_and_click_unseen :
    let s₀ := (Session.start (some "#bogus") ⟨{}, []⟩).value
    let steps : List Step := [⟨0, .attach⟩, ⟨1, .select "settings"⟩, ⟨0, .sync⟩,
      ⟨1, .mount { component := "TabBar" }⟩, ⟨0, .click 1 none⟩, ⟨0, .sync⟩]
    let steps' : List Step := [⟨0, .attach⟩, ⟨1, .sync⟩, ⟨1, .select "settings"⟩, ⟨1, .sync⟩,
      ⟨1, .sync⟩, ⟨0, .sync⟩, ⟨1, .mount { component := "TabBar" }⟩, ⟨0, .click 1 none⟩,
      ⟨1, .sync⟩, ⟨0, .sync⟩]
    s₀.seenWithoutReadings 1 steps' = s₀.run steps := by
  intro s₀ steps steps'
  have heffects : s₀.effects steps = [.attach 1, .select 1 .settings, .sync 0,
      .mount ⟨.context 1, [.connect, .devices, .settings], false⟩, .select 1 .devices, .sync 0] := by
    decide +kernel
  have alone : ∀ j, j ≠ 1 → s₀.selections j steps = [] := by
    intro j hj
    rw [Session.selections_eq (Session.grounded_start _ _), heffects]
    simp [Effect.selection?, hj.symm]
  have hrun := (own_writes_echo_unseen (some "#bogus") ⟨{}, []⟩ 1 steps (by simp [steps]) alone
    steps' (by decide +kernel)).1
  have hsteps : Session.withoutReadings 1 steps = steps := by decide +kernel
  rw [hsteps] at hrun
  exact hrun

end HashTabs
