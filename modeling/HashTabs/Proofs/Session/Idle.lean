import HashTabs.Proofs.Session.Titles

/-! Steps that leave a session as it is: the refused ones, and those that draw without mounting. The
other steps of a run come to the same without them. -/

namespace HashTabs

open Log

/-- Holds of an action that draws a component and keeps nothing of it. -/
def Action.isRender : Action → Bool
  | .render _ => true
  | _ => false

theorem Action.isRender_iff {a : Action} : a.isRender = true ↔ ∃ d, a = .render d := by
  cases a <;> simp [isRender]

namespace Session

/-- The steps of a run, each with the session after it and what it came to. -/
def record (s : Session) (sts : List Step) : List (Step × Session × Outcome) := sts.zip (s.run sts)

/-- Holds of a step on record that was neither refused nor there to draw alone. -/
def isLasting (r : Step × Session × Outcome) : Bool := r.2.2.result.isOk && !r.1.action.isRender

theorem record_cons (s : Session) (st : Step) (sts : List Step) :
    s.record (st :: sts) = (st, s.step st) :: (s.step st).1.record sts := rfl

theorem step_of_refused {s : Session} {st : Step} {e : Refusal}
    (h : (s.step st).2.result = .error e) : s.step st = (s, ⟨.error e, [], []⟩) := by
  cases hn : s.contexts.get? st.context with
  | none =>
    simp only [step, hn] at h ⊢
    rw [h]
  | some n =>
    rw [result_step hn] at h
    have hevents : ∀ e', (s.act st.context n st.action).value = .error e' →
        (s.act st.context n st.action).events = [] := fun _ => events_act_of_refused
    simp only [step, hn]
    generalize s.act st.context n st.action = r at h hevents ⊢
    obtain ⟨e' | ⟨after, answer⟩, events⟩ := r
    · obtain rfl : e' = e := Except.error.inj h
      obtain rfl : events = [] := hevents e' rfl
      rfl
    · cases h

theorem step_of_not_isLasting {s : Session} {st : Step} (h : isLasting (st, s.step st) = false) :
    (s.step st).1 = s := by
  rw [isLasting, Bool.and_eq_false_iff, Bool.not_eq_false'] at h
  rcases h with hrefused | hrender
  · cases hr : (s.step st).2.result with
    | error e => rw [step_of_refused hr]
    | ok a =>
      rw [hr] at hrefused
      cases hrefused
  · obtain ⟨d, hd⟩ := Action.isRender_iff.mp hrender
    exact step_render hd

/-- Steps that leave the session as it is can be struck from a run. All others are then taken in the
same sessions, and come to the same. -/
theorem run_of_idle {keep : Step × Session × Outcome → Bool}
    (idle : ∀ (s : Session) (st : Step), keep (st, s.step st) = false → (s.step st).1 = s)
    (s : Session) (sts : List Step) :
    s.run (((s.record sts).filter keep).map Prod.fst) =
        ((s.record sts).filter keep).map Prod.snd ∧
      s.after (((s.record sts).filter keep).map Prod.fst) = s.after sts := by
  induction sts generalizing s with
  | nil => exact ⟨rfl, rfl⟩
  | cons st sts ih =>
    obtain ⟨hrun, hafter⟩ := ih (s.step st).1
    rw [record_cons, after_cons]
    cases hk : keep (st, s.step st) with
    | true =>
      rw [List.filter_cons_of_pos hk, List.map_cons, List.map_cons, run, after_cons]
      exact ⟨congrArg _ hrun, hafter⟩
    | false =>
      -- What follows begins where the step that is struck began.
      have hsame := idle s st hk
      rw [List.filter_cons_of_neg (by simp [hk])]
      rw [hsame] at hrun hafter ⊢
      exact ⟨hrun, hafter⟩

end Session

/-- In every run, a step that is refused leaves the session as it is, sets no title and logs nothing,
and a step that draws without mounting leaves the session as it is and sets no title. Without all
these steps, every other step of the run answers the same, leaves the same contexts and mounts under
the same numbers, sets the same titles and logs the same. And a component whose drawing is broken off
has found no navigation, and has not left anything behind until then. -/
theorem refused_and_drawn_steps_leave_no_trace (hash : Option String) (config : Logged Config)
    (steps : List Step) :
    let s₀ := (Session.start hash config).value
    let s := Session.reached hash config steps
    let lasting := (s₀.record steps).filter Session.isLasting
    (∀ st e, (s.step st).2.result = .error e → s.step st = (s, ⟨.error e, [], []⟩)) ∧
    (∀ st d, st.action = .render d → (s.step st).1 = s ∧ (s.step st).2.titles = []) ∧
    s₀.run (lasting.map Prod.fst) = lasting.map Prod.snd ∧
    Session.reached hash config (lasting.map Prod.fst) = s ∧
    ∀ (k : Component) around t, (k.draw.run around t).1 = none →
      around.context? = none ∧ (k.draw.run around t).2 = t := by
  intro s₀ s lasting
  obtain ⟨hrun, hafter⟩ :=
    Session.run_of_idle (fun _ _ h => Session.step_of_not_isLasting h) s₀ steps
  exact ⟨fun st e he => Session.step_of_refused he,
    fun st d hd => ⟨Session.step_render hd, Session.titles_render hd⟩, hrun, hafter,
    fun k around t h => Component.run_of_broken_off h⟩

end HashTabs
