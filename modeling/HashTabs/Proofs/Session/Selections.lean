import HashTabs.Proofs.Session.Frame

/-! What the contexts of a session select in the course of a run, because they are told to or because
a button of a mount that uses them is clicked; and that nothing else in a run is a selection. -/

namespace HashTabs

open Log

/-- The tab that a context selects by an effect, if it does. -/
def Effect.selection? (i : Nat) : Effect → Option Tab
  | select j t => if j = i then some t else none
  | _ => none

theorem Effect.selection?_of_ne {e : Effect} {i : Nat} (h : e.actor? ≠ some i) :
    e.selection? i = none := by
  cases e with
  | select j t => exact if_neg fun hj => h (congrArg some hj)
  | _ => rfl

theorem Mount.owner_of_press {m : Mount} {t : Tab} {j : Nat} (h : (m.press t).owner = .context j) :
    m.owner = .context j := by
  unfold press at h
  split at h
  · exact h
  · cases h

namespace Session

/-- The steps of a run, each with the session in which it is taken. -/
def moments (s : Session) : List Step → List (Session × Step)
  | [] => []
  | st :: sts => (s, st) :: moments (s.step st).1 sts

/-- The tab that a step asks a context to select: outright, or by a click on a button of a mount that
uses the context. -/
def asked? (s : Session) (i : Nat) (st : Step) : Option Tab :=
  match st.action with
  | .select token => if st.context = i then Tab.ofToken? token else none
  | .click button number =>
    (s.mount? number).bind fun p => if p.2.owner = .context i then p.2.buttons[button]? else none
  | _ => none

/-- The tab that a context selects in a step: the one that the step asks for, unless it is refused. -/
def selected? (s : Session) (i : Nat) (st : Step) : Option Tab :=
  if (s.step st).2.result.isOk then s.asked? i st else none

/-- The tabs that a context selects in the course of steps, in order. -/
def selections (s : Session) (i : Nat) (sts : List Step) : List Tab :=
  (s.moments sts).filterMap fun p => p.1.selected? i p.2

theorem run_eq_map_moments (s : Session) (sts : List Step) :
    s.run sts = (s.moments sts).map fun p => p.1.step p.2 := by
  induction sts generalizing s with
  | nil => rfl
  | cons st sts ih => rw [run, moments, List.map_cons, ih]

/-- What holds of a session in the beginning, and is kept by every step of a run, holds throughout. -/
theorem forall_moments {P : Session → Prop} {s : Session} {sts : List Step} (start : P s)
    (keep : ∀ p ∈ s.moments sts, P p.1 → P (p.1.step p.2).1) : ∀ p ∈ s.moments sts, P p.1 := by
  induction sts generalizing s with
  | nil => exact fun p hp => nomatch hp
  | cons st sts ih =>
    rw [moments, List.forall_mem_cons] at keep ⊢
    exact ⟨start, ih (keep.1 start) keep.2⟩

/-! ## Mounts and the contexts that they use -/

/-- Holds of a session in which the contexts exist that its mounts use. -/
def Grounded (s : Session) : Prop :=
  ∀ (k : Nat) (m : Mount) (j : Nat), s.mounts[k]? = some (some m) → m.owner = .context j →
    j < s.contexts.toList.length

theorem grounded_start (hash : Option String) (config : Logged Config) :
    (start hash config).value.Grounded :=
  fun _ _ _ hm => nomatch hm

theorem Grounded.apply {s : Session} {e : Effect} (hg : s.Grounded) (ha : s.Admits e) :
    (s.apply e).Grounded := by
  intro k m' j hm' hj
  rw [length_apply]
  by_cases hk : k < s.mounts.length
  · obtain ⟨m, hm, hcase⟩ := standing_before hk hm'
    have howner : m.owner = .context j := by
      rcases hcase with rfl | ⟨t, rfl⟩
      · exact hj
      · exact Mount.owner_of_press hj
    have hlt := hg k m j hm howner
    omega
  · obtain ⟨hk', -⟩ := List.getElem?_eq_some_iff.mp hm'
    rcases s.length_mounts_apply e with hlen | ⟨m, rfl, hlen⟩
    · omega
    · -- It is the new mount, and it uses a context that there was when it was made.
      have hlast : k = s.mounts.length := by omega
      obtain rfl : m = m' := by simpa [Session.apply, hlast] using hm'
      exact ha j hj

theorem Grounded.step {s : Session} (hg : s.Grounded) (st : Step) : (s.step st).1.Grounded :=
  step_keeps hg fun _ _ ha => hg.apply ha

/-! ## Selections as effects -/

theorem isOk_step {s : Session} {st : Step} {n : Navigation}
    (hn : s.contexts.get? st.context = some n) :
    (s.step st).2.result.isOk = (s.act st.context n st.action).value.isOk := by
  rw [result_step hn]
  cases (s.act st.context n st.action).value <;> rfl

/-- A context selects a tab in a step just if that is the effect of the step. -/
theorem selected?_eq {s : Session} (hg : s.Grounded) (i : Nat) (st : Step) :
    s.selected? i st = (s.effect? st).bind (Effect.selection? i) := by
  cases hn : s.contexts.get? st.context with
  | none =>
    have hrefused : (s.step st).2.result.isOk = false := by
      rw [step, hn]
      rfl
    rw [selected?, hrefused, effect?, hn]
    rfl
  | some n =>
    rw [selected?, isOk_step hn, effect?, hn, Option.bind_some]
    cases ha : st.action with
    | select token =>
      cases ht : Tab.ofToken? token with
      | none => simp [act, effectOf?, asked?, ha, ht]
      | some t => simp [act, effectOf?, asked?, ha, ht, Effect.selection?, Except.isOk, Except.toBool]
    | click button number =>
      cases hm : s.mount? number with
      | none => simp [act, effectOf?, asked?, ha, hm]
      | some p =>
        cases hb : p.2.buttons[button]? with
        | none => simp [act, effectOf?, asked?, ha, hm, hb]
        | some t =>
          cases ho : p.2.owner with
          | context j =>
            obtain ⟨nj, hj⟩ := Contexts.exists_get?_of_lt (hg _ _ j (mount?_eq_some hm) ho)
            simp [act, effectOf?, asked?, ha, hm, hb, ho, clicked?, hj, Effect.selection?,
              Except.isOk, Except.toBool]
          | own n => simp [act, effectOf?, asked?, ha, hm, hb, ho, clicked?, Effect.selection?]
    | setHash value | mount d | unmount number | sync | attach | render d | refuse reason =>
      -- No other action asks for a tab, and none has a selection for its effect.
      have hask : s.asked? i st = none := by rw [asked?, ha]
      rw [hask, ite_self, eq_comm, Option.bind_eq_none_iff]
      intro e he
      have hcause := action_of_effectOf? he
      cases e with
      | select j t => simp at hcause
      | _ => rfl

theorem selections_cons (s : Session) (i : Nat) (st : Step) (sts : List Step) :
    s.selections i (st :: sts) =
      (s.selected? i st).toList ++ (s.step st).1.selections i sts := by
  rw [selections, moments, List.filterMap_cons]
  cases s.selected? i st <;> rfl

theorem selections_eq {s : Session} (hg : s.Grounded) (i : Nat) (sts : List Step) :
    s.selections i sts = (s.effects sts).filterMap (Effect.selection? i) := by
  induction sts generalizing s with
  | nil => rfl
  | cons st sts ih =>
    rw [selections_cons, selected?_eq hg, ih (hg.step st), effects, List.filterMap_append]
    cases s.effect? st with
    | none => rfl
    | some e => cases he : e.selection? i <;> simp [he]

end Session

end HashTabs
