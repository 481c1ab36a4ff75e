import HashTabs.Proofs.Session.Delivery
import HashTabs.Proofs.Session.Selections

/-! How often a context has told its watchers to look again: once for each tab that it selected, even
if that was active before, and once for each time that it read its location and found another tab. -/

namespace HashTabs

open Log

theorem Navigation.notified_sync (n : Navigation) :
    n.sync.value.1.context.notified = n.context.notified + n.sync.value.2.toNat := by
  unfold sync
  dsimp only
  split <;> rfl

namespace Session

/-- Holds of a step by which a context reads its location again, and which answers that its tab has
changed. -/
def findsChange (s : Session) (i : Nat) (st : Step) : Bool :=
  st = ⟨i, .sync⟩ && match (s.step st).2.result with
    | .ok (.changed b) => b
    | _ => false

/-- How often a context has told its watchers to look again; not at all before it is made. -/
def notified (s : Session) (i : Nat) : Nat := ((s.contexts.context? i).map (·.notified)).getD 0

theorem findsChange_sync {s : Session} {i : Nat} {n : Navigation} (hn : s.contexts.get? i = some n) :
    s.findsChange i ⟨i, .sync⟩ = n.sync.value.2 := by
  rw [findsChange, step_sync hn, decide_eq_true rfl]
  rfl

theorem eq_sync_of_effect? {s : Session} {st : Step} {i : Nat} (h : s.effect? st = some (.sync i)) :
    st = ⟨i, .sync⟩ := by
  obtain ⟨n, -, he⟩ := Option.bind_eq_some_iff.mp h
  obtain ⟨haction, rfl⟩ := action_of_effectOf? he
  exact congrArg (Step.mk st.context) haction

theorem findsChange_of_other_effect {s : Session} {st : Step} {i : Nat}
    (h : s.effect? st ≠ some (.sync i)) : s.findsChange i st = false := by
  by_cases hst : st = ⟨i, .sync⟩
  · subst hst
    -- A reading without effect is one of a context that does not exist.
    cases hn : s.contexts.get? i with
    | none => simp [findsChange, step, hn]
    | some n => exact absurd (by simp [effect?, hn, effectOf?]) h
  · rw [findsChange, decide_eq_false hst]
    rfl

theorem notified_of_context? {s : Session} {i : Nat} {c : Context}
    (h : s.contexts.context? i = some c) : s.notified i = c.notified := by
  rw [notified, h]
  rfl

theorem notified_of_unmade {s : Session} {i : Nat} (h : s.contexts.toList.length ≤ i) :
    s.notified i = 0 := by
  rw [notified, Contexts.context?_eq_none h]
  rfl

theorem notified_start (hash : Option String) (config : Logged Config) (i : Nat) :
    (start hash config).value.notified i = 0 := by
  cases hash <;> cases i <;> rfl

/-- A step adds one if it makes the context select, and one if it makes it read and find another
tab. -/
theorem notified_step {s : Session} (hg : s.Grounded) (i : Nat) (st : Step) :
    (s.step st).1.notified i =
      s.notified i + (s.selected? i st).toList.length + (s.findsChange i st).toNat := by
  rw [selected?_eq hg]
  cases he : s.effect? st with
  | none =>
    rw [step_of_no_effect he, findsChange_of_other_effect (by simp [he])]
    rfl
  | some e =>
    have ha := admits_of_effect? he
    rw [step_of_effect? he, Option.bind_some]
    by_cases hi : e.actor? = some i
    · cases e with
      | select j t =>
        obtain rfl := Option.some.inj hi
        obtain ⟨n, hn⟩ := Contexts.exists_get?_of_lt ha
        have hnow : (s.apply (.select j t)).notified j = (n.select t).value.context.notified :=
          notified_of_context? (Contexts.context?_modify_self _ hn)
        rw [hnow, notified_of_context? (Contexts.context?_of_get? hn), Effect.selection?,
          if_pos rfl, findsChange_of_other_effect (by simp [he])]
        rfl
      | sync j =>
        obtain rfl := Option.some.inj hi
        obtain ⟨n, hn⟩ := Contexts.exists_get?_of_lt ha
        obtain rfl := eq_sync_of_effect? he
        have hnow : (s.apply (.sync j)).notified j = n.sync.value.1.context.notified :=
          notified_of_context? (Contexts.context?_modify_self _ hn)
        rw [hnow, notified_of_context? (Contexts.context?_of_get? hn), findsChange_sync hn,
          Navigation.notified_sync]
        rfl
      | attach j =>
        obtain rfl := Option.some.inj hi
        obtain rfl : j = s.contexts.toList.length := ha
        obtain ⟨n, hn, hc⟩ := s.contexts.get?_attach_length
        have hnow : (s.apply (.attach s.contexts.toList.length)).notified
            s.contexts.toList.length = n.context.notified :=
          notified_of_context? (Contexts.context?_of_get? hn)
        rw [hnow, hc, notified_of_unmade (Nat.le_refl _),
          findsChange_of_other_effect (by simp [he])]
        rfl
      | _ => cases hi
    · -- A context that does nothing itself tells nobody anything.
      have hother : s.effect? st ≠ some (.sync i) := fun h =>
        hi (by rw [Option.some.inj (he.symm.trans h)]; rfl)
      rw [notified, context?_apply_of_ne ha hi, e.selection?_of_ne hi,
        findsChange_of_other_effect hother]
      rfl

theorem notified_after {s : Session} (hg : s.Grounded) (i : Nat) (sts : List Step) :
    (s.after sts).notified i =
      s.notified i + (s.selections i sts).length +
        (s.moments sts).countP fun p => p.1.findsChange i p.2 := by
  induction sts generalizing s with
  | nil => rfl
  | cons st sts ih =>
    rw [after_cons, ih (hg.step st), notified_step hg, selections_cons, List.length_append, moments,
      List.countP_cons]
    cases s.findsChange i st <;> simp <;> omega

/-- A step tells the watchers of one context at most, and tells them once. -/
theorem exists_notified_step (s : Session) (st : Step) :
    ∃ i, ∀ j c, s.contexts.context? j = some c →
      ∃ c', (s.step st).1.contexts.context? j = some c' ∧
        (c'.notified = c.notified ∨ j = i ∧ c'.notified = c.notified + 1) := by
  cases he : s.effect? st with
  | none =>
    rw [step_of_no_effect he]
    exact ⟨0, fun _ c hc => ⟨c, hc, .inl rfl⟩⟩
  | some e =>
    have ha := admits_of_effect? he
    rw [step_of_effect? he]
    refine ⟨e.actor?.getD 0, fun j c hc => ?_⟩
    by_cases hj : e.actor? = some j
    · obtain ⟨c', hc', hnext⟩ := context?_apply_next ha hc
      refine ⟨c', hc', hnext.imp (congrArg Context.notified) fun h => ⟨?_, h⟩⟩
      rw [hj]
      rfl
    · exact ⟨c, by rw [context?_apply_of_ne ha hj, hc], .inl rfl⟩

end Session

/-- After any run, a context has told its watchers to look again as often as it has selected a tab,
told to or by a click on a mount that uses it, and has read its location and answered that its tab
has changed. A reading answers so just if the hash leads to another tab than the active one, and
just if it changes the active tab. Any step tells the watchers of one context at most, and tells them
once. -/
theorem notified_counts_selections_and_changes (hash : Option String) (config : Logged Config)
    (steps : List Step) :
    let s₀ := (Session.start hash config).value
    let s := Session.reached hash config steps
    (∀ i n, s.contexts.get? i = some n →
      n.context.notified = (s₀.selections i steps).length +
        (s₀.moments steps).countP fun p => p.1.findsChange i p.2) ∧
    (∀ i n, s.contexts.get? i = some n → ∃ n' b,
      (s.step ⟨i, .sync⟩).1.contexts.get? i = some n' ∧
      (s.step ⟨i, .sync⟩).2.result = .ok (.changed b) ∧
      (b = true ↔ Tab.ofFragment n.location.hash ≠ n.context.active) ∧
      (b = true ↔ n'.context.active ≠ n.context.active)) ∧
    ∀ st, ∃ i, ∀ j c, s.contexts.context? j = some c →
      ∃ c', (s.step st).1.contexts.context? j = some c' ∧
        (c'.notified = c.notified ∨ j = i ∧ c'.notified = c.notified + 1) := by
  intro s₀ s
  refine ⟨fun i n hn => ?_, fun i n hn => ?_, s.exists_notified_step⟩
  · have hnow : s.notified i = n.context.notified :=
      Session.notified_of_context? (Contexts.context?_of_get? hn)
    have hcount : s.notified i = _ :=
      Session.notified_after (Session.grounded_start hash config) i steps
    rw [← hnow, hcount, Session.notified_start, Nat.zero_add]
  · refine ⟨n.sync.value.1, n.sync.value.2, ?_, ?_, ?_, ?_⟩
    · rw [Session.step_sync hn]
      exact Contexts.get?_set_self hn _
    · rw [Session.step_sync hn]
    · rw [n.sync_changed, decide_eq_true_iff]
      exact ne_comm
    · rw [n.sync_changed, decide_eq_true_iff, n.active_sync]
      exact ne_comm

-- Selecting the active tab counts, and reading it in another spelling does not.
example :
    let s := Session.reached (some "#devices") ⟨{}, []⟩
      [⟨0, .select "devices"⟩, ⟨0, .setHash (some "# devices ")⟩, ⟨0, .sync⟩,
        ⟨0, .setHash (some "#settings")⟩, ⟨0, .sync⟩]
    s.contexts.context? 0 = some ⟨.settings, 2⟩ := by
  decide +kernel

end HashTabs
