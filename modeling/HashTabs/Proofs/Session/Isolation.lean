import HashTabs.Proofs.Session.Clicks
import HashTabs.Proofs.Session.Delivery
import HashTabs.Proofs.Session.Selections

/-! Contexts that each have a location of their own. None of them is ever behind its hash, and what one
of them has come to depends on the tabs that it selected and on nothing else. -/

namespace HashTabs

open Log

namespace Navigation

/-- A navigation outside a browser after it has selected tabs. -/
def ofSelections (ts : List Tab) : Navigation :=
  ts.foldl (fun n t => (n.select t).value) detached.value

theorem ofSelections_concat (ts : List Tab) (t : Tab) :
    ofSelections (ts ++ [t]) = ((ofSelections ts).select t).value := by
  rw [ofSelections, List.foldl_append]
  rfl

/-- Its hash is empty or that of a tab, and leads to the active tab. -/
theorem ofSelections_current (ts : List Tab) :
    ((ofSelections ts).location.hash = "" ∨
      ∃ t : Tab, (ofSelections ts).location.hash = "#" ++ t.token) ∧
    (ofSelections ts).context.active = Tab.ofFragment (ofSelections ts).location.hash := by
  -- By induction from the end: the last selection decides, and if there is none, the first hash.
  induction ts using List.reverseRecOn with
  | nil => exact ⟨.inl rfl, rfl⟩
  | append_singleton ts t ih =>
    rw [ofSelections_concat, hash_select, Tab.ofFragment_fragment]
    exact ⟨.inr ⟨t, rfl⟩, rfl⟩

end Navigation

theorem Effect.selections_concat (i : Nat) (h : List Effect) (e : Effect) :
    (h ++ [e]).filterMap (selection? i) =
      h.filterMap (selection? i) ++ (e.selection? i).toList := by
  rw [List.filterMap_append]
  cases he : e.selection? i <;> simp [he]

namespace Session

/-- Holds of a session whose contexts have a location of their own each and have come, by what happened,
to what their selections alone would make of them. -/
structure Apart (h : List Effect) (s : Session) : Prop where
  separate : s.contexts.isShared = false
  navigation : ∀ i n, s.contexts.get? i = some n →
    n = Navigation.ofSelections (h.filterMap (Effect.selection? i))
  unmade : ∀ i, s.contexts.toList.length ≤ i → h.filterMap (Effect.selection? i) = []

theorem apart_start (config : Logged Config) : Apart [] (start none config).value where
  separate := rfl
  navigation i n hn := by
    cases i with
    | zero => exact (Option.some.inj hn).symm
    | succ i => cases hn
  unmade _ _ := rfl

theorem Apart.apply {h : List Effect} {s : Session} {e : Effect} (hs : Apart h s)
    (ha : s.Admits e) : Apart (h ++ [e]) (s.apply e) where
  separate := by rw [isShared_apply, hs.separate]
  navigation i n hn := by
    rw [Effect.selections_concat]
    by_cases hi : e.actor? = some i
    · cases e with
      | select j t =>
        obtain rfl := Option.some.inj hi
        obtain ⟨old, hold⟩ := Contexts.exists_get?_of_lt ha
        rw [Session.apply, Contexts.get?_modify_self _ hold] at hn
        obtain rfl := Option.some.inj hn
        rw [Effect.selection?, if_pos rfl, Option.toList_some, Navigation.ofSelections_concat,
          ← hs.navigation j old hold]
      | sync j =>
        obtain rfl := Option.some.inj hi
        obtain ⟨old, hold⟩ := Contexts.exists_get?_of_lt ha
        rw [Session.apply, Contexts.get?_modify_self _ hold] at hn
        obtain rfl := Option.some.inj hn
        -- What it reads is what it wrote itself.
        have hsame := hs.navigation j old hold
        have hcurrent := (Navigation.ofSelections_current (h.filterMap (Effect.selection? j))).2
        rw [← hsame] at hcurrent
        have hnone : (Effect.sync j).selection? j = none := rfl
        rw [Navigation.sync_of_current hcurrent, hnone, Option.toList_none, List.append_nil]
        exact hsame
      | attach j =>
        obtain rfl := Option.some.inj hi
        obtain rfl : j = s.contexts.toList.length := ha
        rw [Session.apply, Contexts.get?_attach_length_of_separate hs.separate] at hn
        obtain rfl := Option.some.inj hn
        rw [hs.unmade _ (Nat.le_refl _)]
        rfl
      | _ => cases hi
    · rw [get?_apply_of_ne ha hi (.inr hs.separate)] at hn
      rw [e.selection?_of_ne hi, Option.toList_none, List.append_nil]
      exact hs.navigation i n hn
  unmade i hi := by
    rw [length_apply] at hi
    have hother : e.selection? i = none := by
      cases e with
      | select j t =>
        have hj : j < s.contexts.toList.length := ha
        exact if_neg (by omega)
      | _ => rfl
    rw [Effect.selections_concat, hs.unmade i (by omega), hother]
    rfl

theorem apart_reached (config : Logged Config) (steps : List Step) :
    Apart ((start none config).value.effects steps) (reached none config steps) :=
  after_induction (P := Apart) (apart_start config) (fun _ _ _ hs ha => hs.apply ha) steps

theorem get?_after_selects {s : Session} {i : Nat} {n : Navigation}
    (hn : s.contexts.get? i = some n) (ts : List Tab) :
    (s.after (ts.map fun t => ⟨i, .select t.token⟩)).contexts.get? i =
      some (ts.foldl (fun n t => (n.select t).value) n) := by
  induction ts generalizing s n with
  | nil => exact hn
  | cons t ts ih =>
    rw [List.map_cons, after_cons, step_select hn]
    exact ih (Contexts.get?_set_self hn _)

theorem get?_eq_of_reached {config : Logged Config} {steps : List Step} {i : Nat} {n : Navigation}
    (hn : (reached none config steps).contexts.get? i = some n) :
    n = Navigation.ofSelections ((start none config).value.selections i steps) := by
  rw [selections_eq (grounded_start none config)]
  exact (apart_reached config steps).navigation i n hn

end Session

/-- In a run over no shared location, the hash of each context is empty or that of a tab, and leads to
the tab that it holds, so that to read it again changes nothing. A context is what a session makes of
its first context that does nothing but select, one after the other, the tabs that it selected, told
to or by clicks; and two contexts that selected the same tabs are the same, whatever else happened in
the runs that they come from. -/
theorem separate_context_is_its_selections (config : Logged Config) (steps : List Step) :
    let s₀ := (Session.start none config).value
    let s := Session.reached none config steps
    ∀ i n, s.contexts.get? i = some n →
      (n.location.hash = "" ∨ ∃ t : Tab, n.location.hash = "#" ++ t.token) ∧
      n.context.active = Tab.ofFragment n.location.hash ∧
      s.step ⟨i, .sync⟩ = (s, ⟨.ok (.changed false), [], n.location.tab.events⟩) ∧
      (Session.reached none config
        ((s₀.selections i steps).map fun t => ⟨0, .select t.token⟩)).contexts.get? 0 = some n ∧
      ∀ config' steps' i' n',
        (Session.reached none config' steps').contexts.get? i' = some n' →
        (Session.start none config').value.selections i' steps' = s₀.selections i steps → n' = n := by
  intro s₀ s i n hn
  have hself := Session.get?_eq_of_reached hn
  obtain ⟨hhash, hactive⟩ := Navigation.ofSelections_current (s₀.selections i steps)
  rw [← hself] at hhash hactive
  refine ⟨hhash, hactive, Session.step_sync_of_current hn hactive, ?_,
    fun config' steps' i' n' hn' hsame => ?_⟩
  · have hfirst : s₀.contexts.get? 0 = some Navigation.detached.value := rfl
    rw [hself]
    exact Session.get?_after_selects hfirst _
  · rw [hself, ← hsame]
    exact Session.get?_eq_of_reached hn'

end HashTabs
