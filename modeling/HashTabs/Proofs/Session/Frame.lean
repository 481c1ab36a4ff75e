import HashTabs.Proofs.Session.Effect

/-! What an effect changes, and what it leaves alone: which hash it stores, which context it is the
doing of, and which mount it reaches. -/

namespace HashTabs

open Log

namespace Effect

/-- What an effect stores in the shared location, if it stores anything. -/
def stored? : Effect → Option String
  | select _ t => some t.fragment
  | edit v => some (normalizeHash v)
  | _ => none

/-- The context that an effect is the doing of: the one that is made, selects or reads. -/
def actor? : Effect → Option Nat
  | select i _ | sync i | attach i => some i
  | _ => none

def adds : Effect → Nat
  | attach _ => 1
  | _ => 0

def onMount (i : Nat) : Effect → Option Mount → Option Mount
  | press k t, x => if k = i then x.map (Mount.press t) else x
  | unmount k, x => if k = i then none else x
  | _, x => x

end Effect

/-- A context after one effect: as it was, or with watchers who were told once to look again. -/
def Context.Next (c c' : Context) : Prop := c' = c ∨ c'.notified = c.notified + 1

theorem Navigation.next_select (n : Navigation) (t : Tab) :
    n.context.Next (n.select t).value.context := .inr rfl

theorem Navigation.next_sync (n : Navigation) : n.context.Next n.sync.value.1.context := by
  unfold sync
  dsimp only
  split
  · exact .inl rfl
  · exact .inr rfl

/-- A mount later on: it keeps its buttons, and the sort of navigation that it uses. -/
structure Mount.Becomes (m m' : Mount) : Prop where
  buttons : m'.buttons = m.buttons
  setsTitle : m'.setsTitle = m.setsTitle
  context : ∀ j, m.owner = .context j → m'.owner = .context j
  own : ∀ n, m.owner = .own n → ∃ n', m'.owner = .own n'

namespace Mount.Becomes

theorem refl (m : Mount) : m.Becomes m := ⟨rfl, rfl, fun _ h => h, fun n h => ⟨n, h⟩⟩

theorem trans {m₁ m₂ m₃ : Mount} (h : m₁.Becomes m₂) (h' : m₂.Becomes m₃) : m₁.Becomes m₃ where
  buttons := h'.buttons.trans h.buttons
  setsTitle := h'.setsTitle.trans h.setsTitle
  context j hj := h'.context j (h.context j hj)
  own n hn := by
    obtain ⟨n', hn'⟩ := h.own n hn
    exact h'.own n' hn'

theorem press (t : Tab) (m : Mount) : m.Becomes (m.press t) := by
  unfold Mount.press
  split
  · exact refl m
  · rename_i n hn
    refine ⟨rfl, rfl, fun j hj => ?_, fun _ _ => ⟨_, rfl⟩⟩
    rw [hn] at hj
    cases hj

end Mount.Becomes

namespace Session

/-! ## What an effect does to the contexts -/

theorem length_apply (s : Session) (e : Effect) :
    (s.apply e).contexts.toList.length = s.contexts.toList.length + e.adds := by
  cases e <;> simp [apply, Effect.adds]

theorem hash?_apply {s : Session} {e : Effect} (ha : s.Admits e) :
    (s.apply e).contexts.hash? = s.contexts.hash?.map fun x => e.stored?.getD x := by
  cases e with
  | select i t =>
    obtain ⟨n, hn⟩ := Contexts.exists_get?_of_lt ha
    simp only [apply, Contexts.hash?_modify _ hn, Navigation.hash_select]
    rfl
  | sync i =>
    obtain ⟨n, hn⟩ := Contexts.exists_get?_of_lt ha
    simp only [apply, Contexts.hash?_modify _ hn, Navigation.location_sync]
    -- Reading puts the location back as it is.
    cases hx : s.contexts.hash? with
    | none => rfl
    | some x => exact congrArg some (Contexts.hash_of_get? hx hn)
  | edit v => simp [apply, Effect.stored?]
  | attach i => simp [apply, Effect.stored?]
  | mount m => simp [apply, Effect.stored?]
  | press i t => simp [apply, Effect.stored?]
  | unmount i => simp [apply, Effect.stored?]

/-- A context stays as it is unless it does something itself. -/
theorem context?_apply_of_ne {s : Session} {e : Effect} {i : Nat} (ha : s.Admits e)
    (hi : e.actor? ≠ some i) : (s.apply e).contexts.context? i = s.contexts.context? i := by
  cases e with
  | select j t => exact Contexts.context?_modify_ne _ _ fun h => hi (congrArg some h)
  | sync j => exact Contexts.context?_modify_ne _ _ fun h => hi (congrArg some h)
  | edit v => exact Contexts.context?_setHash _ _ _
  | attach j =>
    obtain rfl : j = s.contexts.toList.length := ha
    have hne : i ≠ s.contexts.toList.length := fun h => hi (congrArg some h.symm)
    by_cases hlt : i < s.contexts.toList.length
    · exact Contexts.context?_attach_of_lt hlt
    · -- There is no such context, neither before nor after.
      have hle : (s.apply (.attach s.contexts.toList.length)).contexts.toList.length ≤ i := by
        rw [length_apply, Effect.adds]
        omega
      rw [Contexts.context?_eq_none hle, Contexts.context?_eq_none (by omega)]
  | mount m => rfl
  | press j t => rfl
  | unmount j => rfl

/-- An effect tells the watchers of a context at most once. -/
theorem context?_apply_next {s : Session} {e : Effect} {i : Nat} {c : Context}
    (ha : s.Admits e) (hc : s.contexts.context? i = some c) :
    ∃ c', (s.apply e).contexts.context? i = some c' ∧ c.Next c' := by
  by_cases hi : e.actor? = some i
  · obtain ⟨n, hn, rfl⟩ := Option.map_eq_some_iff.mp hc
    cases e with
    | select j t =>
      obtain rfl := Option.some.inj hi
      exact ⟨_, Contexts.context?_modify_self _ hn, n.next_select t⟩
    | sync j =>
      obtain rfl := Option.some.inj hi
      exact ⟨_, Contexts.context?_modify_self _ hn, n.next_sync⟩
    | attach j =>
      -- A context that is only now made was not there before.
      obtain rfl := Option.some.inj hi
      have hlt := Contexts.get?_lt hn
      have heq : j = s.contexts.toList.length := ha
      omega
    | _ => cases hi
  · exact ⟨c, by rw [context?_apply_of_ne ha hi, hc], .inl rfl⟩

@[simp] theorem isShared_apply (s : Session) (e : Effect) :
    (s.apply e).contexts.isShared = s.contexts.isShared := by
  cases e <;> simp [apply]

/-- Nor does its location change, unless it is shared and something is stored there. -/
theorem get?_apply_of_ne {s : Session} {e : Effect} {i : Nat} (ha : s.Admits e)
    (hi : e.actor? ≠ some i) (hs : e.stored? = none ∨ s.contexts.isShared = false) :
    (s.apply e).contexts.get? i = s.contexts.get? i := by
  cases e with
  | select j t =>
    have hseparate : s.contexts.isShared = false := hs.resolve_left nofun
    exact Contexts.get?_modify_of_ne (.inr hseparate) fun h => hi (congrArg some h)
  | sync j =>
    exact Contexts.get?_modify_of_ne (.inl Navigation.location_sync) fun h => hi (congrArg some h)
  | edit v =>
    have hshared : s.contexts.isShared = true := ha
    exact absurd hshared (by rw [hs.resolve_left nofun]; decide)
  | attach j =>
    obtain rfl : j = s.contexts.toList.length := ha
    have hne : i ≠ s.contexts.toList.length := fun h => hi (congrArg some h.symm)
    by_cases hlt : i < s.contexts.toList.length
    · exact Contexts.get?_attach_of_lt hlt
    · have hlen := length_apply s (.attach s.contexts.toList.length)
      rw [Effect.adds] at hlen
      rw [Contexts.get?, Contexts.get?, List.getElem?_eq_none (by omega),
        List.getElem?_eq_none (by omega)]
  | mount m => rfl
  | press j t => rfl
  | unmount j => rfl

/-- Holds if a context holds the tab to which the hash of its location leads. -/
def Current (s : Session) (i : Nat) : Prop :=
  ∀ n, s.contexts.get? i = some n → n.context.active = Tab.ofFragment n.location.hash

theorem current_apply_of_actor {s : Session} {e : Effect} {i : Nat} (ha : s.Admits e)
    (hi : e.actor? = some i) : (s.apply e).Current i := by
  intro n' hn'
  cases e with
  | select j t =>
    obtain rfl := Option.some.inj hi
    obtain ⟨n, hn⟩ := Contexts.exists_get?_of_lt ha
    rw [apply, Contexts.get?_modify_self _ hn] at hn'
    obtain rfl := Option.some.inj hn'
    rw [Navigation.hash_select, Tab.ofFragment_fragment]
    rfl
  | sync j =>
    obtain rfl := Option.some.inj hi
    obtain ⟨n, hn⟩ := Contexts.exists_get?_of_lt ha
    rw [apply, Contexts.get?_modify_self _ hn] at hn'
    obtain rfl := Option.some.inj hn'
    rw [Navigation.active_sync, Navigation.location_sync]
  | attach j =>
    obtain rfl := Option.some.inj hi
    obtain rfl : j = s.contexts.toList.length := ha
    obtain ⟨n, hn, hc⟩ := s.contexts.get?_attach_length
    obtain rfl : n = n' := Option.some.inj (hn.symm.trans hn')
    rw [hc]
  | _ => cases hi

/-- Only what another writes into its location can leave a context with a tab that is out of date. -/
theorem Current.apply {s : Session} {e : Effect} {i : Nat} (hc : s.Current i) (ha : s.Admits e)
    (h : e.stored? = none ∨ s.contexts.isShared = false ∨ e.actor? = some i) :
    (s.apply e).Current i := by
  by_cases hi : e.actor? = some i
  · exact current_apply_of_actor ha hi
  · intro n hn
    rw [get?_apply_of_ne ha hi (h.imp_right fun h => h.resolve_right hi)] at hn
    exact hc n hn

/-- After what a context does itself, it holds the tab that the shared hash then leads to. -/
theorem active_apply_of_actor {s : Session} {e : Effect} {i : Nat} {x : String} {c : Context}
    (ha : s.Admits e) (hx : s.contexts.hash? = some x) (hi : e.actor? = some i)
    (hc : (s.apply e).contexts.context? i = some c) :
    c.active = Tab.ofFragment (e.stored?.getD x) := by
  obtain ⟨n, hn, rfl⟩ := Option.map_eq_some_iff.mp hc
  have hshared : (s.apply e).contexts.hash? = some (e.stored?.getD x) := by
    rw [hash?_apply ha, hx]
    rfl
  rw [current_apply_of_actor ha hi n hn, Contexts.hash_of_get? hshared hn]

/-! ## What an effect does to the mounts -/

@[simp] theorem config_apply (s : Session) (e : Effect) : (s.apply e).config = s.config := by
  cases e <;> rfl

theorem getElem?_mounts_apply {s : Session} {i : Nat} {x : Option Mount} (e : Effect)
    (hx : s.mounts[i]? = some x) : (s.apply e).mounts[i]? = some (e.onMount i x) := by
  obtain ⟨hi, -⟩ := List.getElem?_eq_some_iff.mp hx
  cases e with
  -- The new mount comes after all others.
  | mount m => exact (List.getElem?_append_left hi).trans hx
  | press k t =>
    rw [apply, Effect.onMount, List.getElem?_modify, hx]
    split <;> rfl
  | unmount k =>
    rw [apply, Effect.onMount]
    split
    · rename_i hk
      rw [hk, List.getElem?_set_self hi]
    · rename_i hk
      rw [List.getElem?_set_ne hk, hx]
  | _ => exact hx

theorem length_mounts_apply (s : Session) (e : Effect) :
    (s.apply e).mounts.length = s.mounts.length ∨
      ∃ m, e = .mount m ∧ (s.apply e).mounts.length = s.mounts.length + 1 := by
  cases e with
  | mount m => exact .inr ⟨m, rfl, by simp [apply]⟩
  | _ => exact .inl (by simp [apply])

theorem lt_length_mounts_apply {s : Session} {i : Nat} (e : Effect) (hi : i < s.mounts.length) :
    i < (s.apply e).mounts.length := by
  rcases s.length_mounts_apply e with h | ⟨m, -, h⟩ <;> omega

theorem onMount_eq_some {e : Effect} {i : Nat} {x : Option Mount} {m' : Mount}
    (h : e.onMount i x = some m') : ∃ m, x = some m ∧ (m' = m ∨ ∃ t, m' = m.press t) := by
  cases e with
  | press k t =>
    rw [Effect.onMount] at h
    split at h
    · obtain ⟨m, hm, rfl⟩ := Option.map_eq_some_iff.mp h
      exact ⟨m, hm, .inr ⟨t, rfl⟩⟩
    · exact ⟨m', h, .inl rfl⟩
  | unmount k =>
    rw [Effect.onMount] at h
    split at h
    · cases h
    · exact ⟨m', h, .inl rfl⟩
  | _ => exact ⟨m', h, .inl rfl⟩

/-- A mount that stands stood before, if its number was given out before. -/
theorem standing_before {s : Session} {e : Effect} {i : Nat} {m' : Mount}
    (hi : i < s.mounts.length) (hm : (s.apply e).mounts[i]? = some (some m')) :
    ∃ m, s.mounts[i]? = some (some m) ∧ (m' = m ∨ ∃ t, m' = m.press t) := by
  have hx : s.mounts[i]? = some s.mounts[i] := List.getElem?_eq_getElem hi
  rw [getElem?_mounts_apply e hx] at hm
  obtain ⟨m, hxm, hm'⟩ := onMount_eq_some (Option.some.inj hm)
  exact ⟨m, by rw [hx, hxm], hm'⟩

end Session

end HashTabs
