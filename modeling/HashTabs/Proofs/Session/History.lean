import Mathlib.Tactic.ByContra
import HashTabs.Proofs.Session.Frame

/-! Contexts over one location. The hash that they share is what the last write left there, and each
context holds the tab to which the hash led right after the last thing that it did itself. -/

namespace HashTabs

open Log

/-- The hash that a history leaves behind: what was stored last, or the first hash. -/
def hashAfter (hash : String) (h : List Effect) : String :=
  (h.filterMap Effect.stored?).getLast?.getD hash

theorem hashAfter_concat (hash : String) (h : List Effect) (e : Effect) :
    hashAfter hash (h ++ [e]) = e.stored?.getD (hashAfter hash h) := by
  cases he : e.stored? with
  | none => simp [hashAfter, List.filterMap_append, he]
  | some x => simp [hashAfter, List.filterMap_append, he]

theorem hashAfter_append_of_unstored (hash : String) (h : List Effect) {rest : List Effect}
    (hr : ∀ e ∈ rest, e.stored? = none) : hashAfter hash (h ++ rest) = hashAfter hash h := by
  rw [hashAfter, List.filterMap_append, List.filterMap_eq_nil_iff.mpr hr, List.append_nil, hashAfter]

/-! ## What a history says of a context -/

/-- Holds of the tab to which the hash led right after the last thing that a context did: after
that the context did nothing more. -/
def LastRead (hash : String) (h : List Effect) (i : Nat) (t : Tab) : Prop :=
  ∃ past e rest, h = past ++ e :: rest ∧ e.actor? = some i ∧ (∀ e' ∈ rest, e'.actor? ≠ some i) ∧
    t = Tab.ofFragment (hashAfter hash (past ++ [e]))

theorem LastRead.own {hash : String} {h : List Effect} {i : Nat} {e : Effect}
    (he : e.actor? = some i) :
    LastRead hash (h ++ [e]) i (Tab.ofFragment (hashAfter hash (h ++ [e]))) :=
  ⟨h, e, [], rfl, he, by simp, rfl⟩

theorem LastRead.concat {hash : String} {h : List Effect} {i : Nat} {t : Tab} {e : Effect}
    (hr : LastRead hash h i t) (he : e.actor? ≠ some i) : LastRead hash (h ++ [e]) i t := by
  obtain ⟨past, own, rest, rfl, hown, hrest, ht⟩ := hr
  refine ⟨past, own, rest ++ [e], by simp, hown, ?_, ht⟩
  intro e' hmem
  rcases List.mem_append.mp hmem with h | h
  · exact hrest e' h
  · exact List.mem_singleton.mp h ▸ he

/-- What a history says of a session with a shared location. -/
structure Tells (hash : String) (h : List Effect) (s : Session) : Prop where
  hash? : s.contexts.hash? = some (hashAfter hash h)
  /-- There are the contexts that were made, and no others. -/
  made : ∀ i, i < s.contexts.toList.length ↔ Effect.attach i ∈ h
  active : ∀ i c, s.contexts.context? i = some c → LastRead hash h i c.active

theorem Tells.apply {hash : String} {h : List Effect} {s : Session} {e : Effect}
    (ht : Tells hash h s) (ha : s.Admits e) : Tells hash (h ++ [e]) (s.apply e) where
  hash? := by
    rw [Session.hash?_apply ha, ht.hash?, hashAfter_concat]
    rfl
  made i := by
    rw [Session.length_apply, List.mem_append, List.mem_singleton, ← ht.made i]
    cases e with
    | attach j =>
      -- The new context gets the next number.
      obtain rfl : j = s.contexts.toList.length := ha
      rw [Effect.attach.injEq, Effect.adds]
      omega
    | _ => simp [Effect.adds]
  active i c hc := by
    -- What a context does itself becomes its last reading; anything else leaves the old one.
    by_cases hi : e.actor? = some i
    · rw [Session.active_apply_of_actor ha ht.hash? hi hc, ← hashAfter_concat]
      exact LastRead.own hi
    · rw [Session.context?_apply_of_ne ha hi] at hc
      exact (ht.active i c hc).concat hi

theorem contexts_start (hash : String) (config : Logged Config) :
    (Session.start (some hash) config).value.contexts =
      .shared ⟨hash⟩ [{ active := Tab.ofFragment hash }] := by
  simp only [Session.start, Option.map_some, Contexts.start, Contexts.attach, Navigation.start,
    Logged.value_map, List.nil_append, Location.tab, resolve]

theorem tells_start (hash : String) (config : Logged Config) :
    Tells hash [.attach 0] (Session.start (some hash) config).value where
  hash? := rfl
  made i := by
    have hl : (Session.start (some hash) config).value.contexts.toList.length = 1 := rfl
    rw [hl, List.mem_singleton, Effect.attach.injEq]
    omega
  active i c hc := by
    rw [contexts_start, Contexts.context?_shared] at hc
    obtain ⟨rfl, rfl⟩ : i = 0 ∧ { active := Tab.ofFragment hash } = c := by
      simpa [List.getElem?_singleton] using hc
    dsimp only
    exact LastRead.own (h := []) (e := .attach 0) rfl

theorem tells_reached (hash : String) (config : Logged Config) (steps : List Step) :
    Tells hash (Session.history (some hash) config steps)
      (Session.reached (some hash) config steps) :=
  Session.after_induction (P := Tells hash) (tells_start hash config)
    (fun _ _ _ ht ha => ht.apply ha) steps

theorem Effect.write_of_foreign {e : Effect} {i : Nat} (hs : e.stored? ≠ none)
    (hi : e.actor? ≠ some i) : (∃ v, e = .edit v) ∨ ∃ j t, j ≠ i ∧ e = .select j t := by
  cases e with
  | select j t => exact .inr ⟨j, t, fun h => hi (congrArg some h), rfl⟩
  | edit v => exact .inl ⟨v, rfl⟩
  | _ => exact absurd rfl hs

/-- Whatever happens over one location, each of its contexts reports the hash that was stored last,
and holds the tab to which the hash led right after the last thing that it did itself: being made,
selecting, or reading. So it can hold another tab than the hash leads to only because the hash was
then edited, or another context selected. -/
theorem context_holds_last_reading (hash : String) (config : Logged Config) (steps : List Step) :
    let s := Session.reached (some hash) config steps
    let h := Session.history (some hash) config steps
    (∀ i, i < s.contexts.toList.length ↔ Effect.attach i ∈ h) ∧
    ∀ i n, s.contexts.get? i = some n →
      n.location.hash = hashAfter hash h ∧
      ∃ pre post past own since x, steps = pre ++ post ∧
        Session.history (some hash) config pre = past ++ [own] ∧ h = past ++ own :: since ∧
        own.actor? = some i ∧ (∀ e ∈ since, e.actor? ≠ some i) ∧
        (Session.reached (some hash) config pre).contexts.hash? = some x ∧
        n.context.active = Tab.ofFragment x ∧
        (n.context.active ≠ Tab.ofFragment n.location.hash →
          ∃ e ∈ since, (∃ v, e = .edit v) ∨ ∃ j t, j ≠ i ∧ e = .select j t) := by
  intro s h
  have ht : Tells hash h s := tells_reached hash config steps
  refine ⟨ht.made, fun i n hn => ?_⟩
  have hash_eq : n.location.hash = hashAfter hash h := Contexts.hash_of_get? ht.hash? hn
  obtain ⟨past, own, since, hsplit, hown, hsince, hactive⟩ :=
    ht.active i n.context (Contexts.context?_of_get? hn)
  obtain ⟨pre, post, hsteps, hpre⟩ := Session.exists_prefix_of_history hsplit
  -- The same invariant, at the moment of the context's last own effect.
  have htpre := tells_reached hash config pre
  rw [hpre] at htpre
  refine ⟨hash_eq, pre, post, past, own, since, _, hsteps, hpre, hsplit, hown, hsince,
    htpre.hash?, hactive, fun hne => ?_⟩
  -- If nothing was stored since, the hash would still lead to the tab that was read.
  by_contra hnone
  apply hne
  have hunstored : ∀ e ∈ since, e.stored? = none := by
    intro e he
    by_contra hs
    exact hnone ⟨e, he, Effect.write_of_foreign hs (hsince e he)⟩
  have hsame : hashAfter hash h = hashAfter hash (past ++ [own]) := by
    rw [hsplit, List.append_cons]
    exact hashAfter_append_of_unstored hash _ hunstored
  rw [hactive, hash_eq, hsame]

end HashTabs
