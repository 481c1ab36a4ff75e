import Mathlib.Data.List.DropRight
import HashTabs.Proofs.Session.History

/-! Contexts over one location hear of its changes late, twice or out of order. Once each has read the
location after the last write, none of that can be seen any more. -/

namespace HashTabs

open Log

def Effect.isWrite (e : Effect) : Bool := e.stored?.isSome

/-- What happened after the last write, or all of it if there was none. -/
def sinceWrite (h : List Effect) : List Effect := h.rtakeWhile fun e => !e.isWrite

theorem hashAfter_filter_isWrite (hash : String) (h : List Effect) :
    hashAfter hash (h.filter Effect.isWrite) = hashAfter hash h := by
  have hf : (fun e : Effect => if e.isWrite = true then e.stored? else none) = Effect.stored? := by
    funext e
    cases e <;> rfl
  rw [hashAfter, List.filterMap_filter, hf, hashAfter]

theorem mem_of_mem_sinceWrite {h rest : List Effect} {e w : Effect} (hw : w ∈ rest)
    (hs : w.isWrite = true) (he : e ∈ sinceWrite (h ++ rest)) : e ∈ rest := by
  -- By induction from the end, where the search for the last write begins.
  induction rest using List.reverseRecOn with
  | nil => cases hw
  | append_singleton rest x ih =>
    rw [sinceWrite, ← List.append_assoc, List.rtakeWhile_concat] at he
    by_cases hx : x.isWrite = true
    · simp [hx] at he
    · have hwr : w ∈ rest := by
        rcases List.mem_append.mp hw with h | h
        · exact h
        · exact absurd (List.mem_singleton.mp h ▸ hs) hx
      rw [if_pos (by simpa using hx)] at he
      rcases List.mem_append.mp he with h | h
      · exact List.mem_append_left _ (ih hwr h)
      · exact List.mem_append_right _ h

/-- A context that has read the location since the last write holds the tab of its hash. -/
theorem LastRead.eq_of_sync {hash : String} {h : List Effect} {i : Nat} {t : Tab}
    (hr : LastRead hash h i t) (hs : .sync i ∈ sinceWrite h) :
    t = Tab.ofFragment (hashAfter hash h) := by
  obtain ⟨past, own, rest, rfl, -, hrest, rfl⟩ := hr
  rw [List.append_cons past own rest] at hs ⊢
  have hunstored : ∀ e ∈ rest, e.stored? = none := by
    intro e he
    by_contra hne
    -- A write after the context's last own effect would put its reading after that effect too.
    have hw : e.isWrite = true := Option.isSome_iff_ne_none.mpr hne
    exact hrest _ (mem_of_mem_sinceWrite he hw hs) rfl
  rw [hashAfter_append_of_unstored hash _ hunstored]

theorem Navigation.sync_of_current {n : Navigation}
    (h : n.context.active = Tab.ofFragment n.location.hash) :
    n.sync = ⟨(n, false), n.location.tab.events⟩ :=
  if_pos h

namespace Session

/-- Holds of a session in which reading is over: whichever contexts read their location again, and
in whatever order, each finds nothing new, and nothing changes. -/
def Settled (s : Session) : Prop :=
  ∀ js : List Nat, (∀ j ∈ js, j < s.contexts.toList.length) →
    ∀ p ∈ s.run (js.map fun j => ⟨j, .sync⟩),
      p.1 = s ∧ p.2.result = .ok (.changed false) ∧ p.2.titles = []

theorem step_sync {s : Session} {i : Nat} {n : Navigation} (hn : s.contexts.get? i = some n) :
    s.step ⟨i, .sync⟩ =
      let after := { s with contexts := s.contexts.set i n.sync.value.1 }
      (after, ⟨.ok (.changed n.sync.value.2), titles s after, n.sync.events⟩) := by
  simp only [step, hn, act]
  rfl

theorem step_sync_of_current {s : Session} {j : Nat} {n : Navigation}
    (hn : s.contexts.get? j = some n) (hc : n.context.active = Tab.ofFragment n.location.hash) :
    s.step ⟨j, .sync⟩ = (s, ⟨.ok (.changed false), [], n.location.tab.events⟩) := by
  rw [step_sync hn, Navigation.sync_of_current hc]
  simp only [Contexts.set_of_get? hn, titles_self]

theorem settled_of_current {s : Session}
    (hc : ∀ i n, s.contexts.get? i = some n → n.context.active = Tab.ofFragment n.location.hash) :
    s.Settled := by
  intro js hjs
  induction js with
  | nil => simp [run]
  | cons j js ih =>
    obtain ⟨n, hn⟩ := Contexts.exists_get?_of_lt (hjs j List.mem_cons_self)
    have hstep := step_sync_of_current hn (hc j n hn)
    intro p hp
    rw [List.map_cons, run, hstep] at hp
    rcases List.mem_cons.mp hp with rfl | hp
    · exact ⟨rfl, rfl, rfl⟩
    · exact ih (fun k hk => hjs k (List.mem_cons_of_mem j hk)) p hp

end Session

theorem current_of_synced {hash : String} {h : List Effect} {s : Session} (ht : Tells hash h s)
    (hs : ∀ i < s.contexts.toList.length, .sync i ∈ sinceWrite h) {i : Nat} {n : Navigation}
    (hn : s.contexts.get? i = some n) : n.context.active = Tab.ofFragment (hashAfter hash h) := by
  have hread := ht.active i n.context (Contexts.context?_of_get? hn)
  exact hread.eq_of_sync (hs i (Contexts.get?_lt hn))

theorem settled_of_synced {hash : String} {h : List Effect} {s : Session} (ht : Tells hash h s)
    (hs : ∀ i < s.contexts.toList.length, .sync i ∈ sinceWrite h) : s.Settled := by
  refine Session.settled_of_current fun i n hn => ?_
  rw [current_of_synced ht hs hn, Contexts.hash_of_get? ht.hash? hn]

/-- Take two runs from one hash that end with the same contexts and make the same writes in the same
order, whenever their contexts read the location in between. If in both each context has read it
since the last write, then both end with the same hash and the same tabs, each tab is the one that
the hash leads to, and no further reading changes anything. -/
theorem runs_converge_once_synced (hash : String) (config : Logged Config)
    (steps₁ steps₂ : List Step)
    (same_contexts : (Session.reached (some hash) config steps₁).contexts.toList.length =
      (Session.reached (some hash) config steps₂).contexts.toList.length)
    (same_writes : (Session.history (some hash) config steps₁).filter Effect.isWrite =
      (Session.history (some hash) config steps₂).filter Effect.isWrite)
    (synced₁ : ∀ i < (Session.reached (some hash) config steps₁).contexts.toList.length,
      .sync i ∈ sinceWrite (Session.history (some hash) config steps₁))
    (synced₂ : ∀ i < (Session.reached (some hash) config steps₂).contexts.toList.length,
      .sync i ∈ sinceWrite (Session.history (some hash) config steps₂)) :
    let s₁ := Session.reached (some hash) config steps₁
    let s₂ := Session.reached (some hash) config steps₂
    (∀ i < s₁.contexts.toList.length, ∃ n₁ n₂,
      s₁.contexts.get? i = some n₁ ∧ s₂.contexts.get? i = some n₂ ∧
      n₁.location.hash = n₂.location.hash ∧ n₁.context.active = n₂.context.active ∧
      n₁.context.active = Tab.ofFragment n₁.location.hash) ∧
    s₁.Settled ∧ s₂.Settled := by
  intro s₁ s₂
  have ht₁ := tells_reached hash config steps₁
  have ht₂ := tells_reached hash config steps₂
  -- The hash depends on the writes alone.
  have same_hash : hashAfter hash (Session.history (some hash) config steps₁) =
      hashAfter hash (Session.history (some hash) config steps₂) := by
    rw [← hashAfter_filter_isWrite, same_writes, hashAfter_filter_isWrite]
  refine ⟨fun i hi => ?_, settled_of_synced ht₁ synced₁, settled_of_synced ht₂ synced₂⟩
  -- Both contexts hold the tab of the one hash.
  obtain ⟨n₁, hn₁⟩ := Contexts.exists_get?_of_lt hi
  obtain ⟨n₂, hn₂⟩ := Contexts.exists_get?_of_lt (same_contexts ▸ hi)
  have hash₁ := Contexts.hash_of_get? ht₁.hash? hn₁
  have hash₂ := Contexts.hash_of_get? ht₂.hash? hn₂
  have active₁ := current_of_synced ht₁ synced₁ hn₁
  have active₂ := current_of_synced ht₂ synced₂ hn₂
  refine ⟨n₁, n₂, hn₁, hn₂, ?_, ?_, ?_⟩
  · rw [hash₁, hash₂, same_hash]
  · rw [active₁, active₂, same_hash]
  · rw [active₁, hash₁]

/-- In one run a context selects a tab and both read at once; in the other a button is clicked for
it, and its reading is late and repeated. -/
theorem click_and_select_converge :
    (Session.reached (some "#bogus") ⟨{}, []⟩
      [⟨0, .attach⟩, ⟨0, .setHash (some "settings")⟩, ⟨0, .sync⟩, ⟨1, .sync⟩,
        ⟨1, .select "devices"⟩, ⟨0, .sync⟩, ⟨1, .sync⟩]).Settled ∧
    (Session.reached (some "#bogus") ⟨{}, []⟩
      [⟨0, .attach⟩, ⟨1, .mount { component := "ConnectView" }⟩,
        ⟨0, .setHash (some "settings")⟩, ⟨0, .click 0 none⟩, ⟨1, .sync⟩, ⟨0, .sync⟩,
        ⟨1, .sync⟩]).Settled :=
  (runs_converge_once_synced "#bogus" ⟨{}, []⟩ _ _ (by decide +kernel) (by decide +kernel)
    (by decide +kernel) (by decide +kernel)).2

end HashTabs
