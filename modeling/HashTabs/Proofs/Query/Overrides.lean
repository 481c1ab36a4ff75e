import HashTabs.Query.Overrides
import HashTabs.Proofs.Query.Flat

/-! The overrides in a query whose parameters have one key each. -/

namespace HashTabs.Query

namespace Parameter

/-- The value that is given to a key first. -/
def valueOf? (key : String) (ps : List Parameter) : Option String := (valuesOf key ps).head?

theorem valuesOf_eq_nil {k : String} {ps : List Parameter} (h : k ∉ ps.map key) :
    valuesOf k ps = [] := by
  induction ps with
  | nil => rfl
  | cons p ps ih =>
    obtain ⟨hp, hps⟩ := not_or.mp (mt List.mem_cons.mpr h)
    rw [valuesOf_cons, if_neg (Ne.symm hp), ih hps]

theorem valuesOf_of_nodup {ps : List Parameter} (h : (ps.map key).Nodup) (k : String) :
    valuesOf k ps = (valueOf? k ps).toList := by
  induction ps with
  | nil => rfl
  | cons p ps ih =>
    obtain ⟨hp, hps⟩ := List.nodup_cons.mp h
    rw [valueOf?, valuesOf_cons]
    by_cases hk : p.key = k
    · -- The key has its value here, and none after it.
      rw [if_pos hk, valuesOf_eq_nil (hk ▸ hp)]
      rfl
    · rw [if_neg hk]
      exact ih hps

theorem exists_of_valueOf? {k v : String} {ps : List Parameter} (h : valueOf? k ps = some v) :
    ∃ p ∈ ps, p.key = k ∧ p.value = v := by
  have hv : v ∈ valuesOf k ps := List.mem_of_head? h
  obtain ⟨p, hp, rfl⟩ := List.mem_map.mp hv
  obtain ⟨hp, hk⟩ := List.mem_filter.mp hp
  exact ⟨p, hp, of_decide_eq_true hk, rfl⟩

end Parameter

theorem lookup_entered_of_nodup {ps : List Parameter} (h : (ps.map Parameter.key).Nodup)
    (k : String) : Entries.lookup k ((ps.map Parameter.entry).foldl Tree.enter []) =
      (Parameter.valueOf? k ps).map Tree.text := by
  rw [Tree.lookup_entered, Parameter.valuesAt_entry, Parameter.valuesOf_of_nodup h]
  cases Parameter.valueOf? k ps <;> rfl

theorem text_of_mem_entered {ps : List Parameter} (h : (ps.map Parameter.key).Nodup)
    {e : String × Tree} (he : e ∈ (ps.map Parameter.entry).foldl Tree.enter []) :
    ∃ s, e.2 = .text s := by
  have hasc := Tree.ascending_entered (ps.map Parameter.entry) List.Pairwise.nil
  have hlook := Entries.lookup_of_mem hasc he
  rw [lookup_entered_of_nodup h, Option.map_eq_some_iff] at hlook
  obtain ⟨s, -, hs⟩ := hlook
  exact ⟨s, hs.symm⟩

/-! ## Taking in texts -/

namespace Overrides

/-- An override after what stands under its name: no text leaves it, and an empty one clears it. -/
def updated (old : Option String) : Option Tree → Option String
  | some (.text s) => if s = "" then none else some s
  | _ => old

theorem take_text (o : Overrides) (name s : String) :
    o.take name (.text s) = .ok
      { appTitle := if name = "app_title" then updated o.appTitle (some (.text s)) else o.appTitle
        logLevel := if name = "log_level" then updated o.logLevel (some (.text s))
          else o.logLevel } := by
  rw [take]
  by_cases ht : name = "app_title"
  · subst ht
    rfl
  · rw [if_neg ht, if_neg ht]
    by_cases hl : name = "log_level"
    · subst hl
      rfl
    · rw [if_neg hl, if_neg hl]
      rfl

theorem updated_lookup_cons {name : String} {es : List (String × Tree)}
    (h : Entries.lookup name es = none) (s k : String) (old : Option String) :
    updated (if name = k then updated old (some (.text s)) else old) (Entries.lookup k es) =
      updated old (Entries.lookup k ((name, .text s) :: es)) := by
  by_cases hk : name = k
  · subst hk
    rw [if_pos rfl, h, Entries.lookup, if_pos rfl]
    rfl
  · rw [if_neg hk, Entries.lookup, if_neg (Ne.symm hk)]

/-- Where every branch is a text, nothing is refused. -/
theorem takeAll_texts {es : List (String × Tree)} (h : Entries.Ascending es)
    (ht : ∀ e ∈ es, ∃ s, e.2 = .text s) (o : Overrides) :
    o.takeAll es = .ok
      { appTitle := updated o.appTitle (Entries.lookup "app_title" es)
        logLevel := updated o.logLevel (Entries.lookup "log_level" es) } := by
  induction es generalizing o with
  | nil => rfl
  | cons e es ih =>
    obtain ⟨name, t⟩ := e
    obtain ⟨hlt, hes⟩ := List.pairwise_cons.mp h
    obtain ⟨s, rfl⟩ := ht _ List.mem_cons_self
    -- The name of the first branch is looked up to that branch, since it comes nowhere after it.
    have hnone := Entries.lookup_eq_none hlt
    have hrest := ih hes fun e he => ht e (List.mem_cons_of_mem _ he)
    rw [takeAll, take_text, ← updated_lookup_cons hnone, ← updated_lookup_cons hnone]
    exact hrest _

/-- The overrides of parameters without repeated keys: the values under the two names. -/
theorem ofQuery_joined {ps : List Parameter} (h : (ps.map Parameter.key).Nodup) :
    ofQuery (Parameter.joined ps) = .ok
      { appTitle := updated none ((Parameter.valueOf? "app_title" ps).map .text)
        logLevel := updated none ((Parameter.valueOf? "log_level" ps).map .text) } := by
  have hasc := Tree.ascending_entered (ps.map Parameter.entry) List.Pairwise.nil
  have htexts : ∀ e ∈ (ps.map Parameter.entry).foldl Tree.enter [], ∃ s, e.2 = Tree.text s :=
    fun _ he => text_of_mem_entered h he
  rw [ofQuery, Query.ofQuery_joined]
  simp only [ofTree]
  rw [takeAll_texts hasc htexts, lookup_entered_of_nodup h, lookup_entered_of_nodup h]

/-! ## What overrides say -/

/-- Holds of overrides none of which is an empty text. -/
structure Filled (o : Overrides) : Prop where
  appTitle : o.appTitle ≠ some ""
  logLevel : o.logLevel ≠ some ""

theorem exists_of_map_asText {t : Tree} {f : Option String → Overrides} {o : Overrides}
    (h : t.asText.map f = .ok o) : ∃ v, v ≠ some "" ∧ f v = o := by
  cases t with
  | text s =>
    refine ⟨_, ?_, Except.ok.inj h⟩
    -- An empty text was taken for none.
    split
    · simp
    · rename_i hs
      simpa using hs
  | _ => cases h

theorem Filled.take {o o' : Overrides} {name : String} {t : Tree} (ho : o.Filled)
    (h : o.take name t = .ok o') : o'.Filled := by
  unfold Overrides.take at h
  split at h
  · obtain ⟨v, hv, rfl⟩ := exists_of_map_asText h
    exact ⟨hv, ho.logLevel⟩
  · split at h
    · obtain ⟨v, hv, rfl⟩ := exists_of_map_asText h
      exact ⟨ho.appTitle, hv⟩
    · split at h
      · cases h
      · obtain rfl := Except.ok.inj h
        exact ho

theorem Filled.takeAll {o o' : Overrides} {es : List (String × Tree)} (ho : o.Filled)
    (h : o.takeAll es = .ok o') : o'.Filled := by
  induction es generalizing o with
  | nil =>
    obtain rfl := Except.ok.inj h
    exact ho
  | cons e es ih =>
    rw [Overrides.takeAll] at h
    split at h
    · cases h
    · rename_i o₁ ho₁
      exact ih (ho.take ho₁) h

/-- An override that a query gives is not empty. -/
theorem filled_ofQuery {query : List Char} {o : Overrides} (h : ofQuery query = .ok o) :
    o.Filled := by
  have hnone : Filled {} := ⟨by simp, by simp⟩
  unfold ofQuery at h
  split at h
  · cases h
  · unfold ofTree at h
    split at h
    · exact hnone.takeAll h
    · obtain rfl := Except.ok.inj h
      exact hnone

end Overrides

end HashTabs.Query
