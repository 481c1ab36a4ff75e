import HashTabs.Query.Entries

/-! Entries under names stay in ascending order, and are then determined by their look-ups. -/

namespace HashTabs.Query.Entries

variable {α : Type}

/-- No name is taken twice, and the names ascend. -/
def Ascending (es : List (String × α)) : Prop :=
  es.Pairwise fun e f => e.1 < f.1

theorem eq_or_mem_of_mem_put {k : String} {v : α} {es : List (String × α)} {e : String × α}
    (h : e ∈ put k v es) : e = (k, v) ∨ e ∈ es := by
  induction es with
  | nil => exact .inl (List.mem_singleton.mp h)
  | cons f es ih =>
    obtain ⟨l, w⟩ := f
    rw [put] at h
    split at h
    · exact (List.mem_cons.mp h).imp_right (List.mem_cons_of_mem _)
    · split at h
      · exact List.mem_cons.mp h
      · rcases List.mem_cons.mp h with rfl | h
        · exact .inr List.mem_cons_self
        · exact (ih h).imp_right (List.mem_cons_of_mem _)

theorem ascending_put {es : List (String × α)} (h : Ascending es) (k : String) (v : α) :
    Ascending (put k v es) := by
  induction es with
  | nil => exact List.pairwise_singleton _ _
  | cons f es ih =>
    obtain ⟨l, w⟩ := f
    obtain ⟨hl, hes⟩ := List.pairwise_cons.mp h
    rw [put]
    split
    · rename_i hk
      exact List.pairwise_cons.mpr ⟨hk ▸ hl, hes⟩
    · rename_i hk
      split
      · -- The new name is below the first one, and so below all.
        rename_i hlt
        refine List.pairwise_cons.mpr ⟨fun e he => ?_, h⟩
        rcases List.mem_cons.mp he with rfl | he
        · exact hlt
        · exact String.lt_trans hlt (hl e he)
      · -- The new name comes after the first one.
        rename_i hlt
        refine List.pairwise_cons.mpr ⟨fun e he => ?_, ih hes⟩
        rcases eq_or_mem_of_mem_put he with rfl | he
        · exact Std.lt_of_le_of_ne (String.not_lt.mp hlt) (Ne.symm hk)
        · exact hl e he

theorem lookup_eq_none {k : String} {es : List (String × α)} (h : ∀ e ∈ es, k < e.1) :
    lookup k es = none := by
  induction es with
  | nil => rfl
  | cons f es ih =>
    have hf : k ≠ f.1 := String.ne_of_lt (h f List.mem_cons_self)
    rw [lookup, if_neg hf]
    exact ih fun e he => h e (List.mem_cons_of_mem f he)

/-- Every entry is the one that its name is looked up to. -/
theorem lookup_of_mem {es : List (String × α)} (h : Ascending es) {k : String} {v : α}
    (hm : (k, v) ∈ es) : lookup k es = some v := by
  induction es with
  | nil => cases hm
  | cons f es ih =>
    obtain ⟨hf, hes⟩ := List.pairwise_cons.mp h
    rcases List.mem_cons.mp hm with rfl | hm
    · rw [lookup, if_pos rfl]
    · have hne : k ≠ f.1 := Ne.symm (String.ne_of_lt (hf _ hm))
      rw [lookup, if_neg hne]
      exact ih hes hm

theorem mem_of_lookup {k : String} {v : α} {es : List (String × α)}
    (h : lookup k es = some v) : (k, v) ∈ es := by
  induction es with
  | nil => cases h
  | cons f es ih =>
    obtain ⟨l, w⟩ := f
    rw [lookup] at h
    split at h
    · rename_i hk
      obtain rfl := Option.some.inj h
      exact hk ▸ List.mem_cons_self
    · exact List.mem_cons_of_mem _ (ih h)

end HashTabs.Query.Entries
