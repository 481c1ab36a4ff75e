import Mathlib.Data.List.Nodup
import HashTabs.Proofs.Query.Overrides

/-! Queries in which keys are repeated. What stands under a repeated key is a clash, and reading the
overrides trips over it even if nobody asks for the key. -/

namespace HashTabs.Query

namespace Parameter

/-- The names under which a configuration looks for overrides. -/
def askedNames : List String := ["app_title", "log_level"]

/-- Holds of the parameters that a configuration asks for. -/
def isAsked (p : Parameter) : Bool := p.key ∈ askedNames

theorem length_valuesOf (k : String) (ps : List Parameter) :
    (valuesOf k ps).length = (ps.map key).count k := by
  induction ps with
  | nil => rfl
  | cons p ps ih =>
    rw [valuesOf_cons, List.map_cons, List.count_cons]
    by_cases h : p.key = k
    · rw [if_pos h, if_pos (beq_iff_eq.mpr h), List.length_cons, ih]
    · rw [if_neg h, if_neg (mt beq_iff_eq.mp h), ih, Nat.add_zero]

theorem valuesOf_filter_isAsked {k : String} (h : k ∈ askedNames) (ps : List Parameter) :
    valuesOf k (ps.filter isAsked) = valuesOf k ps := by
  rw [valuesOf, valuesOf, List.filter_filter]
  congr 2
  funext p
  by_cases hk : p.key = k
  · simp [isAsked, hk, h]
  · simp [hk]

theorem nodup_filter_isAsked {ps : List Parameter}
    (h : ∀ k ∈ askedNames, (ps.map key).count k ≤ 1) :
    ((ps.filter isAsked).map key).Nodup := by
  rw [List.nodup_iff_count_le_one]
  intro k
  by_cases hk : k ∈ askedNames
  · rw [← length_valuesOf, valuesOf_filter_isAsked hk, length_valuesOf]
    exact h k hk
  · have hnone : k ∉ (ps.filter isAsked).map key := by
      intro hmem
      obtain ⟨p, hp, rfl⟩ := List.mem_map.mp hmem
      exact hk (of_decide_eq_true (List.mem_filter.mp hp).2)
    rw [List.count_eq_zero_of_not_mem hnone]
    exact Nat.zero_le 1

end Parameter

/-! ## What is found in place of overrides -/

namespace Overrides

/-- No name can have a clash under it, be it asked for or not. -/
theorem take_clash (o : Overrides) (name : String) (c : Clash) :
    o.take name (.clash c) = .error (.clash c) := by
  rw [take]
  split
  · rfl
  · split <;> rfl

/-- A clash is found, whatever texts come before it. -/
theorem takeAll_clash {es : List (String × Tree)}
    (h : ∀ e ∈ es, (∃ s, e.2 = .text s) ∨ e.2 = .clash (.repeatedName e.1))
    {f : String × Tree} {c : Clash} (hf : f ∈ es) (hc : f.2 = .clash c) (o : Overrides) :
    ∃ e ∈ es, e.2 = .clash (.repeatedName e.1) ∧
      o.takeAll es = .error (.clash (.repeatedName e.1)) := by
  induction es generalizing o with
  | nil => cases hf
  | cons e es ih =>
    obtain ⟨name, t⟩ := e
    rcases h _ List.mem_cons_self with ⟨s, rfl⟩ | ht
    · have hmem : f ∈ es := by
        rcases List.mem_cons.mp hf with rfl | hf
        · cases hc
        · exact hf
      rw [takeAll, take_text]
      obtain ⟨e, he, hclash, htake⟩ := ih (fun e he => h e (List.mem_cons_of_mem _ he)) hmem _
      exact ⟨e, List.mem_cons_of_mem _ he, hclash, htake⟩
    · refine ⟨_, List.mem_cons_self, ht, ?_⟩
      change t = .clash (.repeatedName name) at ht
      rw [ht, takeAll, take_clash]

theorem takeAll_of_repeated {ds : List (String × String)} {k : String}
    (h : 1 < (Tree.valuesAt k ds).length) :
    ∃ k, 1 < (Tree.valuesAt k ds).length ∧
      takeAll {} (ds.foldl Tree.enter []) = .error (.clash (.repeatedName k)) := by
  have hes : ∀ e ∈ ds.foldl Tree.enter [], (∃ s, e.2 = Tree.text s) ∨
      e.2 = Tree.clash (.repeatedName e.1) :=
    fun e he => (Tree.text_or_clash_of_mem he).imp_right And.right
  obtain ⟨e, he, hclash, htake⟩ := takeAll_clash hes (Tree.clash_mem_of_repeated h) rfl {}
  refine ⟨e.1, ?_, htake⟩
  rcases Tree.text_or_clash_of_mem he with ⟨s, hs⟩ | ⟨hcount, -⟩
  · cases hclash.symm.trans hs
  · exact hcount

/-- A query is refused if a key is repeated, even one that nobody asks for. -/
theorem ofQuery_joined_of_repeated {ps : List Parameter} (h : ¬(ps.map Parameter.key).Nodup) :
    ∃ k, 1 < (ps.map Parameter.key).count k ∧
      ofQuery (Parameter.joined ps) = .error (.clash (.repeatedName k)) := by
  have hcount : ∀ k, (Tree.valuesAt k (ps.map Parameter.entry)).length =
      (ps.map Parameter.key).count k := by
    intro k
    rw [Parameter.valuesAt_entry, Parameter.length_valuesOf]
  obtain ⟨k, hk⟩ : ∃ k, 1 < (ps.map Parameter.key).count k := by
    simpa [List.nodup_iff_count_le_one] using h
  obtain ⟨k, hk, hf⟩ := takeAll_of_repeated (hcount k ▸ hk)
  refine ⟨k, hcount k ▸ hk, ?_⟩
  rw [ofQuery, Query.ofQuery_joined]
  exact hf

end Overrides

end HashTabs.Query
