import HashTabs.Proofs.Query.Repeated

/-! Which queries are refused whose parameters have one key each: those that repeat a name, and those
with a key or a value that is no text. It does not matter where in the query that is. -/

namespace HashTabs.Query

open Text

/-- Holds of what stands for a text: decoded, it is the encoding of one. -/
def IsText (t : List Char) : Prop :=
  ∃ v : String, Percent.decode (Utf8.encode t) = Utf8.encode v.toList

theorem isText_iff {t : List Char} : IsText t ↔ (Percent.text (Utf8.encode t)).isOk := by
  constructor
  · rintro ⟨v, hv⟩
    rw [Percent.text_eq_ok_iff.mpr hv]
    rfl
  · intro h
    cases ht : Percent.text (Utf8.encode t) with
    | error f =>
      rw [ht] at h
      cases h
    | ok v => exact ⟨v, Percent.text_eq_ok_iff.mp ht⟩

instance (t : List Char) : Decidable (IsText t) := decidable_of_iff _ isText_iff.symm

namespace Written

/-- Holds of a parameter under a name: decoded, its key is the encoding of the name. -/
def isNamed (p : Written) (k : String) : Bool :=
  Percent.decode (Utf8.encode p.key) = Utf8.encode k.toList

theorem read_eq_ok_iff {p : Written} {d : String × String} :
    p.read = .ok d ↔ Percent.decode (Utf8.encode p.key) = Utf8.encode d.1.toList ∧
      Percent.decode (Utf8.encode p.value) = Utf8.encode d.2.toList := by
  obtain ⟨name, value⟩ := d
  rw [← Percent.text_eq_ok_iff, ← Percent.text_eq_ok_iff, read]
  cases Percent.text (Utf8.encode p.key) with
  | error f => simp [Bind.bind, Except.bind]
  | ok k =>
    cases Percent.text (Utf8.encode p.value) with
    | error f => simp [Bind.bind, Except.bind]
    | ok v => simp [Bind.bind, Except.bind, Pure.pure, Except.pure]

theorem exists_read_iff {p : Written} : (∃ d, p.read = .ok d) ↔ IsText p.key ∧ IsText p.value := by
  constructor
  · rintro ⟨d, hd⟩
    obtain ⟨hkey, hvalue⟩ := read_eq_ok_iff.mp hd
    exact ⟨⟨d.1, hkey⟩, d.2, hvalue⟩
  · rintro ⟨⟨k, hkey⟩, v, hvalue⟩
    exact ⟨(k, v), read_eq_ok_iff.mpr ⟨hkey, hvalue⟩⟩

/-- A parameter goes by no other name than the one that is read off it. -/
theorem isNamed_of_read {p : Written} {d : String × String} (h : p.read = .ok d) (k : String) :
    p.isNamed k = decide (d.1 = k) := by
  rw [isNamed, (read_eq_ok_iff.mp h).1]
  refine decide_eq_decide.mpr ⟨fun heq => ?_, fun heq => by rw [heq]⟩
  rw [← Utf8.decode_eq_ok_iff, Utf8.decode_encode] at heq
  exact String.toList_inj.mp (Except.ok.inj heq)

/-- What is read off a query is read off its parameters one by one. -/
theorem mapM_read_eq_ok_iff {ps : List Written} {ds : List (String × String)} :
    ps.mapM read = .ok ds ↔ List.Forall₂ (fun p d => p.read = .ok d) ps ds := by
  induction ps generalizing ds with
  | nil => cases ds <;> simp [Pure.pure, Except.pure]
  | cons p ps ih =>
    rw [List.mapM_cons]
    cases hp : p.read with
    | error f => cases ds <;> simp [Bind.bind, Except.bind, hp]
    | ok d =>
      cases hps : ps.mapM read with
      | error f => cases ds <;> simp [Bind.bind, Except.bind, ← ih, hps]
      | ok rest =>
        cases ds <;> simp [Bind.bind, Except.bind, Pure.pure, Except.pure, ← ih, hps, hp]

theorem exists_mapM_read_iff {ps : List Written} :
    (∃ ds, ps.mapM read = .ok ds) ↔ ∀ p ∈ ps, IsText p.key ∧ IsText p.value := by
  simp only [mapM_read_eq_ok_iff, ← exists_read_iff]
  induction ps with
  | nil => simp
  | cons p ps ih =>
    rw [List.forall_mem_cons, ← ih]
    constructor
    · rintro ⟨ds, hds⟩
      cases hds with
      | cons hp hps => exact ⟨⟨_, hp⟩, _, hps⟩
    · rintro ⟨⟨d, hp⟩, ds, hps⟩
      exact ⟨d :: ds, .cons hp hps⟩

theorem length_valuesAt {ps : List Written} {ds : List (String × String)}
    (h : ps.mapM read = .ok ds) (k : String) :
    (Tree.valuesAt k ds).length = ps.countP (·.isNamed k) := by
  have hread := mapM_read_eq_ok_iff.mp h
  clear h
  induction hread with
  | nil => rfl
  | cons hp _ ih =>
    rw [Tree.valuesAt_cons, List.countP_cons, isNamed_of_read hp, ← ih]
    split <;> simp [*]

end Written

namespace Overrides

/-- A query is refused just if a key or a value in it is no text, or two of its parameters go by one
name, wherever they stand. -/
theorem ofQuery_joined_refused_iff (ps : List Written) :
    (∃ f, ofQuery (Written.joined ps) = .error f) ↔
      (∃ p ∈ ps, ¬(IsText p.key ∧ IsText p.value)) ∨ ∃ k, 1 < ps.countP (·.isNamed k) := by
  cases hread : ps.mapM Written.read with
  | error f =>
    have hrefused : ofQuery (Written.joined ps) = .error (.noText f) := by
      rw [ofQuery, Written.ofQuery_joined, hread]
      rfl
    refine iff_of_true ⟨_, hrefused⟩ (.inl ?_)
    by_contra hnone
    obtain ⟨ds, hds⟩ := Written.exists_mapM_read_iff.mpr (by simpa using hnone)
    cases hread.symm.trans hds
  | ok ds =>
    have htexts := Written.exists_mapM_read_iff.mp ⟨ds, hread⟩
    have htaken : ofQuery (Written.joined ps) = takeAll {} (ds.foldl Tree.enter []) := by
      rw [ofQuery, Written.ofQuery_joined, hread]
      rfl
    simp only [htaken, ← Written.length_valuesAt hread]
    constructor
    · rintro ⟨f, hf⟩
      refine .inr ?_
      by_contra hnone
      -- If no name is repeated, a text stands under each.
      have htext : ∀ e ∈ ds.foldl Tree.enter [], ∃ s, e.2 = Tree.text s := by
        intro e he
        rcases Tree.text_or_clash_of_mem he with htext | ⟨hcount, -⟩
        · exact htext
        · exact absurd ⟨e.1, hcount⟩ hnone
      rw [takeAll_texts (Tree.ascending_entered ds List.Pairwise.nil) htext] at hf
      cases hf
    · rintro (⟨p, hp, hno⟩ | ⟨k, hk⟩)
      · exact absurd (htexts p hp) hno
      · obtain ⟨k, -, hf⟩ := takeAll_of_repeated hk
        exact ⟨_, hf⟩

end Overrides

end HashTabs.Query
