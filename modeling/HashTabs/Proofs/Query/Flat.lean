import HashTabs.Proofs.Text.Percent
import HashTabs.Proofs.Query.Written

/-! Queries whose parameters have one key each, without brackets: what they are written like, and
the tree that they add up to. -/

namespace HashTabs.Query

open Text

/-- A character of a key. -/
def IsKeyChar (c : Char) : Prop := c.isAlphanum ∨ c = '_' ∨ c = '-'

instance (c : Char) : Decidable (IsKeyChar c) :=
  inferInstanceAs (Decidable (c.isAlphanum ∨ c = '_' ∨ c = '-'))

/-- A key with a value, and the spelling in which the value is written. -/
structure Parameter where
  key : String
  value : String
  written : List Char
  key_ne : key ≠ ""
  key_chars : ∀ c ∈ key.toList, IsKeyChar c
  spelled : Percent.Spells (Utf8.encode value.toList) written

namespace Parameter

def chars (p : Parameter) : List Char := p.key.toList ++ '=' :: p.written

def joined (ps : List Parameter) : List Char := ['&'].intercalate (ps.map chars)

/-- The text of a query, question marks first. -/
def query (marks : Nat) (ps : List Parameter) : String :=
  String.ofList (List.replicate marks '?' ++ joined ps)

/-- The values that are given to a key, in order. -/
def valuesOf (key : String) (ps : List Parameter) : List String :=
  (ps.filter (·.key = key)).map value

end Parameter

/-! ## What is written between the separators -/

theorem IsKeyChar.isUnreserved {c : Char} (h : IsKeyChar c) : Percent.IsUnreserved c := by
  rcases h with h | rfl | rfl
  · exact .inl h
  · exact .inr (by decide)
  · exact .inr (by decide)

/-- A parameter whose value is written as it is. -/
def Parameter.plain (key value : String)
    (h : key ≠ "" ∧ (∀ c ∈ key.toList, IsKeyChar c) ∧ ∀ c ∈ value.toList, Percent.IsUnreserved c) :
    Parameter :=
  ⟨key, value, value.toList, h.1, h.2.1, Percent.Spells.self h.2.2⟩

theorem Parameter.joined_cons (p : Parameter) (ps : List Parameter) :
    ∃ r, joined (p :: ps) = p.key.toList ++ r := by
  cases ps with
  | nil => exact ⟨_, List.intercalate_singleton⟩
  | cons q ps =>
    refine ⟨'=' :: p.written ++ ['&'] ++ joined (q :: ps), ?_⟩
    rw [joined, List.map_cons, List.map_cons, List.intercalate_cons_cons, chars]
    simp only [List.append_assoc]
    rfl

theorem Parameter.isKeyChar_of_joined {ps : List Parameter} {c : Char} {r : List Char}
    (h : joined ps = c :: r) : IsKeyChar c := by
  cases ps with
  | nil => cases h
  | cons p ps =>
    obtain ⟨t, ht⟩ := joined_cons p ps
    rw [ht] at h
    -- A key is not empty, so the first character is its own.
    cases hk : p.key.toList with
    | nil => exact absurd (String.toList_eq_nil_iff.mp hk) p.key_ne
    | cons d k =>
      rw [hk] at h
      have hd : d = c := (List.cons.inj h).1
      apply p.key_chars
      rw [hk, hd]
      exact List.mem_cons_self

/-! ## A parameter as it is written -/

theorem IsKeyChar.ne {c : Char} (h : IsKeyChar c) : c ≠ '&' ∧ c ≠ '=' ∧ c ≠ '[' := by
  refine ⟨?_, ?_, ?_⟩ <;> rintro rfl <;> exact absurd h (by decide)

namespace Parameter

theorem ampersand_notMem_written (p : Parameter) : ∀ c ∈ p.written, c ≠ '&' := by
  rintro c hc rfl
  exact absurd (p.spelled.mem hc) (by decide)

def toWritten (p : Parameter) : Written where
  key := p.key.toList
  value := p.written
  key_ne := fun h => p.key_ne (String.toList_eq_nil_iff.mp h)
  key_chars := fun c hc => (p.key_chars c hc).ne
  value_chars := p.ampersand_notMem_written

/-- The name and the value of a parameter. -/
def entry (p : Parameter) : String × String := (p.key, p.value)

/-- A parameter stands for its key and its value, however the value is spelled. -/
theorem read_toWritten (p : Parameter) : p.toWritten.read = .ok p.entry := by
  have hkey : Percent.text (Utf8.encode p.key.toList) = .ok p.key :=
    Percent.text_of_spells (Percent.Spells.self fun c hc => (p.key_chars c hc).isUnreserved)
  have hvalue : Percent.text (Utf8.encode p.written) = .ok p.value :=
    Percent.text_of_spells p.spelled
  simp only [Written.read, toWritten, hkey, hvalue]
  rfl

theorem joined_toWritten (ps : List Parameter) : Written.joined (ps.map toWritten) = joined ps := by
  rw [Written.joined, List.map_map]
  rfl

theorem mapM_read_toWritten (ps : List Parameter) :
    (ps.map toWritten).mapM Written.read = .ok (ps.map entry) := by
  induction ps with
  | nil => rfl
  | cons p ps ih =>
    rw [List.map_cons, List.mapM_cons, read_toWritten, ih]
    rfl

theorem valuesAt_entry (k : String) (ps : List Parameter) :
    Tree.valuesAt k (ps.map entry) = valuesOf k ps := by
  rw [Tree.valuesAt, List.filter_map, List.map_map]
  rfl

theorem valuesOf_cons (k : String) (p : Parameter) (ps : List Parameter) :
    valuesOf k (p :: ps) = if p.key = k then p.value :: valuesOf k ps else valuesOf k ps := by
  rw [← valuesAt_entry, ← valuesAt_entry, List.map_cons, Tree.valuesAt_cons]
  rfl

end Parameter

/-- The tree of parameters is what their values leave under their keys, one after the other. -/
theorem ofQuery_joined (ps : List Parameter) :
    Tree.ofQuery (Parameter.joined ps) =
      .ok (.fields ((ps.map Parameter.entry).foldl Tree.enter [])) := by
  rw [← Parameter.joined_toWritten, Written.ofQuery_joined, Parameter.mapM_read_toWritten]
  rfl

end HashTabs.Query
