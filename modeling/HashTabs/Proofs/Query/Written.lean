import HashTabs.Query.Insert
import HashTabs.Proofs.Text.Utf8
import HashTabs.Proofs.Query.Entries

/-! Queries whose parameters have one key each, without brackets, whatever they are spelled like. The
tree of such a query holds what the values leave under their keys, one after the other, unless a key or
a value is no text. -/

namespace HashTabs.Query

open Text

/-- A parameter as it stands in a query: a key without brackets, an equals sign, and a value. -/
structure Written where
  key : List Char
  value : List Char
  key_ne : key ≠ []
  key_chars : ∀ c ∈ key, c ≠ '&' ∧ c ≠ '=' ∧ c ≠ '['
  value_chars : ∀ c ∈ value, c ≠ '&'

namespace Written

def chars (p : Written) : List Char := p.key ++ '=' :: p.value

def bytes (p : Written) : List UInt8 := Utf8.encode p.chars

def joined (ps : List Written) : List Char := ['&'].intercalate (ps.map chars)

/-- The name and the value that a parameter stands for. -/
def read (p : Written) : Except Utf8.Fault (String × String) := do
  let name ← Percent.text (Utf8.encode p.key)
  let value ← Percent.text (Utf8.encode p.value)
  return (name, value)

/-! ## Cutting a query into its parameters -/

theorem bytes_eq (p : Written) :
    p.bytes = Utf8.encode p.key ++ equalsSign :: Utf8.encode p.value := by
  rw [bytes, chars, Utf8.encode_append]
  rfl

/-- No byte of a text stands for an ASCII character that the text does not have. -/
theorem ne_of_mem_encode {s : List Char} {b : UInt8} (hb : b ∈ Utf8.encode s) {d : Char}
    (hd : d.toNat < 0x80) (hs : ∀ c ∈ s, c ≠ d) : b.toNat ≠ d.toNat := by
  intro h
  obtain ⟨c, hc, hn⟩ := Utf8.exists_of_mem_encode hb (h ▸ hd)
  exact hs c hc (Char.toNat_inj.mp (hn.trans h))

theorem bytes_of_key (p : Written) {b : UInt8} (hb : b ∈ Utf8.encode p.key) :
    b ≠ ampersand ∧ Route.endsName b = false := by
  have hamp := ne_of_mem_encode hb (d := '&') (by decide) fun c hc => (p.key_chars c hc).1
  have heq := ne_of_mem_encode hb (d := '=') (by decide) fun c hc => (p.key_chars c hc).2.1
  have hopen := ne_of_mem_encode hb (d := '[') (by decide) fun c hc => (p.key_chars c hc).2.2
  rw [Route.endsName, Bool.or_eq_false_iff, beq_eq_false_iff_ne, beq_eq_false_iff_ne]
  exact ⟨fun h => hamp (h ▸ rfl), fun h => hopen (h ▸ rfl), fun h => heq (h ▸ rfl)⟩

theorem ampersand_notMem_bytes (p : Written) : ampersand ∉ p.bytes := by
  rw [bytes_eq, List.mem_append, List.mem_cons, not_or, not_or]
  refine ⟨fun h => (p.bytes_of_key h).1 rfl, by decide, fun h => ?_⟩
  exact ne_of_mem_encode h (d := '&') (by decide) p.value_chars rfl

end Written

theorem segments_of_notMem {s : List UInt8} (h : ampersand ∉ s) : segments s = [s] := by
  induction s with
  | nil => rfl
  | cons b s ih =>
    obtain ⟨hb, hs⟩ := not_or.mp (mt List.mem_cons.mpr h)
    rw [segments, if_neg (Ne.symm hb), ih hs]

theorem segments_append {s : List UInt8} (h : ampersand ∉ s) (r : List UInt8) :
    segments (s ++ ampersand :: r) = s :: segments r := by
  induction s with
  | nil => rfl
  | cons b s ih =>
    obtain ⟨hb, hs⟩ := not_or.mp (mt List.mem_cons.mpr h)
    rw [List.cons_append, segments, if_neg (Ne.symm hb), ih hs]

/-- Cutting at the ampersands undoes the joining. -/
theorem segments_joined (p : Written) (ps : List Written) :
    segments (Utf8.encode (Written.joined (p :: ps))) = (p :: ps).map Written.bytes := by
  induction ps generalizing p with
  | nil =>
    rw [Written.joined, List.map_singleton, List.intercalate_singleton]
    exact segments_of_notMem p.ampersand_notMem_bytes
  | cons q ps ih =>
    rw [Written.joined, List.map_cons, List.map_cons, List.intercalate_cons_cons,
      List.append_assoc, Utf8.encode_append]
    -- The first ampersand is the one behind the first parameter.
    change segments (p.bytes ++ ampersand :: Utf8.encode (Written.joined (q :: ps))) = _
    rw [segments_append p.ampersand_notMem_bytes, ih q]
    rfl

/-! ## What further values leave under a key -/

namespace Tree

/-- What a further value makes of what stands under a key. -/
def given (key : String) (place : Option Tree) (value : String) : Tree :=
  match place with
  | none => .text value
  | some _ => .clash (.repeatedName key)

def enter (es : List (String × Tree)) (d : String × String) : List (String × Tree) :=
  Entries.put d.1 (given d.1 (Entries.lookup d.1 es) d.2) es

/-- What the values that are given to a key leave under it. -/
def ofValues (key : String) : List String → Option Tree
  | [] => none
  | [v] => some (.text v)
  | _ => some (.clash (.repeatedName key))

/-- The values that are given to a key, in order. -/
def valuesAt (key : String) (ds : List (String × String)) : List String :=
  (ds.filter (·.1 = key)).map (·.2)

theorem valuesAt_cons (k : String) (d : String × String) (ds : List (String × String)) :
    valuesAt k (d :: ds) = if d.1 = k then d.2 :: valuesAt k ds else valuesAt k ds := by
  rw [valuesAt, List.filter_cons]
  by_cases h : d.1 = k
  · rw [if_pos h, if_pos (decide_eq_true h)]
    rfl
  · rw [if_neg h, if_neg (by simp [h])]
    rfl

theorem lookup_enter (k : String) (es : List (String × Tree)) (d : String × String) :
    Entries.lookup k (enter es d) =
      if d.1 = k then some (given k (Entries.lookup k es) d.2) else Entries.lookup k es := by
  rw [enter]
  by_cases h : d.1 = k
  · rw [if_pos h, h, Entries.lookup_put_self]
  · rw [if_neg h, Entries.lookup_put_of_ne (Ne.symm h)]

theorem foldl_given_clash (k : String) (vs : List String) :
    vs.foldl (fun t v => some (given k t v)) (some (.clash (.repeatedName k))) =
      some (.clash (.repeatedName k)) := by
  induction vs with
  | nil => rfl
  | cons v vs ih => exact ih

/-- What stands under a key depends on the values given to that key alone. -/
theorem lookup_entered_from (k : String) (ds : List (String × String)) (es : List (String × Tree)) :
    Entries.lookup k (ds.foldl enter es) =
      (valuesAt k ds).foldl (fun t v => some (given k t v)) (Entries.lookup k es) := by
  induction ds generalizing es with
  | nil => rfl
  | cons d ds ih =>
    rw [List.foldl_cons, ih, lookup_enter, valuesAt_cons]
    by_cases h : d.1 = k
    · rw [if_pos h, if_pos h, List.foldl_cons]
    · rw [if_neg h, if_neg h]

theorem lookup_entered (k : String) (ds : List (String × String)) :
    Entries.lookup k (ds.foldl enter []) = ofValues k (valuesAt k ds) := by
  rw [lookup_entered_from]
  match valuesAt k ds with
  | [] => rfl
  | [_] => rfl
  | _ :: _ :: vs => exact foldl_given_clash k vs

theorem ascending_entered (ds : List (String × String)) {es : List (String × Tree)}
    (h : Entries.Ascending es) : Entries.Ascending (ds.foldl enter es) := by
  induction ds generalizing es with
  | nil => exact h
  | cons d ds ih => exact ih (Entries.ascending_put h _ _)

/-- A clash stands under the keys that are given more than one value, and a text under all others. -/
theorem text_or_clash_of_mem {ds : List (String × String)} {e : String × Tree}
    (he : e ∈ ds.foldl enter []) :
    (∃ s, e.2 = .text s) ∨
      1 < (valuesAt e.1 ds).length ∧ e.2 = .clash (.repeatedName e.1) := by
  have hlook := Entries.lookup_of_mem (ascending_entered ds List.Pairwise.nil) he
  rw [lookup_entered] at hlook
  match hv : valuesAt e.1 ds with
  | [] => simp [hv, ofValues] at hlook
  | [v] =>
    rw [hv] at hlook
    exact .inl ⟨v, (Option.some.inj hlook).symm⟩
  | _ :: _ :: vs =>
    rw [hv] at hlook
    exact .inr ⟨by simp, (Option.some.inj hlook).symm⟩

theorem clash_mem_of_repeated {ds : List (String × String)} {k : String}
    (h : 1 < (valuesAt k ds).length) :
    (k, .clash (.repeatedName k)) ∈ ds.foldl enter [] := by
  apply Entries.mem_of_lookup
  rw [lookup_entered]
  match hv : valuesAt k ds with
  | [] => simp [hv] at h
  | [_] => simp [hv] at h
  | _ :: _ :: _ => rfl

theorem set_fields (es : List (String × Tree)) (d : String × String) :
    set (some (.fields es)) d.2 (.name d.1) = .fields (enter es d) := by
  rw [set, enter]
  simp only [fieldsAt]
  cases Entries.lookup d.1 es <;> rfl

end Tree

/-! ## The tree of a query -/

namespace Written

theorem encode_ne_nil {s : List Char} (h : s ≠ []) : Utf8.encode s ≠ [] := by
  intro hnil
  -- An encoding without bytes reads back to the empty text.
  have hread := Utf8.decode_encode s
  rw [hnil] at hread
  exact h (Except.ok.inj hread).symm

/-- The name of a parameter ends at its equals sign and nowhere before it. -/
theorem ofSegment_eq (p : Written) {b : UInt8} {r : List UInt8} (hb : p.bytes = b :: r)
    (more : Bool) (depth pos : Nat) :
    Route.ofSegment more depth pos b r =
      match Percent.text (Utf8.encode p.key) with
      | .error f => .stop (.noText f)
      | .ok name => Route.valued (.last (.name name)) (Utf8.encode p.value) := by
  obtain ⟨b', r', hkey⟩ := List.exists_cons_of_ne_nil (encode_ne_nil p.key_ne)
  rw [bytes_eq, hkey, List.cons_append] at hb
  obtain ⟨rfl, rfl⟩ := List.cons.inj hb
  have hends : ∀ x ∈ b' :: r', Route.endsName x = false := fun x hx =>
    (p.bytes_of_key (hkey ▸ hx)).2
  have hopen : b' ≠ openBracket := by
    intro h
    have := hends b' List.mem_cons_self
    rw [h] at this
    exact absurd this (by decide)
  have hname : ∀ x ∈ r', (!Route.endsName x) = true := by
    intro x hx
    rw [hends x (List.mem_cons_of_mem b' hx)]
    rfl
  have htake : (r' ++ equalsSign :: Utf8.encode p.value).takeWhile (!Route.endsName ·) = r' := by
    rw [List.takeWhile_append_of_pos hname, List.takeWhile_cons_of_neg (by decide),
      List.append_nil]
  have hdrop : (r' ++ equalsSign :: Utf8.encode p.value).dropWhile (!Route.endsName ·) =
      equalsSign :: Utf8.encode p.value := by
    rw [List.dropWhile_append_of_pos hname, List.dropWhile_cons_of_neg (by decide)]
  rw [Route.ofSegment, if_neg hopen, htake, hdrop, hkey]
  cases hname : Percent.text (b' :: r') with
  | error f => simp only [hname]
  | ok name =>
    simp only [hname]
    rw [Route.afterKey, if_pos rfl]

theorem insert_segment (p : Written) {b : UInt8} {r : List UInt8} (hb : p.bytes = b :: r)
    (more : Bool) (depth pos : Nat) (es : List (String × Tree)) :
    Tree.insert (some (.fields es)) (Route.ofSegment more depth pos b r) =
      (p.read.mapError Fault.noText).map fun d => .fields (Tree.enter es d) := by
  rw [p.ofSegment_eq hb, read]
  cases Percent.text (Utf8.encode p.key) with
  | error f => rfl
  | ok name =>
    unfold Route.valued
    cases Percent.text (Utf8.encode p.value) with
    | error f => rfl
    | ok value => exact congrArg Except.ok (Tree.set_fields es (name, value))

theorem insertSegments_bytes (ps : List Written) (es : List (String × Tree)) (depth pos : Nat) :
    (Tree.fields es).insertSegments depth pos (ps.map bytes) =
      ((ps.mapM read).mapError Fault.noText).map fun ds => .fields (ds.foldl Tree.enter es) := by
  -- Depth and position matter to brackets and faults of routes only, and there are none.
  induction ps generalizing es depth pos with
  | nil => rfl
  | cons p ps ih =>
    obtain ⟨b, r, hb⟩ : ∃ b r, p.bytes = b :: r := by
      apply List.exists_cons_of_ne_nil
      rw [bytes_eq]
      simp
    rw [List.map_cons, hb, Tree.insertSegments, p.insert_segment hb, List.mapM_cons]
    cases p.read with
    | error f => rfl
    | ok d =>
      refine (ih _ _ _).trans ?_
      cases ps.mapM read <;> rfl

/-- The first key or value that is no text decides. If all are texts, the tree is what the values leave
under their keys. -/
theorem ofQuery_joined (ps : List Written) :
    Tree.ofQuery (joined ps) =
      ((ps.mapM read).mapError Fault.noText).map fun ds => .fields (ds.foldl Tree.enter []) := by
  cases ps with
  | nil => rfl -- A query without parameters is cut into one empty segment, which is skipped.
  | cons p ps => rw [Tree.ofQuery, segments_joined, insertSegments_bytes]

end Written

end HashTabs.Query
