import Mathlib.Data.List.Induction
import HashTabs.Location.Calls
import HashTabs.Proofs.Contexts

/-! A location is a register. Its hash is what the last call wrote there, and the tab that is read is
the one that was meant by it: the number sign that a hash gets when it is stored changes no tab. -/

namespace HashTabs

/-- Holds of what a location reports once it was written: nothing, or a text after a number sign. -/
def IsHash (s : String) : Prop := s = "" ∨ s.toList.head? = some '#'

theorem normalizeHash_of_isHash {value : String} (h : IsHash value) :
    normalizeHash value = value :=
  if_pos h.symm

theorem normalizeHash_of_not_isHash {value : String} (h : ¬IsHash value) :
    normalizeHash value = "#" ++ value :=
  if_neg fun hc => h hc.symm

theorem isHash_normalizeHash (value : String) : IsHash (normalizeHash value) := by
  by_cases h : IsHash value
  · rw [normalizeHash_of_isHash h]
    exact h
  · rw [normalizeHash_of_not_isHash h]
    exact .inr (by rw [String.toList_append]; rfl)

/-- The number sign that a text gets when it is stored leaves the tab to which it leads. -/
theorem Tab.ofFragment_normalizeHash (value : String) :
    ofFragment (normalizeHash value) = ofFragment value := by
  by_cases h : IsHash value
  · rw [normalizeHash_of_isHash h]
  · -- That sign is the one that is taken away again, and there was none before.
    have hstrip : stripHash ("#" ++ value).toList = stripHash value.toList := by
      rw [stripHash_of_head?_ne fun hc => h (.inr hc), String.toList_append]
      rfl
    rw [normalizeHash_of_not_isHash h, ofFragment, hstrip, ofFragment]

-- A number sign behind a space is not the leading one, whether another is put in front or not.
example : Tab.ofFragment " #devices" = .connect ∧ Tab.ofFragment "# #devices" = .connect := by
  decide +kernel

namespace Location

/-- The text that a call writes. Tabs are written by their fragments, and only to a location that
can be reached. -/
def Call.text? (reachable : Bool) : Call → Option String
  | .set value => some value
  | .write t => if reachable then some t.fragment else none
  | .hash | .read => none

/-- The tab that a call leaves to be read. -/
def Call.tab? : Call → Option Tab
  | .set value => some (Tab.ofFragment value)
  | .write t => some t
  | .hash | .read => none

/-- The hash that calls leave behind: the text that was written last, with its number sign, or the
first hash as it was. -/
def hashAfter (reachable : Bool) (raw : String) (cs : List Call) : String :=
  ((cs.filterMap (Call.text? reachable)).getLast?.map normalizeHash).getD raw

/-- The tab that calls leave to be read: the one that was written last, or that of the text that was,
or that of the first hash. -/
def tabAfter (raw : String) (cs : List Call) : Tab :=
  (cs.filterMap Call.tab?).getLast?.getD (Tab.ofFragment raw)

/-- The location after calls. -/
def after (reachable : Bool) (l : Location) (cs : List Call) : Location :=
  cs.foldl (fun l c => (l.answer reachable c).value.1) l

/-! ## One call -/

theorem hash_answer (reachable : Bool) (l : Location) (c : Call) :
    (l.answer reachable c).value.1.hash =
      ((c.text? reachable).map normalizeHash).getD l.hash := by
  cases c with
  | hash => rfl
  | set value => rfl
  | read => rfl
  | write t => cases reachable <;> rfl

theorem text?_map_ofFragment (c : Call) : (c.text? true).map Tab.ofFragment = c.tab? := by
  cases c with
  | write t => exact congrArg some (Tab.ofFragment_fragment t)
  | _ => rfl

/-! ## Calls in a row -/

theorem hashAfter_concat (reachable : Bool) (raw : String) (cs : List Call) (c : Call) :
    hashAfter reachable raw (cs ++ [c]) =
      ((c.text? reachable).map normalizeHash).getD (hashAfter reachable raw cs) := by
  cases hc : c.text? reachable with
  | none => simp [hashAfter, List.filterMap_append, hc]
  | some value => simp [hashAfter, List.filterMap_append, hc]

theorem hash_after (reachable : Bool) (raw : String) (cs : List Call) :
    (after reachable ⟨raw⟩ cs).hash = hashAfter reachable raw cs := by
  -- By induction from the end, since the last call decides.
  induction cs using List.reverseRecOn with
  | nil => rfl
  | append_singleton cs c ih =>
    rw [after, List.foldl_append, List.foldl_cons, List.foldl_nil, hash_answer, hashAfter_concat,
      ← ih]
    rfl

/-- What is read back is what was meant when it was written. -/
theorem ofFragment_hashAfter (raw : String) (cs : List Call) :
    Tab.ofFragment (hashAfter true raw cs) = tabAfter raw cs := by
  have htabs : cs.filterMap Call.tab? =
      (cs.filterMap (Call.text? true)).map Tab.ofFragment := by
    rw [List.map_filterMap, funext text?_map_ofFragment]
  rw [tabAfter, htabs, List.getLast?_map, hashAfter]
  cases (cs.filterMap (Call.text? true)).getLast? with
  | none => rfl
  | some value => exact Tab.ofFragment_normalizeHash value

theorem length_calls (reachable : Bool) (l : Location) (cs : List Call) :
    (calls reachable l cs).length = cs.length := by
  induction cs generalizing l with
  | nil => rfl
  | cons c cs ih => rw [calls, List.length_cons, ih, List.length_cons]

theorem calls_append (reachable : Bool) (l : Location) (cs more : List Call) :
    calls reachable l (cs ++ more) =
      calls reachable l cs ++ calls reachable (after reachable l cs) more := by
  induction cs generalizing l with
  | nil => rfl
  | cons c cs ih =>
    rw [List.cons_append, calls, ih]
    rfl

/-- Each call is made on what the calls before it left behind. -/
theorem getElem?_calls (reachable : Bool) (l : Location) (before since : List Call) (c : Call) :
    (calls reachable l (before ++ c :: since))[before.length]? =
      some ((after reachable l before).answer reachable c) := by
  rw [calls_append, List.getElem?_append_right (Nat.le_of_eq (length_calls ..)), length_calls,
    Nat.sub_self]
  rfl

theorem hashAfter_of_unwritten {reachable : Bool} {cs : List Call} (raw : String)
    (h : ∀ c ∈ cs, c.text? reachable = none) : hashAfter reachable raw cs = raw := by
  rw [hashAfter, List.filterMap_eq_nil_iff.mpr h]
  rfl

theorem isHash_hashAfter {reachable : Bool} {cs : List Call} {c : Call} (raw : String)
    (hmem : c ∈ cs) (hc : c.text? reachable ≠ none) : IsHash (hashAfter reachable raw cs) := by
  obtain ⟨text, htext⟩ := Option.ne_none_iff_exists'.mp hc
  have hwritten : cs.filterMap (Call.text? reachable) ≠ [] :=
    List.ne_nil_of_mem (List.mem_filterMap.mpr ⟨c, hmem, htext⟩)
  rw [hashAfter, List.getLast?_eq_some_getLast hwritten]
  exact isHash_normalizeHash _

/-- Make calls on a location with a first hash. Reading gives the tab that was written last, or the
one to which the text leads that was written last, or the first hash if nothing was; the hash is that
text, with a number sign in front unless it has one or is empty, or the first hash to the letter.
Neither changes anything. Where the location cannot be reached, reading gives the first tab, and
neither reading nor writing a tab changes anything. -/
theorem calls_report_last_write (raw : String) (before since : List Call) :
    let told (reachable : Bool) (c : Call) :=
      (calls reachable ⟨raw⟩ (before ++ c :: since))[before.length]?.map (·.value)
    let h (reachable : Bool) := hashAfter reachable raw before
    told true .read = some (⟨h true⟩, .tab (tabAfter raw before)) ∧
    (∀ t, told true (.write t) = some (⟨t.fragment⟩, .nothing)) ∧
    told false .read = some (⟨h false⟩, .tab .connect) ∧
    (∀ t, told false (.write t) = some (⟨h false⟩, .nothing)) ∧
    (∀ reachable, told reachable .hash = some (⟨h reachable⟩, .hash (h reachable)) ∧
      (∀ value, told reachable (.set value) = some (⟨normalizeHash value⟩, .nothing)) ∧
      ((∀ c ∈ before, c.text? reachable = none) → h reachable = raw) ∧
      ((∃ c ∈ before, c.text? reachable ≠ none) → IsHash (h reachable))) ∧
    ∀ value, (IsHash value → normalizeHash value = value) ∧
      (¬IsHash value → normalizeHash value = "#" ++ value) ∧
      Tab.ofFragment (normalizeHash value) = Tab.ofFragment value := by
  intro told h
  have told_eq : ∀ reachable c,
      told reachable c = some ((⟨h reachable⟩ : Location).answer reachable c).value := by
    intro reachable c
    have hl : after reachable ⟨raw⟩ before = ⟨h reachable⟩ :=
      congrArg Location.mk (hash_after reachable raw before)
    change Option.map _ _ = _
    rw [getElem?_calls, hl]
    rfl
  refine ⟨?_, fun t => ?_, told_eq false .read, fun t => told_eq false (.write t),
    fun reachable => ⟨told_eq reachable .hash, fun value => told_eq reachable (.set value),
      hashAfter_of_unwritten raw, fun ⟨_, hmem, hc⟩ => isHash_hashAfter raw hmem hc⟩,
    fun value => ⟨normalizeHash_of_isHash, normalizeHash_of_not_isHash,
      Tab.ofFragment_normalizeHash value⟩⟩
  · rw [told_eq, ← ofFragment_hashAfter]
    rfl
  · have hwrite : (⟨h true⟩ : Location).set t.fragment = ⟨t.fragment⟩ :=
      congrArg Location.mk (normalizeHash_fragment t)
    rw [told_eq, ← hwrite]
    rfl

end Location

end HashTabs
