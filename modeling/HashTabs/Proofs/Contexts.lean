import HashTabs.Navigation
import HashTabs.Proofs.Tab.Fragment

/-! Contexts side by side, seen from outside: the hash that they share, the context behind each
number, and what every change does to the two. -/

namespace HashTabs

open Log

namespace Contexts

/-- The hash of the location that the contexts share, if they share one. -/
def hash? : Contexts → Option String
  | shared l _ => some l.hash
  | separate _ => none

/-- The context with a number, without its location. -/
def context? (cs : Contexts) (i : Nat) : Option Context := (cs.get? i).map (·.context)

theorem get?_shared (l : Location) (cs : List Context) (i : Nat) :
    (shared l cs).get? i = cs[i]?.map (⟨l, ·⟩) :=
  List.getElem?_map ..

theorem context?_shared (l : Location) (cs : List Context) (i : Nat) :
    (shared l cs).context? i = cs[i]? := by
  simp [context?, get?, toList, Function.comp_def]

theorem context?_separate (ns : List Navigation) (i : Nat) :
    (separate ns).context? i = ns[i]?.map (·.context) := rfl

/-- Changes the navigation with a number, if there is one. -/
def modify (i : Nat) (f : Navigation → Navigation) (cs : Contexts) : Contexts :=
  match cs.get? i with
  | some n => cs.set i (f n)
  | none => cs

theorem get?_isSome_iff (cs : Contexts) (i : Nat) :
    (cs.get? i).isSome ↔ i < cs.toList.length := by
  simp [get?]

theorem get?_lt {cs : Contexts} {i : Nat} {n : Navigation} (h : cs.get? i = some n) :
    i < cs.toList.length :=
  (cs.get?_isSome_iff i).mp (Option.isSome_iff_exists.mpr ⟨n, h⟩)

theorem exists_get?_of_lt {cs : Contexts} {i : Nat} (h : i < cs.toList.length) :
    ∃ n, cs.get? i = some n :=
  Option.isSome_iff_exists.mp ((cs.get?_isSome_iff i).mpr h)

theorem context?_of_get? {cs : Contexts} {i : Nat} {n : Navigation} (h : cs.get? i = some n) :
    cs.context? i = some n.context := by
  rw [context?, h]
  rfl

theorem exists_context?_of_lt {cs : Contexts} {i : Nat} (h : i < cs.toList.length) :
    ∃ c, cs.context? i = some c := by
  obtain ⟨n, hn⟩ := exists_get?_of_lt h
  exact ⟨n.context, context?_of_get? hn⟩

theorem context?_eq_none {cs : Contexts} {i : Nat} (h : cs.toList.length ≤ i) :
    cs.context? i = none := by
  rw [context?, get?, List.getElem?_eq_none h]
  rfl

theorem hash_of_get? {cs : Contexts} {i : Nat} {n : Navigation} {x : String}
    (hx : cs.hash? = some x) (hn : cs.get? i = some n) : n.location.hash = x := by
  cases cs with
  | shared l cs =>
    obtain ⟨c, _, rfl⟩ := by simpa [get?, toList] using hn
    simpa [hash?] using hx
  | separate ns => simp [hash?] at hx

/-! ## Putting a context back -/

theorem set_of_get? {cs : Contexts} {i : Nat} {n : Navigation} (h : cs.get? i = some n) :
    cs.set i n = cs := by
  cases cs with
  | shared l cs =>
    obtain ⟨c, hc, rfl⟩ : ∃ c, cs[i]? = some c ∧ (⟨l, c⟩ : Navigation) = n := by
      simpa [get?, toList] using h
    obtain ⟨hi, rfl⟩ := List.getElem?_eq_some_iff.mp hc
    simp only [set, List.set_getElem_self]
  | separate ns =>
    obtain ⟨hi, rfl⟩ := List.getElem?_eq_some_iff.mp h
    exact congrArg separate (List.set_getElem_self hi)

theorem context?_set (cs : Contexts) (i j : Nat) (n : Navigation) :
    (cs.set i n).context? j =
      if i = j then (cs.context? j).map fun _ => n.context else cs.context? j := by
  by_cases h : i = j
  · subst h
    rw [if_pos rfl]
    cases cs with
    | shared l cs =>
      simp only [set, context?_shared, List.getElem?_set_self']
      rfl
    | separate ns =>
      simp only [set, context?_separate, List.getElem?_set_self']
      cases ns[i]? <;> rfl
  · cases cs <;> simp [set, context?_shared, context?_separate, List.getElem?_set_ne h, h]

@[simp] theorem isShared_set (cs : Contexts) (i : Nat) (n : Navigation) :
    (cs.set i n).isShared = cs.isShared := by
  cases cs <;> rfl

theorem hash?_set (cs : Contexts) (i : Nat) (n : Navigation) :
    (cs.set i n).hash? = cs.hash?.map fun _ => n.location.hash := by
  cases cs <;> rfl

theorem get?_set_self {cs : Contexts} {i : Nat} {old : Navigation} (h : cs.get? i = some old)
    (n : Navigation) : (cs.set i n).get? i = some n := by
  have hi : i < cs.toList.length := get?_lt h
  cases cs with
  | shared l cs =>
    have hlt : i < cs.length := by simpa [toList] using hi
    rw [set, get?_shared, List.getElem?_set_self hlt]
    rfl
  | separate ns => exact List.getElem?_set_self hi

/-- A context that is put back with its location as it was is put back unseen by the others. -/
theorem get?_set_of_ne {cs : Contexts} {i j : Nat} {old n : Navigation} (h : cs.get? i = some old)
    (hl : n.location = old.location ∨ cs.isShared = false) (hij : i ≠ j) :
    (cs.set i n).get? j = cs.get? j := by
  cases cs with
  | shared l cs =>
    rw [get?_shared] at h
    obtain ⟨c, -, rfl⟩ := Option.map_eq_some_iff.mp h
    have hn : n.location = l := hl.elim id fun hc => by cases hc
    rw [set, get?_shared, get?_shared, List.getElem?_set_ne hij, hn]
  | separate ns => exact List.getElem?_set_ne hij

/-! ## Changing a context -/

@[simp] theorem length_modify (cs : Contexts) (i : Nat) (f : Navigation → Navigation) :
    (cs.modify i f).toList.length = cs.toList.length := by
  unfold modify
  split <;> simp

@[simp] theorem isShared_modify (cs : Contexts) (i : Nat) (f : Navigation → Navigation) :
    (cs.modify i f).isShared = cs.isShared := by
  unfold modify
  split <;> simp

theorem get?_modify_self {cs : Contexts} {i : Nat} {n : Navigation}
    (f : Navigation → Navigation) (h : cs.get? i = some n) :
    (cs.modify i f).get? i = some (f n) := by
  simp only [modify, h]
  exact get?_set_self h (f n)

theorem context?_modify_self {cs : Contexts} {i : Nat} {n : Navigation}
    (f : Navigation → Navigation) (h : cs.get? i = some n) :
    (cs.modify i f).context? i = some (f n).context :=
  context?_of_get? (get?_modify_self f h)

theorem context?_modify_ne (cs : Contexts) {i j : Nat} (f : Navigation → Navigation) (h : i ≠ j) :
    (cs.modify i f).context? j = cs.context? j := by
  unfold modify
  split
  · rw [context?_set, if_neg h]
  · rfl

theorem get?_modify_of_ne {cs : Contexts} {i j : Nat} {f : Navigation → Navigation}
    (hl : (∀ n, (f n).location = n.location) ∨ cs.isShared = false) (hij : i ≠ j) :
    (cs.modify i f).get? j = cs.get? j := by
  unfold modify
  split
  · rename_i n hn
    exact get?_set_of_ne hn (hl.imp_left fun hf => hf n) hij
  · rfl

theorem hash?_modify {cs : Contexts} {i : Nat} {n : Navigation}
    (f : Navigation → Navigation) (h : cs.get? i = some n) :
    (cs.modify i f).hash? = cs.hash?.map fun _ => (f n).location.hash := by
  simp only [modify, h, hash?_set]

/-! ## Making contexts, and writing behind their backs -/

@[simp] theorem length_attach (cs : Contexts) :
    cs.attach.value.toList.length = cs.toList.length + 1 := by
  cases cs <;> simp [attach, toList]

@[simp] theorem hash?_attach (cs : Contexts) : cs.attach.value.hash? = cs.hash? := by
  cases cs <;> rfl

theorem get?_attach_of_lt {cs : Contexts} {i : Nat} (h : i < cs.toList.length) :
    cs.attach.value.get? i = cs.get? i := by
  cases cs with
  | shared l cs =>
    have hi : i < cs.length := by simpa [toList] using h
    rw [attach, Logged.value_map, get?_shared, get?_shared, List.getElem?_append_left hi]
  | separate ns => exact List.getElem?_append_left h

theorem context?_attach_of_lt {cs : Contexts} {i : Nat} (h : i < cs.toList.length) :
    cs.attach.value.context? i = cs.context? i := by
  rw [context?, get?_attach_of_lt h, context?]

/-- A new context holds the tab of its location, and has told nobody anything. -/
theorem get?_attach_length (cs : Contexts) :
    ∃ n, cs.attach.value.get? cs.toList.length = some n ∧
      n.context = { active := Tab.ofFragment n.location.hash } := by
  cases cs with
  | shared l cs =>
    refine ⟨(Navigation.start l).value, ?_, rfl⟩
    simp [attach, get?_shared, toList, Navigation.start]
  | separate ns =>
    exact ⟨Navigation.detached.value, List.getElem?_concat_length, rfl⟩

theorem get?_attach_length_of_separate {cs : Contexts} (h : cs.isShared = false) :
    cs.attach.value.get? cs.toList.length = some Navigation.detached.value := by
  cases cs with
  | shared l cs => cases h
  | separate ns => exact List.getElem?_concat_length

@[simp] theorem isShared_attach (cs : Contexts) : cs.attach.value.isShared = cs.isShared := by
  cases cs <;> rfl

@[simp] theorem isShared_setHash (cs : Contexts) (v : String) :
    (cs.setHash v).isShared = cs.isShared := by
  cases cs <;> rfl

@[simp] theorem length_setHash (cs : Contexts) (v : String) :
    (cs.setHash v).toList.length = cs.toList.length := by
  cases cs <;> simp [setHash, toList]

@[simp] theorem context?_setHash (cs : Contexts) (v : String) (i : Nat) :
    (cs.setHash v).context? i = cs.context? i := by
  cases cs <;> simp [setHash, context?_shared]

@[simp] theorem hash?_setHash (cs : Contexts) (v : String) :
    (cs.setHash v).hash? = cs.hash?.map fun _ => normalizeHash v := by
  cases cs <;> rfl

end Contexts

end HashTabs
