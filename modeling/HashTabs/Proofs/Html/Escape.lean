import HashTabs.Html

/-! Escaping. A text between tags has no angle bracket in it, and is read back by undoing the three
escapes. -/

namespace HashTabs.Html

/-- Undoes the escapes of a text between tags. An ampersand that begins none of them stands for
itself. -/
def unescape : List Char → List Char
  | '&' :: 'a' :: 'm' :: 'p' :: ';' :: s => '&' :: unescape s
  | '&' :: 'l' :: 't' :: ';' :: s => '<' :: unescape s
  | '&' :: 'g' :: 't' :: ';' :: s => '>' :: unescape s
  | c :: s => c :: unescape s
  | [] => []

/-- What can be seen of a text: an empty one shows as a space. -/
def shown (s : String) : String := if s = "" then " " else s

theorem shown_of_ne {s : String} (h : s ≠ "") : shown s = s := if_neg h

theorem unescape_cons_of_ne {c : Char} (h : c ≠ '&') (s : List Char) :
    unescape (c :: s) = c :: unescape s := by
  rw [unescape] <;> simp [h]

theorem unescape_escapeChar (c : Char) (s : List Char) :
    unescape (escapeChar c ++ s) = c :: unescape s := by
  unfold escapeChar
  split
  · rfl
  · rfl
  · rfl
  · rename_i hamp _ _
    exact unescape_cons_of_ne hamp s

theorem escape_eq (s : String) : escape s = (shown s).toList.flatMap escapeChar := by
  unfold escape shown
  split
  · decide
  · rfl

theorem unescape_flatMap (s : List Char) : unescape (s.flatMap escapeChar) = s := by
  induction s with
  | nil => rfl
  | cons c s ih => rw [List.flatMap_cons, unescape_escapeChar, ih]

/-- Unescaping gives back a text as it is shown. -/
theorem unescape_escape (s : String) : unescape (escape s) = (shown s).toList := by
  rw [escape_eq, unescape_flatMap]

theorem escape_eq_iff (s t : String) : escape s = escape t ↔ shown s = shown t := by
  constructor
  · intro h
    rw [← String.toList_inj, ← unescape_escape, h, unescape_escape]
  · intro h
    rw [escape_eq, h, escape_eq]

/-! ## Angle brackets and quotes -/

theorem bracket_notMem_escapeChar (c : Char) : '<' ∉ escapeChar c ∧ '>' ∉ escapeChar c := by
  unfold escapeChar
  split
  · decide
  · decide
  · decide
  · rename_i _ hlt hgt
    simp [Ne.symm hlt, Ne.symm hgt]

theorem bracket_notMem_escape (s : String) : '<' ∉ escape s ∧ '>' ∉ escape s := by
  rw [escape_eq]
  simp only [List.mem_flatMap, not_exists, not_and]
  exact ⟨fun c _ => (bracket_notMem_escapeChar c).1, fun c _ => (bracket_notMem_escapeChar c).2⟩

/-- The value of an attribute cannot end its tag. -/
theorem bracket_notMem_escapeValueChar (c : Char) : '>' ∉ escapeValueChar c := by
  unfold escapeValueChar
  split
  · decide
  · exact (bracket_notMem_escapeChar c).2

/-- The value of an attribute cannot end its quotes. -/
theorem quote_notMem_escapeValueChar (c : Char) : '"' ∉ escapeValueChar c := by
  unfold escapeValueChar
  split
  · decide
  · rename_i hc
    unfold escapeChar
    split
    · decide
    · decide
    · decide
    · simp [Ne.symm hc]

end HashTabs.Html
