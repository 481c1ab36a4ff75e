import HashTabs.Proofs.Html.Tags

/-! The attributes in a tag. A value stands in quotes and has none in it, so quotes tell what is a value
from what is a name, and the value that is found for a name is the one that was written for it. -/

namespace HashTabs.Html

/-- Looks for a key outside of quotes, and gives what stands in the quotes behind it. `before` is what
was read since the last quotes; there is none within quotes. -/
def valueFrom (key : List Char) : Option (List Char) → List Char → Option (List Char)
  | _, [] => none
  | some before, c :: s =>
    if c = '"' then
      if key.isSuffixOf before then some (s.takeWhile (· != '"')) else valueFrom key none s
    else valueFrom key (some (before ++ [c])) s
  | none, c :: s => valueFrom key (if c = '"' then some [] else none) s

/-- The value that a tag has for an attribute. -/
def attribute? (name : String) (tag : List Char) : Option (List Char) :=
  valueFrom (' ' :: name.toList ++ ['=']) (some []) tag

/-- How the value of an attribute is written. -/
def valueChars (a : Attribute) : List Char := a.value.toList.flatMap escapeValueChar

section

variable {key x : List Char}

theorem valueFrom_outside (h : '"' ∉ x) (before s : List Char) :
    valueFrom key (some before) (x ++ s) = valueFrom key (some (before ++ x)) s := by
  induction x generalizing before with
  | nil => rw [List.nil_append, List.append_nil]
  | cons c x ih =>
    obtain ⟨hc, hx⟩ := not_or.mp (mt List.mem_cons.mpr h)
    rw [List.cons_append, valueFrom, if_neg (Ne.symm hc), ih hx, List.append_assoc]
    rfl

theorem valueFrom_inside (h : '"' ∉ x) (s : List Char) :
    valueFrom key none (x ++ '"' :: s) = valueFrom key (some []) s := by
  induction x with
  | nil => rw [List.nil_append, valueFrom, if_pos rfl]
  | cons c x ih =>
    obtain ⟨hc, hx⟩ := not_or.mp (mt List.mem_cons.mpr h)
    rw [List.cons_append, valueFrom, if_neg (Ne.symm hc), ih hx]

theorem takeWhile_value (h : '"' ∉ x) (s : List Char) :
    (x ++ '"' :: s).takeWhile (· != '"') = x := by
  have hall : ∀ c ∈ x, (c != '"') = true := by
    intro c hc
    rw [bne_iff_ne]
    rintro rfl
    exact h hc
  rw [List.takeWhile_append_of_pos hall]
  simp

end

/-- A name is told by the space before it and the sign after it. -/
theorem isSuffixOf_name_iff {n m : List Char} (hn : ' ' ∉ n) (hm : ' ' ∉ m) (before : List Char) :
    (' ' :: n ++ ['=']).isSuffixOf (before ++ (' ' :: m ++ ['='])) = true ↔ n = m := by
  rw [List.isSuffixOf_iff_suffix]
  constructor
  · rintro ⟨t, ht⟩
    -- Read from the end, a name goes up to the first space.
    have hlast : ∀ (t l : List Char), ' ' ∉ l →
        ((t ++ (' ' :: l ++ ['='])).reverse.drop 1).takeWhile (· != ' ') = l.reverse := by
      intro t l hl
      have hall : ∀ c ∈ l.reverse, (c != ' ') = true := by
        intro c hc
        rw [bne_iff_ne]
        rintro rfl
        exact hl (List.mem_reverse.mp hc)
      have hrev : (t ++ (' ' :: l ++ ['='])).reverse.drop 1 = l.reverse ++ ' ' :: t.reverse := by
        simp
      rw [hrev, List.takeWhile_append_of_pos hall]
      simp
    rw [← List.reverse_inj, ← hlast t n hn, ht, hlast before m hm]
  · rintro rfl
    exact List.suffix_append before _

/-! ## Attributes as they are written -/

theorem quote_notMem_valueChars (a : Attribute) : '"' ∉ valueChars a := by
  simp only [valueChars, List.mem_flatMap, not_exists, not_and]
  exact fun c _ => quote_notMem_escapeValueChar c

theorem name_chars (a : Attribute) : ' ' ∉ a.name.toList ∧ '"' ∉ a.name.toList := by
  cases a <;> simp [Attribute.name]

theorem valueFrom_attributes {name : String} (h : ' ' ∉ name.toList) (as : List Attribute)
    (before : List Char) :
    valueFrom (' ' :: name.toList ++ ['=']) (some before) (as.flatMap attributeChars ++ ['>']) =
      (as.find? fun a => a.name = name).map valueChars := by
  induction as generalizing before with
  | nil => simp [valueFrom]
  | cons a as ih =>
    obtain ⟨hspace, hquote⟩ := name_chars a
    have hkey : '"' ∉ ' ' :: a.name.toList ++ ['='] := by simp [hquote]
    have hshape : (a :: as).flatMap attributeChars ++ ['>'] = (' ' :: a.name.toList ++ ['=']) ++
        '"' :: (valueChars a ++ '"' :: (as.flatMap attributeChars ++ ['>'])) := by
      simp [attributeChars, valueChars]
    rw [hshape, valueFrom_outside hkey, valueFrom, if_pos rfl]
    -- At the quotes, either this is the attribute, or its value is passed over and nothing read so
    -- far counts for the next one.
    by_cases hname : a.name = name
    · have hsuffix := (isSuffixOf_name_iff h hspace before).mpr (by rw [hname])
      rw [if_pos hsuffix, takeWhile_value (quote_notMem_valueChars a),
        List.find?_cons_of_pos (by simp [hname])]
      rfl
    · have hsuffix := mt (isSuffixOf_name_iff h hspace before).mp
        fun heq => hname (String.toList_inj.mp heq).symm
      rw [if_neg hsuffix, valueFrom_inside (quote_notMem_valueChars a), ih,
        List.find?_cons_of_neg (by simp [hname])]

/-- The value that an opening tag has for an attribute is the one that was written for it first. -/
theorem attribute?_openTag {name name' : String} (h : ' ' ∉ name.toList) (h' : '"' ∉ name'.toList)
    (as : List Attribute) :
    attribute? name (openTag name' as) = (as.find? fun a => a.name = name).map valueChars := by
  have hopen : '"' ∉ '<' :: name'.toList := by simp [h']
  rw [attribute?, openTag, List.append_assoc, valueFrom_outside hopen, valueFrom_attributes h]

theorem attribute?_closeTag (name : String) {name' : String} (h' : '"' ∉ name'.toList) :
    attribute? name (closeTag name') = none := by
  have hclose : '"' ∉ '<' :: '/' :: name'.toList ++ ['>'] := by simp [h']
  rw [attribute?, closeTag, ← List.append_nil ('<' :: '/' :: name'.toList ++ ['>']),
    valueFrom_outside hclose, valueFrom]

theorem quote_notMem_name (e : Element) : '"' ∉ e.name.toList := by
  cases e <;> simp [Element.name]

theorem quote_notMem_button : '"' ∉ "button".toList := by simp

mutual

/-- The values that the tags in a piece of a page have for an attribute, in the order of the tags. -/
def valuesOf (name : String) : Html → List (List Char)
  | text _ => []
  | element _ as hs =>
    ((as.find? fun a => a.name = name).map valueChars).toList ++ valuesOfAll name hs
  | button a _ _ =>
    (([Attribute.classes a.classes].find? fun a => a.name = name).map valueChars).toList

def valuesOfAll (name : String) : List Html → List (List Char)
  | [] => []
  | h :: hs => valuesOf name h ++ valuesOfAll name hs

end

theorem filterMap_cons_toList {α β : Type} (f : α → Option β) (a : α) (l : List α) :
    (a :: l).filterMap f = (f a).toList ++ l.filterMap f := by
  rw [List.filterMap_cons]
  cases f a <;> rfl

mutual

theorem filterMap_attribute?_tagsOf {name : String} (hn : ' ' ∉ name.toList) (h : Html) :
    h.tagsOf.filterMap (attribute? name) = h.valuesOf name := by
  cases h with
  | text s => rfl
  | element e as hs =>
    rw [tagsOf, filterMap_cons_toList, List.filterMap_append, filterMap_attribute?_tagsOfAll hn hs,
      filterMap_cons_toList, attribute?_openTag hn (quote_notMem_name e),
      attribute?_closeTag name (quote_notMem_name e), valuesOf]
    simp
  | button a t label =>
    rw [tagsOf, filterMap_cons_toList, filterMap_cons_toList,
      attribute?_openTag hn quote_notMem_button, attribute?_closeTag name quote_notMem_button,
      valuesOf]
    simp

theorem filterMap_attribute?_tagsOfAll {name : String} (hn : ' ' ∉ name.toList)
    (hs : List Html) :
    (tagsOfAll hs).filterMap (attribute? name) = valuesOfAll name hs := by
  cases hs with
  | nil => rfl
  | cons h hs =>
    rw [tagsOfAll, List.filterMap_append, filterMap_attribute?_tagsOf hn h,
      filterMap_attribute?_tagsOfAll hn hs, valuesOfAll]

end

/-- The values that are found for an attribute in a written page are those that were written. -/
theorem filterMap_attribute?_tags_chars {name : String} (hn : ' ' ∉ name.toList) (h : Html) :
    (tags h.chars).filterMap (attribute? name) = h.valuesOf name := by
  rw [tags_chars, filterMap_attribute?_tagsOf hn]

end HashTabs.Html
