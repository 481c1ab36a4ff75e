import HashTabs.Proofs.Html.Escape

/-! Written pages are cut into tags, which run from one angle bracket to the next, and the characters
between them. The tags that are found in this way are those of the page and no others. -/

namespace HashTabs.Html

/-- What a written page is made of. -/
inductive Token where
  | tag (s : List Char)
  | char (c : Char)
  deriving DecidableEq, Repr

/-- Cuts a text into tokens, inside a tag of which `read` has been read, or outside of tags. What
begins like a tag and never ends is none. -/
def tokensFrom : Option (List Char) → List Char → List Token
  | none, [] => []
  | some read, [] => read.map .char
  | none, c :: s => if c = '<' then tokensFrom (some [c]) s else .char c :: tokensFrom none s
  | some read, c :: s =>
    if c = '>' then .tag (read ++ [c]) :: tokensFrom none s else tokensFrom (some (read ++ [c])) s

/-- The tokens of a text. -/
def tokens (s : List Char) : List Token := tokensFrom none s

@[simp] theorem tokens_nil : tokens [] = [] := rfl

def Token.tag? : Token → Option (List Char)
  | tag s => some s
  | char _ => none

/-- The tags of a text, in order. -/
def tags (s : List Char) : List (List Char) := (tokens s).filterMap Token.tag?

@[simp] theorem toList_render (h : Html) : h.render.toList = h.chars := String.toList_ofList

/-- The name in a tag; that of a closing tag begins with a slash. -/
def tagName (t : List Char) : List Char := (t.drop 1).takeWhile fun c => c != ' ' && c != '>'

/-- How many tags open a button. -/
def buttonCount (ts : List (List Char)) : Nat := ts.countP fun t => tagName t = "button".toList

/-! ## Cutting -/

theorem tokens_append_of_notMem {x : List Char} (h : '<' ∉ x) (s : List Char) :
    tokens (x ++ s) = x.map .char ++ tokens s := by
  induction x with
  | nil => rfl
  | cons c x ih =>
    obtain ⟨hc, hx⟩ := not_or.mp (mt List.mem_cons.mpr h)
    rw [List.cons_append, tokens, tokensFrom, if_neg (Ne.symm hc)]
    exact congrArg _ (ih hx)

theorem tokensFrom_append_of_notMem {x : List Char} (h : '>' ∉ x) (read s : List Char) :
    tokensFrom (some read) (x ++ '>' :: s) = .tag (read ++ x ++ ['>']) :: tokens s := by
  -- What has been read of the tag grows while the rest shrinks.
  induction x generalizing read with
  | nil => rw [List.nil_append, tokensFrom, if_pos rfl, List.append_nil]; rfl
  | cons c x ih =>
    obtain ⟨hc, hx⟩ := not_or.mp (mt List.mem_cons.mpr h)
    rw [List.cons_append, tokensFrom, if_neg (Ne.symm hc), ih hx]
    simp

theorem tokens_tag {x : List Char} (h : '>' ∉ x) (s : List Char) :
    tokens ('<' :: x ++ ['>'] ++ s) = .tag ('<' :: x ++ ['>']) :: tokens s := by
  rw [List.append_assoc, List.singleton_append, List.cons_append, tokens, tokensFrom, if_pos rfl]
  exact tokensFrom_append_of_notMem h ['<'] s

/-! ## Tags -/

/-- Holds of a name that a tag can be told by. -/
def IsName (name : String) : Prop := ∀ c ∈ name.toList, c ≠ ' ' ∧ c ≠ '>' ∧ c ≠ '/'

instance (name : String) : Decidable (IsName name) :=
  List.decidableBAll _ _

theorem isName_name (e : Element) : IsName e.name := by
  cases e <;> decide

theorem isName_button : IsName "button" := by decide

theorem name_ne_button (e : Element) : e.name ≠ "button" := by
  cases e <;> decide

theorem name_inj {e e' : Element} : e.name = e'.name ↔ e = e' := by
  constructor
  · cases e <;> cases e' <;> decide
  · exact congrArg _

theorem bracket_notMem_attributeChars (a : Attribute) : '>' ∉ attributeChars a := by
  have hname : '>' ∉ a.name.toList := by cases a <;> simp [Attribute.name]
  have hvalue : '>' ∉ a.value.toList.flatMap escapeValueChar := by
    simp only [List.mem_flatMap, not_exists, not_and]
    exact fun c _ => bracket_notMem_escapeValueChar c
  simp [attributeChars, hname, hvalue]

theorem tokens_openTag {name : String} (h : IsName name) (as : List Attribute) (s : List Char) :
    tokens (openTag name as ++ s) = .tag (openTag name as) :: tokens s := by
  have hbracket : '>' ∉ name.toList ++ as.flatMap attributeChars := by
    simp only [List.mem_append, List.mem_flatMap, not_or, not_exists, not_and]
    exact ⟨fun hmem => (h _ hmem).2.1 rfl, fun a _ => bracket_notMem_attributeChars a⟩
  exact tokens_tag hbracket s

theorem tokens_closeTag {name : String} (h : IsName name) (s : List Char) :
    tokens (closeTag name ++ s) = .tag (closeTag name) :: tokens s := by
  have hbracket : '>' ∉ '/' :: name.toList := by
    simp only [List.mem_cons, not_or]
    exact ⟨by decide, fun hmem => (h _ hmem).2.1 rfl⟩
  exact tokens_tag hbracket s

theorem tagName_cons (s : List Char) :
    tagName ('<' :: s) = s.takeWhile fun c => c != ' ' && c != '>' := rfl

theorem takeWhile_name {name : String} (h : IsName name) {c : Char} (hc : c = ' ' ∨ c = '>')
    (s : List Char) :
    (name.toList ++ c :: s).takeWhile (fun c => c != ' ' && c != '>') = name.toList := by
  rw [List.takeWhile_append_of_pos fun c hmem => by simp [(h c hmem).1, (h c hmem).2.1]]
  rcases hc with rfl | rfl <;> simp

theorem tagName_openTag {name : String} (h : IsName name) (as : List Attribute) :
    tagName (openTag name as) = name.toList := by
  cases as with
  | nil =>
    rw [openTag, List.flatMap_nil, List.append_nil, List.cons_append, tagName_cons]
    exact takeWhile_name h (.inr rfl) []
  | cons a as =>
    -- An attribute brings a space with it.
    rw [openTag, List.flatMap_cons, attributeChars]
    simp only [List.cons_append, List.append_assoc, tagName_cons]
    exact takeWhile_name h (.inl rfl) _

theorem tagName_closeTag {name : String} (h : IsName name) :
    tagName (closeTag name) = '/' :: name.toList := by
  rw [closeTag, List.cons_append, List.cons_append, tagName_cons,
    List.takeWhile_cons_of_pos (by decide), takeWhile_name h (.inr rfl)]

/-- A closing tag is told by its slash from every opening one. -/
theorem tagName_closeTag_ne {name other : String} (h : IsName name) (hother : IsName other) :
    tagName (closeTag name) ≠ other.toList := by
  rw [tagName_closeTag h]
  intro heq
  have hslash : '/' ∈ other.toList := heq ▸ List.mem_cons_self
  exact (hother _ hslash).2.2 rfl

/-! ## Pages -/

mutual

/-- The tokens that a piece of a page is written in. -/
def tokensOf : Html → List Token
  | text s => (escape s).map .char
  | element e as hs => .tag (openTag e.name as) :: (tokensOfAll hs ++ [.tag (closeTag e.name)])
  | button a _ label =>
    .tag (openTag "button" [.classes a.classes]) ::
      ((escape label).map .char ++ [.tag (closeTag "button")])

def tokensOfAll : List Html → List Token
  | [] => []
  | h :: hs => tokensOf h ++ tokensOfAll hs

end

mutual

theorem tokens_chars_append (h : Html) (s : List Char) :
    tokens (h.chars ++ s) = h.tokensOf ++ tokens s := by
  -- By induction on the page, with whatever is written behind it. A text has no bracket that could
  -- begin a tag, so the next tag is the one that was written next.
  cases h with
  | text t => exact tokens_append_of_notMem (bracket_notMem_escape t).1 s
  | element e as hs =>
    rw [chars, List.append_assoc, List.append_assoc, tokens_openTag (isName_name e),
      tokens_charsOfAll_append hs, tokens_closeTag (isName_name e), tokensOf]
    simp
  | button a t label =>
    rw [chars, List.append_assoc, List.append_assoc, tokens_openTag isName_button,
      tokens_append_of_notMem (bracket_notMem_escape label).1, tokens_closeTag isName_button,
      tokensOf]
    simp

theorem tokens_charsOfAll_append (hs : List Html) (s : List Char) :
    tokens (charsOfAll hs ++ s) = tokensOfAll hs ++ tokens s := by
  cases hs with
  | nil => rfl
  | cons h hs =>
    rw [charsOfAll, List.append_assoc, tokens_chars_append h, tokens_charsOfAll_append hs,
      tokensOfAll, List.append_assoc]

end

/-- A written page is cut into its own tags, whatever its texts are. -/
theorem tokens_chars (h : Html) : tokens h.chars = h.tokensOf := by
  have htokens := tokens_chars_append h []
  rwa [List.append_nil, tokens_nil, List.append_nil] at htokens

theorem filterMap_tag?_map_char (s : List Char) : (s.map Token.char).filterMap Token.tag? = [] := by
  rw [List.filterMap_map]
  exact List.filterMap_eq_nil_iff.mpr fun _ _ => rfl

mutual

/-- The tags of a piece of a page. -/
def tagsOf : Html → List (List Char)
  | text _ => []
  | element e as hs => openTag e.name as :: (tagsOfAll hs ++ [closeTag e.name])
  | button a _ _ => [openTag "button" [.classes a.classes], closeTag "button"]

def tagsOfAll : List Html → List (List Char)
  | [] => []
  | h :: hs => tagsOf h ++ tagsOfAll hs

end

mutual

theorem filterMap_tag?_tokensOf (h : Html) : h.tokensOf.filterMap Token.tag? = h.tagsOf := by
  cases h with
  | text s => exact filterMap_tag?_map_char _
  | element e as hs =>
    simp [tokensOf, tagsOf, Token.tag?, filterMap_tag?_tokensOfAll hs]
  | button a t label =>
    simp [tokensOf, tagsOf, Token.tag?]

theorem filterMap_tag?_tokensOfAll (hs : List Html) :
    (tokensOfAll hs).filterMap Token.tag? = tagsOfAll hs := by
  cases hs with
  | nil => rfl
  | cons h hs =>
    rw [tokensOfAll, List.filterMap_append, filterMap_tag?_tokensOf h,
      filterMap_tag?_tokensOfAll hs, tagsOfAll]

end

/-- The tags of a written page do not depend on its texts. -/
theorem tags_chars (h : Html) : tags h.chars = h.tagsOf := by
  rw [tags, tokens_chars, filterMap_tag?_tokensOf]

theorem buttonCount_append (ts ts' : List (List Char)) :
    buttonCount (ts ++ ts') = buttonCount ts + buttonCount ts' := List.countP_append

theorem buttonCount_cons_of_eq {t : List Char} (h : tagName t = "button".toList)
    (ts : List (List Char)) : buttonCount (t :: ts) = buttonCount ts + 1 :=
  List.countP_cons_of_pos (decide_eq_true h)

theorem buttonCount_cons_of_ne {t : List Char} (h : tagName t ≠ "button".toList)
    (ts : List (List Char)) : buttonCount (t :: ts) = buttonCount ts :=
  List.countP_cons_of_neg (mt of_decide_eq_true h)

theorem tagName_openTag_ne_button (e : Element) (as : List Attribute) :
    tagName (openTag e.name as) ≠ "button".toList := by
  rw [tagName_openTag (isName_name e)]
  exact fun h => name_ne_button e (String.toList_inj.mp h)

mutual

theorem buttonCount_tagsOf (h : Html) : buttonCount h.tagsOf = h.buttons.length := by
  -- Neither the tags of other elements nor closing tags have the name of a button.
  cases h with
  | text s => rfl
  | element e as hs =>
    rw [tagsOf, buttonCount_cons_of_ne (tagName_openTag_ne_button e as), buttonCount_append,
      buttonCount_tagsOfAll hs,
      buttonCount_cons_of_ne (tagName_closeTag_ne (isName_name e) isName_button)]
    rfl
  | button a t label =>
    rw [tagsOf, buttonCount_cons_of_eq (tagName_openTag isName_button _),
      buttonCount_cons_of_ne (tagName_closeTag_ne isName_button isName_button)]
    rfl

theorem buttonCount_tagsOfAll (hs : List Html) :
    buttonCount (tagsOfAll hs) = (buttonsOfAll hs).length := by
  cases hs with
  | nil => rfl
  | cons h hs =>
    rw [tagsOfAll, buttonCount_append, buttonCount_tagsOf h, buttonCount_tagsOfAll hs, buttonsOfAll,
      List.length_append]

end

/-- A written page has one button for each of its tabs. -/
theorem buttonCount_tags_chars (h : Html) : buttonCount (tags h.chars) = h.buttons.length := by
  rw [tags_chars, buttonCount_tagsOf]

end HashTabs.Html
