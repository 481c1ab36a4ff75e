import HashTabs.Proofs.Html.Tags

/-! The elements of a written page: an opening tag each, and all that stands before the closing tag that
belongs to it. Closing tags belong to the last element of their name that is still open, so what a
reader finds between the two is what was put into the element. -/

namespace HashTabs.Html

/-- The tokens before the closing tag of an element with a name, when `opened` more elements of that
name are to be closed before it. -/
def untilClosed (name : String) : Nat → List Token → Option (List Token)
  | _, [] => none
  | opened, .char c :: ts => (untilClosed name opened ts).map (.char c :: ·)
  | opened, .tag t :: ts =>
    if tagName t = name.toList then (untilClosed name (opened + 1) ts).map (.tag t :: ·)
    else if tagName t = '/' :: name.toList then
      if opened = 0 then some [] else (untilClosed name (opened - 1) ts).map (.tag t :: ·)
    else (untilClosed name opened ts).map (.tag t :: ·)

/-- The elements with a name, in the order of their opening tags: each with that tag and with the
tokens inside. -/
def elementsIn (name : String) : List Token → List (List Char × List Token)
  | [] => []
  | .char _ :: ts => elementsIn name ts
  | .tag t :: ts =>
    if tagName t = name.toList then
      ((untilClosed name 0 ts).map (t, ·)).toList ++ elementsIn name ts
    else elementsIn name ts

mutual

/-- The elements of a sort in a piece of a page. -/
def elementsOf (e : Element) : Html → List (List Char × List Token)
  | text _ | button .. => []
  | element e' as hs =>
    (if e' = e then [(openTag e'.name as, tokensOfAll hs)] else []) ++ elementsOfAll e hs

def elementsOfAll (e : Element) : List Html → List (List Char × List Token)
  | [] => []
  | h :: hs => elementsOf e h ++ elementsOfAll e hs

end

/-! ## Tokens that close what they open -/

/-- Holds of tokens that close the elements with a name that they open, and no others. -/
def Balanced (name : String) (xs : List Token) : Prop :=
  ∀ opened ts, untilClosed name opened (xs ++ ts) = (untilClosed name opened ts).map (xs ++ ·)

section

variable {name : String}

theorem balanced_nil : Balanced name [] := by
  intro opened ts
  simp

theorem Balanced.append {xs ys : List Token} (hx : Balanced name xs) (hy : Balanced name ys) :
    Balanced name (xs ++ ys) := by
  intro opened ts
  rw [List.append_assoc, hx, hy, Option.map_map]
  simp [Function.comp_def]

theorem balanced_chars (s : List Char) : Balanced name (s.map .char) := by
  intro opened ts
  induction s with
  | nil => simp
  | cons c s ih =>
    rw [List.map_cons, List.cons_append, untilClosed, ih, Option.map_map]
    rfl

theorem untilClosed_openTag (h : IsName name) (as : List Attribute) (opened : Nat)
    (ts : List Token) : untilClosed name opened (.tag (openTag name as) :: ts) =
      (untilClosed name (opened + 1) ts).map (.tag (openTag name as) :: ·) :=
  if_pos (tagName_openTag h as)

theorem untilClosed_closeTag (h : IsName name) (opened : Nat) (ts : List Token) :
    untilClosed name opened (.tag (closeTag name) :: ts) =
      if opened = 0 then some []
      else (untilClosed name (opened - 1) ts).map (.tag (closeTag name) :: ·) := by
  rw [untilClosed, if_neg (tagName_closeTag_ne h h), if_pos (tagName_closeTag h)]

theorem untilClosed_of_other {t : List Char} (hopen : tagName t ≠ name.toList)
    (hclose : tagName t ≠ '/' :: name.toList) (opened : Nat) (ts : List Token) :
    untilClosed name opened (.tag t :: ts) = (untilClosed name opened ts).map (.tag t :: ·) := by
  rw [untilClosed, if_neg hopen, if_neg hclose]

theorem tagName_openTag_ne_slash {name' : String} (h : IsName name') (as : List Attribute) :
    tagName (openTag name' as) ≠ '/' :: name.toList := by
  rw [tagName_openTag h]
  intro heq
  have hslash : '/' ∈ name'.toList := by
    rw [heq]
    exact List.mem_cons_self
  exact (h _ hslash).2.2 rfl

/-- Tags of any name around balanced tokens leave them balanced. -/
theorem Balanced.wrap {name' : String} (h : IsName name) (h' : IsName name')
    (as : List Attribute) {xs : List Token} (hx : Balanced name xs) :
    Balanced name (.tag (openTag name' as) :: (xs ++ [.tag (closeTag name')])) := by
  intro opened ts
  have hshape : .tag (openTag name' as) :: (xs ++ [.tag (closeTag name')]) ++ ts =
      .tag (openTag name' as) :: (xs ++ .tag (closeTag name') :: ts) := by simp
  rw [hshape]
  by_cases hname : name' = name
  · -- The closing tag takes back what the opening tag added.
    subst hname
    rw [untilClosed_openTag h, hx, untilClosed_closeTag h]
    simp [Option.map_map, Function.comp_def]
  · have hopen : tagName (openTag name' as) ≠ name.toList := by
      rw [tagName_openTag h']
      exact mt String.toList_inj.mp hname
    have hclose : tagName (closeTag name') ≠ '/' :: name.toList := by
      rw [tagName_closeTag h']
      exact fun heq => hname (String.toList_inj.mp (List.cons.inj heq).2)
    rw [untilClosed_of_other hopen (tagName_openTag_ne_slash h' as), hx,
      untilClosed_of_other (tagName_closeTag_ne h' h) hclose]
    simp [Option.map_map, Function.comp_def]

end

mutual

theorem balanced_tokensOf {name : String} (hn : IsName name) (h : Html) :
    Balanced name h.tokensOf := by
  cases h with
  | text s => exact balanced_chars _
  | element e as hs => exact (balanced_tokensOfAll hn hs).wrap hn (isName_name e) as
  | button a t label => exact (balanced_chars _).wrap hn isName_button _

theorem balanced_tokensOfAll {name : String} (hn : IsName name) (hs : List Html) :
    Balanced name (tokensOfAll hs) := by
  cases hs with
  | nil => exact balanced_nil
  | cons h hs => exact (balanced_tokensOf hn h).append (balanced_tokensOfAll hn hs)

end

/-! ## Elements of a page -/

theorem untilClosed_tokensOfAll {name : String} (hn : IsName name) (hs : List Html)
    (ts : List Token) :
    untilClosed name 0 (tokensOfAll hs ++ .tag (closeTag name) :: ts) = some (tokensOfAll hs) := by
  rw [balanced_tokensOfAll hn hs, untilClosed_closeTag hn]
  simp

theorem elementsIn_chars (name : String) (s : List Char) (ts : List Token) :
    elementsIn name (s.map .char ++ ts) = elementsIn name ts := by
  induction s with
  | nil => rfl
  | cons c s ih => exact ih

theorem elementsIn_openTag_of_ne {name name' : String} (h : IsName name) (hne : name ≠ name')
    (as : List Attribute) (ts : List Token) :
    elementsIn name' (.tag (openTag name as) :: ts) = elementsIn name' ts := by
  refine if_neg ?_
  rw [tagName_openTag h]
  exact mt String.toList_inj.mp hne

theorem elementsIn_closeTag {name name' : String} (h : IsName name) (h' : IsName name')
    (ts : List Token) :
    elementsIn name' (.tag (closeTag name) :: ts) = elementsIn name' ts :=
  if_neg (tagName_closeTag_ne h h')

mutual

theorem elementsIn_tokensOf (e : Element) (h : Html) (ts : List Token) :
    elementsIn e.name (h.tokensOf ++ ts) = h.elementsOf e ++ elementsIn e.name ts := by
  -- By induction on the page, with whatever follows it. Elements inside an element are found after
  -- it, so its own inside is read once as a whole and once for what it holds.
  cases h with
  | text s => exact elementsIn_chars e.name _ ts
  | element e' as hs =>
    have hinside : elementsIn e.name (tokensOfAll hs ++ .tag (closeTag e'.name) :: ts) =
        elementsOfAll e hs ++ elementsIn e.name ts := by
      rw [elementsIn_tokensOfAll e hs, elementsIn_closeTag (isName_name e') (isName_name e)]
    rw [tokensOf, List.cons_append, List.append_assoc, List.singleton_append, elementsOf]
    by_cases he : e' = e
    · subst he
      rw [elementsIn, if_pos (tagName_openTag (isName_name e') as), hinside,
        untilClosed_tokensOfAll (isName_name e'), if_pos rfl]
      rfl
    · rw [elementsIn_openTag_of_ne (isName_name e') (mt name_inj.mp he), hinside, if_neg he]
      rfl
  | button a t label =>
    rw [tokensOf, List.cons_append, List.append_assoc, List.singleton_append,
      elementsIn_openTag_of_ne isName_button (name_ne_button e).symm, elementsIn_chars,
      elementsIn_closeTag isName_button (isName_name e)]
    rfl

theorem elementsIn_tokensOfAll (e : Element) (hs : List Html) (ts : List Token) :
    elementsIn e.name (tokensOfAll hs ++ ts) = elementsOfAll e hs ++ elementsIn e.name ts := by
  cases hs with
  | nil => rfl
  | cons h hs =>
    rw [tokensOfAll, List.append_assoc, elementsIn_tokensOf e h, elementsIn_tokensOfAll e hs,
      elementsOfAll, List.append_assoc]

end

/-- The elements that are found in a written page are those that were written, with what was written
inside them. -/
theorem elementsIn_tokens_chars (e : Element) (h : Html) :
    elementsIn e.name (tokens h.chars) = h.elementsOf e := by
  have helements := elementsIn_tokensOf e h []
  rwa [List.append_nil, elementsIn, List.append_nil, ← tokens_chars] at helements

end HashTabs.Html
