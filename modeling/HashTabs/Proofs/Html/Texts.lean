import HashTabs.Proofs.Html.Tags

/-! The texts between an opening tag and its closing tag: what a reader of a written page sees of an
element that has nothing but texts in it. -/

namespace HashTabs.Html

/-- The characters before a tag, if no other tag comes first. -/
def textBefore? (t : List Char) : List Token → Option (List Char)
  | [] => none
  | .char c :: ts => (textBefore? t ts).map (c :: ·)
  | .tag t' :: _ => if t' = t then some [] else none

/-- The texts between an opening tag with a name and its closing tag, where no other tag comes
between the two. -/
def textsBetween (name : String) : List Token → List (List Char)
  | [] => []
  | .char _ :: ts => textsBetween name ts
  | .tag t :: ts =>
    if tagName t = name.toList then
      (textBefore? (closeTag name) ts).toList ++ textsBetween name ts
    else textsBetween name ts

/-- What is written for pieces of a page that are all texts. -/
def textOnly? : List Html → Option (List Char)
  | [] => some []
  | text s :: hs => (textOnly? hs).map (escape s ++ ·)
  | _ :: _ => none

mutual

/-- What is written in the elements of a sort that have nothing but texts in them. -/
def textsOf (e : Element) : Html → List (List Char)
  | text _ | button .. => []
  | element e' _ hs => (if e' = e then textOnly? hs else none).toList ++ textsOfAll e hs

def textsOfAll (e : Element) : List Html → List (List Char)
  | [] => []
  | h :: hs => textsOf e h ++ textsOfAll e hs

end

/-! ## Characters and tags -/

theorem textBefore?_append (t : List Char) (s : List Char) (ts : List Token) :
    textBefore? t (s.map .char ++ ts) = (textBefore? t ts).map (s ++ ·) := by
  induction s with
  | nil => simp
  | cons c s ih =>
    rw [List.map_cons, List.cons_append, textBefore?, ih, Option.map_map]
    rfl

theorem textBefore?_openTag {name name' : String} (h : IsName name) (h' : IsName name')
    (as : List Attribute) (ts : List Token) :
    textBefore? (closeTag name') (.tag (openTag name as) :: ts) = none := by
  refine if_neg fun heq => tagName_closeTag_ne h' h ?_
  rw [← heq, tagName_openTag h]

theorem textsBetween_append (name : String) (s : List Char) (ts : List Token) :
    textsBetween name (s.map .char ++ ts) = textsBetween name ts := by
  induction s with
  | nil => rfl
  | cons c s ih => exact ih

theorem textsBetween_openTag_self {name : String} (h : IsName name) (as : List Attribute)
    (ts : List Token) : textsBetween name (.tag (openTag name as) :: ts) =
      (textBefore? (closeTag name) ts).toList ++ textsBetween name ts :=
  if_pos (tagName_openTag h as)

theorem textsBetween_openTag_of_ne {name name' : String} (h : IsName name) (hne : name ≠ name')
    (as : List Attribute) (ts : List Token) :
    textsBetween name' (.tag (openTag name as) :: ts) = textsBetween name' ts := by
  refine if_neg ?_
  rw [tagName_openTag h]
  exact mt String.toList_inj.mp hne

theorem textsBetween_closeTag {name name' : String} (h : IsName name) (h' : IsName name')
    (ts : List Token) :
    textsBetween name' (.tag (closeTag name) :: ts) = textsBetween name' ts :=
  if_neg (tagName_closeTag_ne h h')

/-! ## Pages -/

/-- The texts that an element begins with reach to its closing tag only if nothing else is in it. -/
theorem textBefore?_tokensOfAll {name : String} (h : IsName name) (hs : List Html)
    (ts : List Token) :
    textBefore? (closeTag name) (tokensOfAll hs ++ .tag (closeTag name) :: ts) = textOnly? hs := by
  induction hs with
  | nil => exact if_pos rfl
  | cons x hs ih =>
    cases x with
    | text s =>
      rw [tokensOfAll, tokensOf, List.append_assoc, textBefore?_append, ih, textOnly?]
    | element e as xs => exact textBefore?_openTag (isName_name e) h as _
    | button a t label => exact textBefore?_openTag isName_button h _ _

mutual

theorem textsBetween_tokensOf (e : Element) (h : Html) (ts : List Token) :
    textsBetween e.name (h.tokensOf ++ ts) = h.textsOf e ++ textsBetween e.name ts := by
  cases h with
  | text s => exact textsBetween_append e.name _ ts
  | element e' as hs =>
    have hinside : textsBetween e.name (tokensOfAll hs ++ .tag (closeTag e'.name) :: ts) =
        textsOfAll e hs ++ textsBetween e.name ts := by
      rw [textsBetween_tokensOfAll e hs, textsBetween_closeTag (isName_name e') (isName_name e)]
    rw [tokensOf, List.cons_append, List.append_assoc, List.singleton_append, textsOf]
    by_cases he : e' = e
    · -- The texts right behind the opening tag come first, then those of the elements inside.
      subst he
      rw [textsBetween_openTag_self (isName_name e'), hinside,
        textBefore?_tokensOfAll (isName_name e'), if_pos rfl, List.append_assoc]
    · rw [textsBetween_openTag_of_ne (isName_name e') (mt name_inj.mp he), hinside, if_neg he]
      rfl
  | button a t label =>
    rw [tokensOf, List.cons_append, List.append_assoc, List.singleton_append,
      textsBetween_openTag_of_ne isName_button (name_ne_button e).symm, textsBetween_append,
      textsBetween_closeTag isName_button (isName_name e)]
    rfl

theorem textsBetween_tokensOfAll (e : Element) (hs : List Html) (ts : List Token) :
    textsBetween e.name (tokensOfAll hs ++ ts) = textsOfAll e hs ++ textsBetween e.name ts := by
  cases hs with
  | nil => rfl
  | cons h hs =>
    rw [tokensOfAll, List.append_assoc, textsBetween_tokensOf e h, textsBetween_tokensOfAll e hs,
      textsOfAll, List.append_assoc]

end

/-- Between the tags of a written page stands what was written there. -/
theorem textsBetween_chars (e : Element) (h : Html) :
    textsBetween e.name (tokens h.chars) = h.textsOf e := by
  have htexts := textsBetween_tokensOf e h []
  rwa [List.append_nil, textsBetween, List.append_nil, ← tokens_chars] at htexts

end HashTabs.Html
