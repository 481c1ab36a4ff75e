import HashTabs.Query.Route

/-! Parameters enter the tree of a query one after the other. -/

namespace HashTabs.Query

namespace Tree

/-- The branches under names at a place, where an empty place has none yet; or else what has taken
the place. -/
def fieldsAt : Option Tree → Except Tree (List (String × Tree))
  | none => .ok []
  | some (fields es) => .ok es
  | some taken => .error taken

/-- The branches under numbers at a place, where an empty place has none yet; or else what has taken
the place. -/
def elementsAt : Option Tree → Except Tree (List (Nat × Tree))
  | none => .ok []
  | some (elements es) => .ok es
  | some taken => .error taken

/-- Puts a value under a key. A key that has something under it keeps only the clash, and so does
a place that has no such keys. -/
def set (place : Option Tree) (value : String) : Key → Tree
  | .name k =>
    match fieldsAt place with
    | .error _ => clash .nameInto
    | .ok es =>
      match Entries.lookup k es with
      | none => fields (Entries.put k (text value) es)
      | some _ => fields (Entries.put k (clash (.repeatedName k)) es)
  | .number n =>
    match elementsAt place with
    | .error _ => clash .numberInto
    | .ok es =>
      match Entries.lookup n es with
      | none => elements (Entries.put n (text value) es)
      | some _ => elements (Entries.put n (clash .repeatedNumber) es)

/-- Adds a value to the list at a place. -/
def push (place : Option Tree) (value : String) : Tree :=
  match place with
  | none => items [value]
  | some (items ss) => items (ss ++ [value])
  | some _ => clash .numberInto

/-- Follows a route from a place, and gives the tree that then stands there. -/
def insert : Option Tree → Route → Except Fault Tree
  | place, .last key value => .ok (set place value key)
  | place, .push value => .ok (push place value)
  | _, .stop fault => .error fault
  | place, .into (.name k) position rest =>
    match fieldsAt place with
    | .error taken => .error (.misplaced (.below taken) position)
    | .ok es => (insert (Entries.lookup k es) rest).map fun t => fields (Entries.put k t es)
  | place, .into (.number n) position rest =>
    match elementsAt place with
    | .error taken => .error (.misplaced (.below taken) position)
    | .ok es => (insert (Entries.lookup n es) rest).map fun t => elements (Entries.put n t es)

/-- Brackets may nest this deep in the first parameter, and once more with each one after it. -/
def firstDepth : Nat := 5

/-- Takes up the parameters of the segments, the first of which starts behind `pos` bytes. -/
def insertSegments (t : Tree) (depth pos : Nat) : List (List UInt8) → Except Fault Tree
  | [] => .ok t
  | [] :: ss => insertSegments t depth (pos + 1) ss
  | (b :: r) :: ss =>
    match insert (some t) (Route.ofSegment (!ss.isEmpty) depth pos b r) with
    | .error f => .error f
    | .ok t => insertSegments t (depth + 1) (pos + r.length + 2) ss

end Tree

/-- The segments of a query: what stands between its ampersands. -/
def segments : List UInt8 → List (List UInt8)
  | [] => [[]]
  | b :: r =>
    if b = ampersand then [] :: segments r
    else
      match segments r with
      | [] => [[b]]
      | s :: ss => (b :: s) :: ss

/-- The tree of a query without leading question marks. -/
def Tree.ofQuery (query : List Char) : Except Fault Tree :=
  (Tree.fields []).insertSegments Tree.firstDepth 0 (segments (Text.Utf8.encode query))

end HashTabs.Query
