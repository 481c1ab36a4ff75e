import HashTabs.Text.Percent
import HashTabs.Text.Quoted
import HashTabs.Query.Entries

/-! What the parameters of a query add up to: a tree of texts whose branches have names, numbers or
neither, and in which two parameters that contradict each other leave a clash behind. -/

namespace HashTabs.Query

/-- How two parameters of one query contradict each other. -/
inductive Clash where
  /-- Both give a value to the same name. -/
  | repeatedName (name : String)
  /-- Both give a value to the same number. -/
  | repeatedNumber
  /-- The later one gives a name to what has none. -/
  | nameInto
  /-- The later one gives a number, or no key at all, to what has other keys. -/
  | numberInto
  deriving DecidableEq, Repr

/-- The wording of a clash. A name with a bracket in it is shown in form encoding, with a hint. -/
def Clash.message : Clash → String
  | repeatedName name =>
    if name.toList.contains '[' then
      "Multiple values for one key: \"" ++ Text.Percent.encode name ++ "\"" ++
        "\nInvalid field contains an encoded bracket -- did you mean to use non-strict mode?" ++
        "\n  https://docs.rs/serde_qs/latest/serde_qs/#strict-vs-non-strict-modes"
    else "Multiple values for one key: \"" ++ name ++ "\""
  | repeatedNumber => "Multiple values for one key"
  | nameInto => "Attempted to insert map value into non-map structure"
  | numberInto => "Attempted to insert seq value into non-seq structure"

/-- What stands at one place of a query. -/
inductive Tree where
  /-- A value. -/
  | text (s : String)
  /-- Branches under names. -/
  | fields (entries : List (String × Tree))
  /-- Branches under numbers. -/
  | elements (entries : List (Nat × Tree))
  /-- Values that were added without a key, in order. -/
  | items (texts : List String)
  /-- The remains of a contradiction. -/
  | clash (cause : Clash)

namespace Tree

mutual

/-- The wording of a tree in messages. -/
def describe : Tree → String
  | text s => describeText s
  | fields es => "Nested(\x7b" ++ ", ".intercalate (describeFields es) ++ "\x7d)"
  | elements es => "OrderedSeq(\x7b" ++ ", ".intercalate (describeElements es) ++ "\x7d)"
  | items ss => "Sequence([" ++ ", ".intercalate (ss.map describeText) ++ "])"
  | clash c => "Invalid(" ++ Text.Quoted.quote c.message ++ ")"

/-- The wordings of branches under names. -/
def describeFields : List (String × Tree) → List String
  | [] => []
  | (k, t) :: es => (Text.Quoted.quote k ++ ": " ++ describe t) :: describeFields es

/-- The wordings of branches under numbers. -/
def describeElements : List (Nat × Tree) → List String
  | [] => []
  | (n, t) :: es => (toString n ++ ": " ++ describe t) :: describeElements es

/-- The wording of a value. -/
def describeText (s : String) : String := "Flat(" ++ Text.Quoted.quote s ++ ")"

end

mutual

/-- The first clash in a tree, its branches taken in the order of their keys. -/
def firstClash? : Tree → Option Clash
  | text _ => none
  | fields es => firstFieldClash? es
  | elements es => firstElementClash? es
  | items _ => none
  | clash c => some c

/-- The first clash in branches under names. -/
def firstFieldClash? : List (String × Tree) → Option Clash
  | [] => none
  | (_, t) :: es => (firstClash? t).or (firstFieldClash? es)

/-- The first clash in branches under numbers. -/
def firstElementClash? : List (Nat × Tree) → Option Clash
  | [] => none
  | (_, t) :: es => (firstClash? t).or (firstElementClash? es)

end

end Tree

end HashTabs.Query
