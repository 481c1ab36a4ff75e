import HashTabs.Decimal.Basic

/-! JSON values. Whole numbers are kept exactly, all others as decimals. -/

namespace HashTabs.Json

/-- A JSON value; the members of an object stand in the order in which they came. -/
inductive Value where
  | null
  | bool (b : Bool)
  | int (n : Int)
  | float (x : Decimal)
  | string (s : String)
  | array (elements : List Value)
  | object (members : List (String × Value))

/-- What reading a JSON text stumbles over first. -/
inductive Fault where
  /-- The text ends where it has to go on. -/
  | cutShort
  /-- The text goes on in a way that nothing can mend. -/
  | malformed
  deriving DecidableEq, Repr

end HashTabs.Json
