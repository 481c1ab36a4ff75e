import HashTabs.Query.Insert

/-! The parameters that a page asks its query for: either all of them can be read off the tree of
the query, or the query is refused. -/

namespace HashTabs.Query

/-- The parameters that a configuration knows. -/
structure Overrides where
  appTitle : Option String := none
  logLevel : Option String := none
  deriving DecidableEq, Repr

/-- The value at a place that has to hold one; an empty value counts as absent. -/
def Tree.asText : Tree → Except Fault (Option String)
  | text s => .ok (if s = "" then none else some s)
  | fields _ => .error .namesForText
  | elements _ => .error .listForText
  | items _ => .error .listForText
  | clash c => .error (.clash c)

/-- Takes in what stands under a name. A clash below a name that nobody asks for is a fault too. -/
def Overrides.take (o : Overrides) (name : String) (t : Tree) : Except Fault Overrides :=
  if name = "app_title" then t.asText.map fun v => { o with appTitle := v }
  else if name = "log_level" then t.asText.map fun v => { o with logLevel := v }
  else
    match t.firstClash? with
    | some c => .error (.clash c)
    | none => .ok o

/-- Takes in branches in the order of their names, up to the first fault. -/
def Overrides.takeAll (o : Overrides) : List (String × Tree) → Except Fault Overrides
  | [] => .ok o
  | (name, t) :: es =>
    match o.take name t with
    | .error f => .error f
    | .ok o => o.takeAll es

/-- The overrides in a tree. A root without names has none. -/
def Overrides.ofTree : Tree → Except Fault Overrides
  | .fields es => takeAll {} es
  | _ => .ok {}

/-- The overrides in a query without leading question marks. -/
def Overrides.ofQuery (query : List Char) : Except Fault Overrides :=
  match Tree.ofQuery query with
  | .error f => .error f
  | .ok t => ofTree t

end HashTabs.Query
