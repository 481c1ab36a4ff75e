import HashTabs.Tab
import HashTabs.Text.Quoted
import HashTabs.Json.Value

/-! Tabs as JSON values: a tab is its name in small letters, or an object that maps that to null. -/

namespace HashTabs.Tab

open HashTabs.Json (Value)

/-- The name of a tab in JSON, all in small letters. -/
def jsonName (t : Tab) : String := String.ofList (t.name.toList.map Char.toLower)

theorem jsonName_eq_token (t : Tab) : t.jsonName = t.token := by
  cases t <;> decide

/-- The tab that a name in JSON stands for. -/
def ofJsonName? (s : String) : Option Tab := all.find? fun t => t.jsonName = s

theorem ofJsonName?_eq_some_iff {s : String} {t : Tab} : ofJsonName? s = some t ↔ s = t.token := by
  constructor
  · intro h
    have hp := List.find?_some (p := fun t : Tab => decide (t.jsonName = s)) h
    rw [← of_decide_eq_true hp, jsonName_eq_token]
  · rintro rfl
    cases t <;> decide

/-- The JSON value that stands for a tab. -/
def toJson (t : Tab) : Value := .string t.jsonName

/-- Why a JSON value is no tab. -/
inductive JsonFault where
  /-- A text that should be a token is none. -/
  | unknownToken (s : String)
  /-- The value is neither a string nor an object. -/
  | wrongKind (v : Value)
  /-- The object has no member, or more than one. -/
  | notSingle
  /-- The token is mapped to something other than null. -/
  | notNull (v : Value)

/-- The wording for the kind of a value; one that is simple is shown. -/
def kindOf : Value → String
  | .null => "null"
  | .bool b => "boolean `" ++ (if b then "true" else "false") ++ "`"
  | .int n => "integer `" ++ toString n ++ "`"
  | .float x => "floating point `" ++ x.render ++ "`"
  | .string s => "string " ++ Text.Quoted.quote s
  | .array _ => "sequence"
  | .object _ => "map"

/-- The wording of a fault. -/
def JsonFault.message : JsonFault → String
  | unknownToken s =>
    "unknown variant `" ++ s ++ "`, expected one of `" ++ "`, `".intercalate (all.map jsonName) ++ "`"
  | wrongKind v => "invalid type: " ++ kindOf v ++ ", expected string or map"
  | notSingle => "invalid value: map, expected map with a single key"
  | notNull v => "invalid type: " ++ kindOf v ++ ", expected unit"

/-- The tab that a JSON value stands for. A name is judged before what it is mapped to. -/
def ofJson : Value → Except JsonFault Tab
  | .string s =>
    match ofJsonName? s with
    | some t => .ok t
    | none => .error (.unknownToken s)
  | .object [(s, v)] =>
    match ofJsonName? s, v with
    | none, _ => .error (.unknownToken s)
    | some t, .null => .ok t
    | some _, v => .error (.notNull v)
  | .object _ => .error .notSingle
  | v => .error (.wrongKind v)

@[simp] theorem ofJson_string (s : String) :
    ofJson (.string s) = (ofJsonName? s).elim (.error (.unknownToken s)) .ok := by
  simp only [ofJson]
  cases ofJsonName? s <;> rfl

end HashTabs.Tab
