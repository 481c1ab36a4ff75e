/-! Log levels, from the gravest to the most talkative, and the names that pick them. -/

namespace HashTabs.Log

/-- How grave a record is; as a threshold, the least grave record that is still kept. -/
inductive Level where
  | error
  | warn
  | info
  | debug
  | trace
  deriving DecidableEq, Repr

namespace Level

/-- Every level, gravest first. -/
def all : List Level := [error, warn, info, debug, trace]

/-- The name under which a level is written. -/
def name : Level → String
  | error => "ERROR"
  | warn => "WARN"
  | info => "INFO"
  | debug => "DEBUG"
  | trace => "TRACE"

/-- The place of a level among all, gravest first. -/
def rank (l : Level) : Nat := all.idxOf l

/-- A threshold admits the records that are at least as grave as itself. -/
def admits (threshold l : Level) : Bool := decide (l.rank ≤ threshold.rank)

/-- Two texts agree up to the case of ASCII letters. -/
def sameLetters (a b : String) : Bool := a.toList.map Char.toLower = b.toList.map Char.toLower

/-- A level is picked by its name in any ASCII case, and by nothing else. -/
def ofName? (s : String) : Option Level := all.find? fun l => sameLetters l.name s

theorem sameLetters_of_ofName? {s : String} {l : Level} (h : ofName? s = some l) :
    sameLetters l.name s = true :=
  List.find?_some (p := fun l : Level => sameLetters l.name s) h

end Level

end HashTabs.Log
