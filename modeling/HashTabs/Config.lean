import HashTabs.Text.Blank
import HashTabs.Log.Logged
import HashTabs.Query.Overrides

/-! The configuration of a page: defaults, and what the query puts in their place. -/

namespace HashTabs

open Log

/-- What can be set about a page. -/
structure Config where
  appTitle : String := "Home Lab"
  logLevel : String := "info"
  deriving DecidableEq, Repr

namespace Config

/-- Puts overrides in place of the values that they are given for. A blank title is none. -/
def apply (c : Config) (o : Query.Overrides) : Config where
  appTitle := match o.appTitle with
    | some t => if Text.allBlank t then c.appTitle else t
    | none => c.appTitle
  logLevel := o.logLevel.getD c.logLevel

/-- The configuration that a query asks for. A query that is refused leaves every default as it
is, and one record. -/
def ofQuery (query : String) : Logged Config :=
  let q := query.toList.dropWhile (· == '?')
  match Query.Overrides.ofQuery q with
  | .ok o => ⟨apply {} o, []⟩
  | .error f => ⟨{}, [.malformedQuery (String.ofList q) f]⟩

/-- The log level in force. A name that is no level's stands for info, and leaves a record. -/
def level (c : Config) : Logged Level :=
  match Level.ofName? c.logLevel with
  | some l => ⟨l, []⟩
  | none => ⟨.info, [.unknownLevel c.logLevel]⟩

end Config

end HashTabs
