import HashTabs.Tab
import HashTabs.Log.Level
import HashTabs.Query.Fault

/-! What the page logs: each event has a level and a wording. -/

namespace HashTabs.Log

/-- Something worth a record. -/
inductive Event where
  /-- A hash was resolved to a tab. -/
  | resolved (hash : String) (tab : Tab)
  /-- A tab is about to be written to a location. -/
  | writing (tab : Tab)
  /-- A tab was selected. -/
  | selected (tab : Tab)
  /-- A context found another tab in its location. -/
  | changed (tab : Tab)
  /-- There is no browser location, so a context has a location of its own. -/
  | detached
  /-- A query was refused. -/
  | malformedQuery (query : String) (fault : Query.Fault)
  /-- A log level was asked for by no level's name. -/
  | unknownLevel (name : String)
  /-- The page starts. -/
  | starting (title : String) (tab : Tab)

namespace Event

/-- How grave an event is. -/
def level : Event → Level
  | resolved .. | writing .. | changed .. | detached => .debug
  | selected .. | starting .. => .info
  | malformedQuery .. | unknownLevel .. => .warn

/-- The wording of an event. -/
def message : Event → String
  | resolved hash tab => "hash '" ++ hash ++ "' resolved to tab '" ++ tab.token ++ "'"
  | writing tab => "writing hash '" ++ tab.fragment ++ "'"
  | selected tab => "select tab '" ++ tab.token ++ "'"
  | changed tab => "hash changed, active tab is now '" ++ tab.token ++ "'"
  | detached => "no browser location, keeping the hash in memory"
  | malformedQuery query fault =>
    "ignoring malformed config query '" ++ query ++ "': " ++ fault.message
  | unknownLevel name => "unknown log level '" ++ name ++ "', using info"
  | starting title tab => "starting '" ++ title ++ "' at tab '" ++ tab.token ++ "'"

end Event

end HashTabs.Log
