import HashTabs.Config
import HashTabs.Location

/-! The page starts: it takes its configuration from its address, sets the threshold of the log, and
reports. -/

namespace HashTabs

open Log

/-- What a page knows of its own address: the query, unless there is no window or it withholds
it. -/
structure Page where
  search : Option String := none
  deriving DecidableEq, Repr

namespace Page

/-- The configuration of a page. A page without a query has the empty one. -/
def config (p : Page) : Logged Config := Config.ofQuery (p.search.getD "")

/-- The records that a threshold lets through. -/
def kept (threshold : Level) (events : List Event) : List Event :=
  events.filter fun e => threshold.admits e.level

/-- Starts a page and gives the threshold of its log. What is logged before the threshold is known
is kept in any case. -/
def start (p : Page) : Logged Level :=
  let config := p.config
  let level := config.value.level
  let tab := currentTab
  ⟨level.value, config.events ++ level.events ++
    kept level.value (tab.events ++ [.starting config.value.appTitle tab.value])⟩

end Page

end HashTabs
