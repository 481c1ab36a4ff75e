import HashTabs.Navigation
import HashTabs.View

/-! The components that can be drawn by name. Each takes what it needs from around it as it is drawn,
and draws the components inside it. -/

namespace HashTabs

open Log

/-- What is provided around a component. -/
structure Surroundings where
  config : Config
  /-- The context of a navigation, unless none is provided. -/
  context? : Option Context

/-- What has been left behind in the course of drawing, even if the drawing was broken off. -/
structure Trace where
  /-- Holds once something has been drawn that keeps the title of the document. -/
  setsTitle : Bool := false
  /-- The navigation that was brought along, if one was. -/
  own? : Option Navigation := none
  events : List Event := []

/-- Drawing looks at the surroundings and adds to a trace, and it may be broken off. -/
abbrev Draw := ReaderT Surroundings (OptionT (StateM Trace))

namespace Draw

/-- Draws in given surroundings, starting from a given trace. -/
def run {α : Type} (d : Draw α) (around : Surroundings) (t : Trace := {}) : Option α × Trace :=
  ((ReaderT.run d around).run.run t).run

/-- The context of the navigation that is provided. Without one the drawing is broken off. -/
def context : Draw Context := do
  let around ← read
  match around.context? with
  | some c => return c
  | none => failure

/-- Draws something in a navigation of its own, which is provided to it. -/
def inOwnNavigation {α : Type} (inside : Draw α) : Draw α := do
  let n := Navigation.detached
  modify fun t => { t with own? := some n.value, events := t.events ++ n.events }
  withReader (fun around => { around with context? := some n.value.context }) inside

/-- The header keeps the title of the document. -/
def topHeader : Draw Html := do
  let around ← read
  let _ ← context
  modify fun t => { t with setsTitle := true }
  return View.topHeader around.config

def tabBar : Draw Html := do
  let c ← context
  return View.tabBar c.active

def connectView : Draw Html := do
  let _ ← context
  return View.connect

/-- The view behind the second tab asks for nothing. -/
def devicesView : Draw Html := return View.devices

def settingsView : Draw Html := do
  let around ← read
  let c ← context
  return View.settings around.config c.active

/-- The view behind a tab. -/
def tabContent : Tab → Draw Html
  | .connect => connectView
  | .devices => devicesView
  | .settings => settingsView

def center : Draw Html := do
  let c ← context
  let view ← tabContent c.active
  return View.center c.active view

def shell : Draw Html := do
  let header ← topHeader
  let bar ← tabBar
  let middle ← center
  return View.shell header bar middle

end Draw

/-- A part of the page that can be drawn for itself. -/
inductive Component where
  | topHeader
  | tabBar
  | center
  | shell
  /-- The whole page over a navigation of its own. -/
  | app
  | connectView
  | devicesView
  | settingsView
  /-- The view behind a tab, whichever tab is active. -/
  | tabContent (t : Tab)
  deriving DecidableEq, Repr

namespace Component

/-- The components that need nothing but their name. -/
def ofName? : String → Option Component
  | "TopHeader" => some topHeader
  | "TabBar" => some tabBar
  | "Center" => some center
  | "Shell" => some shell
  | "App" => some app
  | "ConnectView" => some connectView
  | "DevicesView" => some devicesView
  | "SettingsView" => some settingsView
  | _ => none

/-- How a component is drawn. -/
def draw : Component → Draw Html
  | topHeader => Draw.topHeader
  | tabBar => Draw.tabBar
  | center => Draw.center
  | shell => Draw.shell
  | app => Draw.inOwnNavigation Draw.shell
  | connectView => Draw.connectView
  | devicesView => Draw.devicesView
  | settingsView => Draw.settingsView
  | tabContent t => Draw.tabContent t

end Component

end HashTabs
