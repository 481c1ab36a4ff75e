import HashTabs.Text.Blank

/-! The tabs of the page: their tokens, their labels, and the fragments that lead to them. -/

namespace HashTabs

/-- A tab of the page. -/
inductive Tab where
  | connect
  | devices
  | settings
  deriving DecidableEq, Repr

namespace Tab

/-- The tab that is shown when nothing else is asked for. -/
instance : Inhabited Tab := ⟨connect⟩

/-- Every tab, in the order of the tab bar. -/
def all : List Tab := [connect, devices, settings]

/-- The name under which a tab is declared. -/
def name : Tab → String
  | connect => "Connect"
  | devices => "Devices"
  | settings => "Settings"

/-- The name by which texts refer to a tab. -/
def token : Tab → String
  | connect => "connect"
  | devices => "devices"
  | settings => "settings"

/-- The name by which people see a tab. -/
def label : Tab → String
  | connect => "Connect"
  | devices => "Devices"
  | settings => "Settings"

/-- The place of a tab in the tab bar, from zero. -/
def index (t : Tab) : Nat := all.idxOf t

/-- The fragment that leads to a tab: its token after a number sign. -/
def fragment (t : Tab) : String := "#" ++ t.token

/-- Strict reading: a text is a tab only when it is that tab's token, to the letter. -/
def ofToken? : String → Option Tab
  | "connect" => some connect
  | "devices" => some devices
  | "settings" => some settings
  | _ => none

theorem ofToken?_eq_some_iff {s : String} {t : Tab} : ofToken? s = some t ↔ s = t.token := by
  constructor
  · intro h
    unfold ofToken? at h
    split at h <;> cases h <;> rfl
  · rintro rfl
    cases t <;> rfl

/-- Removes one number sign from the front of a text that starts with one. -/
def stripHash : List Char → List Char
  | '#' :: r => r
  | s => s

/-- Lenient reading: after one leading number sign and the blanks around it, a fragment names
devices or settings, or else it leads to connect. -/
def ofFragment (raw : String) : Tab :=
  match String.ofList (Text.trim (stripHash raw.toList)) with
  | "devices" => devices
  | "settings" => settings
  | _ => connect

/-- What is said of a text that the strict reading refuses. -/
def unknownMessage (s : String) : String :=
  "unknown tab '" ++ s ++ "', expected one of: connect, devices, settings"

end Tab

end HashTabs
