import HashTabs.Location

/-! Navigation: a context keeps the active tab in step with a location. -/

namespace HashTabs

open Log

/-- The active tab, and how often those who watch it were told to look again. -/
structure Context where
  active : Tab
  notified : Nat := 0
  deriving DecidableEq, Repr

/-- Makes a tab the active one. Watchers are told even if it was that before. -/
def Context.activate (c : Context) (t : Tab) : Context := ⟨t, c.notified + 1⟩

/-- A context together with its location. -/
structure Navigation where
  location : Location
  context : Context
  deriving DecidableEq, Repr

namespace Navigation

/-- A new context over a location starts with the tab that the location leads to. -/
def start (l : Location) : Logged Navigation := l.tab.map fun t => ⟨l, { active := t }⟩

/-- A navigation outside a browser has an empty location of its own. -/
def detached : Logged Navigation :=
  let n := start {}
  ⟨n.value, .detached :: n.events⟩

/-- Makes a tab the active one and writes it to the location. -/
def select (n : Navigation) (t : Tab) : Logged Navigation :=
  let l := n.location.write t
  ⟨⟨l.value, n.context.activate t⟩, .selected t :: l.events⟩

@[simp] theorem hash_select (n : Navigation) (t : Tab) :
    (n.select t).value.location.hash = t.fragment :=
  n.location.hash_write t

@[simp] theorem context_select (n : Navigation) (t : Tab) :
    (n.select t).value.context = n.context.activate t := rfl

/-- Reads the location again, and tells whether that changes the active tab. If not, nobody is told
to look again. -/
def sync (n : Navigation) : Logged (Navigation × Bool) :=
  let t := n.location.tab
  if n.context.active = t.value then ⟨(n, false), t.events⟩
  else ⟨({ n with context := n.context.activate t.value }, true), t.events ++ [.changed t.value]⟩

@[simp] theorem location_sync (n : Navigation) : n.sync.value.1.location = n.location := by
  simp only [sync]
  split <;> rfl

theorem active_sync (n : Navigation) :
    n.sync.value.1.context.active = Tab.ofFragment n.location.hash := by
  simp only [sync]
  split
  · assumption
  · rfl

theorem sync_changed (n : Navigation) :
    n.sync.value.2 = decide (n.context.active ≠ Tab.ofFragment n.location.hash) := by
  simp only [sync]
  split
  · rename_i h
    exact (decide_eq_false (not_not_intro h)).symm
  · rename_i h
    exact (decide_eq_true h).symm

end Navigation

/-- Contexts side by side: over one location that they share, or each with a location of its own. -/
inductive Contexts where
  | shared (location : Location) (contexts : List Context)
  | separate (navigations : List Navigation)
  deriving DecidableEq, Repr

namespace Contexts

/-- Each context with its location, in the order in which they were made. -/
def toList : Contexts → List Navigation
  | shared l cs => cs.map (⟨l, ·⟩)
  | separate ns => ns

/-- The context with a number. -/
def get? (cs : Contexts) (i : Nat) : Option Navigation := cs.toList[i]?

/-- Puts back a context. Where the location is shared, it changes under all of them. -/
def set (i : Nat) (n : Navigation) : Contexts → Contexts
  | shared _ cs => shared n.location (cs.set i n.context)
  | separate ns => separate (ns.set i n)

@[simp] theorem length_toList_set (i : Nat) (n : Navigation) (cs : Contexts) :
    (cs.set i n).toList.length = cs.toList.length := by
  cases cs <;> simp [set, toList]

/-- Makes one more context of the same sort. -/
def attach : Contexts → Logged Contexts
  | shared l cs => (Navigation.start l).map fun n => shared l (cs ++ [n.context])
  | separate ns => Navigation.detached.map fun n => separate (ns ++ [n])

/-- Holds of contexts over one location. -/
def isShared : Contexts → Bool
  | shared _ _ => true
  | separate _ => false

/-- Stores a hash in the shared location, if there is one, and tells no context. -/
def setHash (value : String) : Contexts → Contexts
  | shared l cs => shared (l.set value) cs
  | separate ns => separate ns

/-- The first context: over the given location, or over one of its own. -/
def start : Option Location → Logged Contexts
  | some l => attach (shared l [])
  | none => attach (separate [])

end Contexts

end HashTabs
