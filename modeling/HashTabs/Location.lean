import HashTabs.Log.Logged

/-! A location holds the hash of an address; tabs are read from it and written to it. -/

namespace HashTabs

open Log

/-- A place that holds a hash: empty, or a fragment with its number sign, or any text that was
there from the start. -/
structure Location where
  hash : String := ""
  deriving DecidableEq, Repr

/-- A hash as a location keeps it: with a number sign in front, unless it is empty. -/
def normalizeHash (value : String) : String :=
  if value.toList.head? = some '#' ∨ value = "" then value else "#" ++ value

theorem normalizeHash_fragment (t : Tab) : normalizeHash t.fragment = t.fragment := by
  cases t <;> decide +kernel

/-- The tab that a hash leads to. -/
def resolve (hash : String) : Logged Tab :=
  let t := Tab.ofFragment hash
  ⟨t, [.resolved hash t]⟩

namespace Location

/-- Stores a hash. -/
def set (_ : Location) (value : String) : Location := ⟨normalizeHash value⟩

@[simp] theorem hash_set (l : Location) (value : String) :
    (l.set value).hash = normalizeHash value := rfl

/-- The tab that a location leads to. -/
def tab (l : Location) : Logged Tab := resolve l.hash

/-- Stores the fragment of a tab. -/
def write (l : Location) (t : Tab) : Logged Location := ⟨l.set t.fragment, [.writing t]⟩

@[simp] theorem hash_write (l : Location) (t : Tab) : (l.write t).value.hash = t.fragment :=
  normalizeHash_fragment t

/-- The tab that is read where there may be no location: without one, the first tab. -/
def tabOf? : Option Location → Logged Tab
  | some l => l.tab
  | none => ⟨default, []⟩

/-- A tab written where there may be no location: without one, nothing happens. -/
def writeTo? : Option Location → Tab → Logged (Option Location)
  | some l, t => (l.write t).map some
  | none, _ => ⟨none, []⟩

end Location

/-- The location of the browser window. There is none outside a browser. -/
def browserLocation : Option Location := none

/-- The tab that the browser window shows. -/
def currentTab : Logged Tab := Location.tabOf? browserLocation

end HashTabs
