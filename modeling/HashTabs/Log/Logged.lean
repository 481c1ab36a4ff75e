import HashTabs.Log.Event

/-! A result together with the record of how it came about. -/

namespace HashTabs.Log

/-- A value, and what was logged on the way to it, in order. -/
structure Logged (α : Type) where
  value : α
  events : List Event := []

namespace Logged

/-- Changes the value and keeps the events. -/
def map {α β : Type} (f : α → β) (l : Logged α) : Logged β := ⟨f l.value, l.events⟩

@[simp] theorem value_map {α β : Type} (f : α → β) (l : Logged α) :
    (l.map f).value = f l.value := rfl

@[simp] theorem events_map {α β : Type} (f : α → β) (l : Logged α) :
    (l.map f).events = l.events := rfl

end Logged

end HashTabs.Log
