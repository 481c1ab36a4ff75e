import HashTabs.Location

/-! A location as a register: calls that look at it or change it, and what they reply. -/

namespace HashTabs.Location

open Log

/-- What can be asked of a location. -/
inductive Call where
  | hash
  | set (value : String)
  | read
  | write (t : Tab)
  deriving DecidableEq, Repr

/-- What a call replies. -/
inductive Reply where
  | nothing
  | hash (s : String)
  | tab (t : Tab)
  deriving DecidableEq, Repr

/-- Makes a call. Tabs are read from the location and written to it only if it can be reached. -/
def answer (reachable : Bool) (l : Location) : Call → Logged (Location × Reply)
  | .hash => ⟨(l, .hash l.hash), []⟩
  | .set value => ⟨(l.set value, .nothing), []⟩
  | .read => (tabOf? (if reachable then some l else none)).map (l, .tab ·)
  | .write t =>
    (writeTo? (if reachable then some l else none) t).map fun l' => (l'.getD l, .nothing)

/-- Makes calls one after the other, and gives the location and the reply after each. -/
def calls (reachable : Bool) (l : Location) : List Call → List (Logged (Location × Reply))
  | [] => []
  | c :: cs =>
    let r := l.answer reachable c
    r :: calls reachable r.value.1 cs

end HashTabs.Location
