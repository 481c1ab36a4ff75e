import HashTabs.Component
import HashTabs.Navigation

/-! Sessions: contexts are driven, components are drawn and mounted, and buttons are clicked, one
step at a time. -/

namespace HashTabs

open Log

/-- Why a step is refused. -/
inductive Refusal where
  | unknownStep (name : String)
  | missingText (field : String)
  | noSuchContext
  | notShared
  | noSuchMount
  | noSuchButton
  | unknownComponent (name : String)
  | unknownTab (token : String)
  /-- A component needs a navigation, and none is provided. -/
  | noNavigation
  deriving DecidableEq, Repr

/-- The wording of a refusal. -/
def Refusal.message : Refusal → String
  | unknownStep name => "unknown step '" ++ name ++ "'"
  | missingText field => "field '" ++ field ++ "' must be a string"
  | noSuchContext => "no such context"
  | notShared => "location is not shared"
  | noSuchMount => "no such mount"
  | noSuchButton => "no such button"
  | unknownComponent name => "unknown component '" ++ name ++ "'"
  | unknownTab token => Tab.unknownMessage token
  | noNavigation => "NavContext not found. Wrap your app with NavProvider."

/-- What is to be drawn: a component by its name. The tab counts only where the view behind a tab is
asked for. -/
structure Drawing where
  component : String
  tab : Option String := none
  /-- Whether the component gets a navigation from around it. -/
  provided : Bool := true
  deriving DecidableEq, Repr

/-- The component that is to be drawn. -/
def Drawing.resolve (d : Drawing) : Except Refusal Component :=
  if d.component = "tab_content" then
    match d.tab with
    | none => .error (.missingText "tab")
    | some s =>
      match Tab.ofToken? s with
      | none => .error (.unknownTab s)
      | some t => .ok (.tabContent t)
  else
    match Component.ofName? d.component with
    | none => .error (.unknownComponent d.component)
    | some c => .ok c

/-- What a step does to a session. -/
inductive Action where
  | select (token : String)
  | sync
  /-- Writes the shared location; without a value it is refused, though not before it is known that
  there is such a location. -/
  | setHash (value : Option String)
  | attach
  | render (d : Drawing)
  | mount (d : Drawing)
  | click (button : Nat) (mount : Option Nat)
  | unmount (mount : Option Nat)
  /-- Does nothing but be refused. -/
  | refuse (reason : Refusal)
  deriving DecidableEq, Repr

/-- A step: an action, and the context that it is aimed at. -/
structure Step where
  context : Nat := 0
  action : Action
  deriving DecidableEq, Repr

/-- The navigation that a mounted component uses. -/
inductive Owner where
  /-- That of a context of the session. -/
  | context (index : Nat)
  /-- One of its own. -/
  | own (n : Navigation)
  deriving DecidableEq, Repr

/-- A mounted component: its buttons stay what they were when it was drawn. -/
structure Mount where
  owner : Owner
  buttons : List Tab
  setsTitle : Bool
  deriving DecidableEq, Repr

/-- A session. A mount that was taken down leaves its number behind. -/
structure Session where
  config : Config
  contexts : Contexts
  mounts : List (Option Mount) := []
  deriving DecidableEq, Repr

/-- What a step that is not refused answers. -/
inductive Answer where
  | nothing
  | changed (b : Bool)
  | context (index : Nat)
  | page (h : Html)

/-- A drawn component: its page, the navigation that it uses, and whether it keeps the title. -/
structure Drawn where
  owner : Owner
  page : Html
  setsTitle : Bool

/-- Refuses a step before anything was logged. -/
def refuse {α : Type} (e : Refusal) : Logged (Except Refusal α) := ⟨.error e, []⟩

namespace Session

/-- A new session with its first context: over a location with the given hash, or over none. -/
def start (hash : Option String) (config : Logged Config) : Logged Session :=
  let cs := Contexts.start (hash.map Location.mk)
  ⟨{ config := config.value, contexts := cs.value }, config.events ++ cs.events⟩

/-- The navigation behind an owner. -/
def navigation? (s : Session) : Owner → Option Navigation
  | .context i => s.contexts.get? i
  | .own n => some n

/-- The mount with a number, or the last one made, unless it was taken down. -/
def mount? (s : Session) (number : Option Nat) : Option (Nat × Mount) :=
  let i := number.getD (s.mounts.length - 1)
  (s.mounts[i]?.join).map (i, ·)

/-- Draws a component for a context. A drawing that is broken off has found no navigation. -/
def draw (s : Session) (index : Nat) (n : Navigation) (d : Drawing) :
    Logged (Except Refusal Drawn) :=
  match d.resolve with
  | .error e => refuse e
  | .ok c =>
    match c.draw.run ⟨s.config, if d.provided then some n.context else none⟩ with
    | (none, t) => ⟨.error .noNavigation, t.events⟩
    | (some page, t) =>
      ⟨.ok ⟨t.own?.elim (.context index) .own, page, t.setsTitle⟩, t.events⟩

/-- Clicks a button of a mount: its navigation selects the tab of the button. -/
def click (s : Session) (i : Nat) (m : Mount) (t : Tab) : Logged Session :=
  match m.owner with
  | .context j =>
    match s.contexts.get? j with
    | none => ⟨s, []⟩
    | some n => (n.select t).map fun n => { s with contexts := s.contexts.set j n }
  | .own n =>
    (n.select t).map fun n => { s with mounts := s.mounts.set i (some { m with owner := .own n }) }

/-- Does what an action asks for, aimed at a context. -/
def act (s : Session) (index : Nat) (n : Navigation) :
    Action → Logged (Except Refusal (Session × Answer))
  | .refuse reason => refuse reason
  | .select token =>
    match Tab.ofToken? token with
    | none => refuse (.unknownTab token)
    | some t =>
      (n.select t).map fun n => .ok ({ s with contexts := s.contexts.set index n }, .nothing)
  | .sync =>
    n.sync.map fun p => .ok ({ s with contexts := s.contexts.set index p.1 }, .changed p.2)
  | .setHash value =>
    if s.contexts.isShared then
      match value with
      | none => refuse (.missingText "value")
      | some h => ⟨.ok ({ s with contexts := s.contexts.setHash h }, .nothing), []⟩
    else refuse .notShared
  | .attach =>
    s.contexts.attach.map fun cs =>
      .ok ({ s with contexts := cs }, .context s.contexts.toList.length)
  | .render d => (s.draw index n d).map fun r => r.map fun p => (s, .page p.page)
  | .mount d =>
    (s.draw index n d).map fun r => r.map fun p =>
      ({ s with mounts := s.mounts ++ [some ⟨p.owner, p.page.buttons, p.setsTitle⟩] },
        .page p.page)
  | .click button number =>
    match s.mount? number with
    | none => refuse .noSuchMount
    | some (i, m) =>
      match m.buttons[button]? with
      | none => refuse .noSuchButton
      | some t => (s.click i m t).map fun s => .ok (s, .nothing)
  | .unmount number =>
    match s.mount? number with
    | none => refuse .noSuchMount
    | some (i, _) => ⟨.ok ({ s with mounts := s.mounts.set i none }, .nothing), []⟩

/-- The context of a mount that stands. -/
def mountContext? (s : Session) (i : Nat) : Option Context :=
  (s.mounts[i]?.join).bind fun m => (s.navigation? m.owner).map (·.context)

/-- The title that a mount sets after a step, if it sets one: when it is new, or when its context
has told it to look again. -/
def title? (before after : Session) (i : Nat) : Option String :=
  match after.mounts[i]?.join, after.mountContext? i with
  | some m, some c =>
    if m.setsTitle && (before.mountContext? i).map (·.notified) != some c.notified then
      some (View.documentTitle after.config c.active)
    else none
  | _, _ => none

/-- The titles that are set after a step, in the order of the mounts. -/
def titles (before after : Session) : List String :=
  (List.range after.mounts.length).filterMap (title? before after)

end Session

/-- What a step comes to. -/
structure Outcome where
  result : Except Refusal Answer
  titles : List String := []
  events : List Event := []

namespace Session

/-- Takes a step. One that is refused leaves the session as it is. -/
def step (s : Session) (st : Step) : Session × Outcome :=
  match s.contexts.get? st.context with
  | none => (s, ⟨.error .noSuchContext, [], []⟩)
  | some n =>
    match s.act st.context n st.action with
    | ⟨.error e, events⟩ => (s, ⟨.error e, [], events⟩)
    | ⟨.ok (after, answer), events⟩ => (after, ⟨.ok answer, titles s after, events⟩)

/-- Takes steps one after the other, and gives the session and the outcome after each. -/
def run (s : Session) : List Step → List (Session × Outcome)
  | [] => []
  | st :: sts =>
    let p := s.step st
    p :: run p.1 sts

end Session

end HashTabs
