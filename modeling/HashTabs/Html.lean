import HashTabs.Tab

/-! Pages as trees: elements, texts, and buttons that each select a tab. -/

namespace HashTabs

/-- The elements that pages are made of, buttons apart. -/
inductive Element where
  | div
  | span
  | nav
  | section
  | heading
  | paragraph
  | list
  | term
  | description
  deriving DecidableEq, Repr

/-- The name of an element in a tag. -/
def Element.name : Element → String
  | div => "div"
  | span => "span"
  | nav => "nav"
  | «section» => "section"
  | heading => "h2"
  | paragraph => "p"
  | list => "dl"
  | term => "dt"
  | description => "dd"

/-- The attributes of an element. -/
inductive Attribute where
  | classes (names : String)
  | role (name : String)
  | zone (name : String)
  | tabKey (t : Tab)
  | style (rules : String)
  deriving DecidableEq, Repr

namespace Attribute

/-- The name of an attribute. -/
def name : Attribute → String
  | classes _ => "class"
  | role _ => "role"
  | zone _ => "data-zone"
  | tabKey _ => "data-tab-key"
  | style _ => "style"

/-- The value of an attribute. -/
def value : Attribute → String
  | classes s | role s | zone s | style s => s
  | tabKey t => t.token

end Attribute

/-- How much a button stands out. -/
inductive Appearance where
  | primary
  | subtle
  deriving DecidableEq, Repr

/-- The classes of a button, in alphabetical order. -/
def Appearance.classes : Appearance → String
  | primary => "thaw-button thaw-button--medium thaw-button--primary thaw-button--rounded"
  | subtle => "thaw-button thaw-button--medium thaw-button--rounded thaw-button--subtle"

/-- A piece of a page. -/
inductive Html where
  | text (s : String)
  | element (e : Element) (attributes : List Attribute) (children : List Html)
  /-- A button that selects a tab when it is clicked. -/
  | button (appearance : Appearance) (selects : Tab) (label : String)

namespace Html

/-- How a character is written in a text. -/
def escapeChar : Char → List Char
  | '&' => ['&', 'a', 'm', 'p', ';']
  | '<' => ['&', 'l', 't', ';']
  | '>' => ['&', 'g', 't', ';']
  | c => [c]

/-- How a character is written in the value of an attribute. -/
def escapeValueChar (c : Char) : List Char :=
  if c = '"' then ['&', 'q', 'u', 'o', 't', ';'] else escapeChar c

/-- How a text is written between tags; an empty one takes a space. -/
def escape (s : String) : List Char :=
  if s = "" then [' '] else s.toList.flatMap escapeChar

/-- How an attribute is written in a tag, with the space before it. -/
def attributeChars (a : Attribute) : List Char :=
  ' ' :: a.name.toList ++ '=' :: '"' :: a.value.toList.flatMap escapeValueChar ++ ['"']

/-- The tag that opens an element. -/
def openTag (name : String) (attributes : List Attribute) : List Char :=
  '<' :: name.toList ++ attributes.flatMap attributeChars ++ ['>']

/-- The tag that closes an element. -/
def closeTag (name : String) : List Char := '<' :: '/' :: name.toList ++ ['>']

mutual

/-- How a piece of a page is written. -/
def chars : Html → List Char
  | text s => escape s
  | element e as hs => openTag e.name as ++ charsOfAll hs ++ closeTag e.name
  | button a _ label => openTag "button" [.classes a.classes] ++ escape label ++ closeTag "button"

/-- How pieces of a page are written one after the other. -/
def charsOfAll : List Html → List Char
  | [] => []
  | h :: hs => chars h ++ charsOfAll hs

end

/-- A piece of a page as a string. -/
def render (h : Html) : String := String.ofList h.chars

mutual

/-- The tabs that the buttons in a piece of a page select, in the order of the buttons. -/
def buttons : Html → List Tab
  | text _ => []
  | element _ _ hs => buttonsOfAll hs
  | button _ t _ => [t]

/-- The tabs that the buttons in pieces of a page select. -/
def buttonsOfAll : List Html → List Tab
  | [] => []
  | h :: hs => buttons h ++ buttonsOfAll hs

end

end Html

end HashTabs
