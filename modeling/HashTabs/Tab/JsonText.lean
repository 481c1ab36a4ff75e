import HashTabs.Tab.Json
import HashTabs.Json.Lexer
import HashTabs.Json.Number

/-! Tabs in JSON texts: the text is read from left to right, and the first thing that is wrong with
it decides. -/

namespace HashTabs.Tab

open HashTabs.Json (skipBlanks keyword stringBody)

/-- Why a JSON text is no tab. -/
inductive TextFault where
  /-- The text ends where it has to go on. -/
  | cutShort
  /-- The text is no JSON, or not of a form that a tab can have. -/
  | malformed
  /-- The text has such a form, and no tab in it. -/
  | noTab
  deriving DecidableEq, Repr

/-- What is wrong with a text whose words are wrong. -/
def TextFault.ofWords : Json.Fault → TextFault
  | .cutShort => .cutShort
  | .malformed => .malformed

/-- Reads the name of a tab behind its opening quote. -/
def tokenAt (s : List Char) : Except TextFault (Tab × List Char) :=
  match stringBody s with
  | .error f => .error (.ofWords f)
  | .ok (name, s) =>
    match ofJsonName? (String.ofList name) with
    | some t => .ok (t, s)
    | none => .error .noTab

/-- Turns down a value once its words have been read. -/
def turnDown {α : Type} : Except Json.Fault α → TextFault
  | .error f => .ofWords f
  | .ok _ => .noTab

/-- Why a value cannot stand where one of another kind has to; its first character is given, and what
follows. A value that is simple has to be read to its end before it is turned down; an array or an
object is turned down at once. -/
def otherValue (c : Char) (s : List Char) : TextFault :=
  if c = 'n' then turnDown (keyword ['u', 'l', 'l'] s)
  else if c = 't' then turnDown (keyword ['r', 'u', 'e'] s)
  else if c = 'f' then turnDown (keyword ['a', 'l', 's', 'e'] s)
  else if c = '"' then turnDown (stringBody s)
  else if c = '[' ∨ c = '{' then .noTab
  else if c = '-' ∨ c.isDigit then turnDown (Json.number (c :: s))
  else .malformed

/-- Why a character cannot stand where a certain sign has to, whatever follows it. -/
def otherSign (_ : Char) (_ : List Char) : TextFault := .malformed

/-- Reads one character, with blanks in front of it. Another one is turned down, with what follows. -/
def charAt (c : Char) (other : Char → List Char → TextFault) (s : List Char) :
    Except TextFault (List Char) :=
  match skipBlanks s with
  | [] => .error .cutShort
  | d :: s => if d = c then .ok s else .error (other d s)

/-- Reads a null, with blanks in front of it. -/
def nullAt (s : List Char) : Except TextFault (List Char) :=
  match skipBlanks s with
  | [] => .error .cutShort
  | c :: s =>
    if c = 'n' then (keyword ['u', 'l', 'l'] s).mapError .ofWords
    else .error (otherValue c s)

/-- Nothing but blanks may follow a tab. -/
def finish (t : Tab) (s : List Char) : Except TextFault Tab :=
  if (skipBlanks s).isEmpty then .ok t else .error .malformed

/-- The tab that a JSON text stands for. -/
def ofJsonText (text : String) : Except TextFault Tab :=
  match skipBlanks text.toList with
  | [] => .error .cutShort
  | c :: s =>
    if c = '"' then do
      let (t, s) ← tokenAt s
      finish t s
    else if c = '{' then do
      let s ← charAt '"' otherValue s
      let (t, s) ← tokenAt s
      let s ← charAt ':' otherSign s
      let s ← nullAt s
      let s ← charAt '}' otherSign s
      finish t s
    else .error .malformed

end HashTabs.Tab
