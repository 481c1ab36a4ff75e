import HashTabs.Json.Lexer
import HashTabs.Json.Number

/-! JSON texts, read as values. -/

namespace HashTabs.Json

/-- Sets a member of an object; a name that is there already gets the new value. -/
def setMember (name : String) (v : Value) : List (String × Value) → List (String × Value)
  | [] => [(name, v)]
  | (other, w) :: ms => if name = other then (name, v) :: ms else (other, w) :: setMember name v ms

/-- Reads the name of a member behind its opening quote, and the colon after it. -/
def memberName (s : List Char) : Except Fault (String × List Char) :=
  match stringBody s with
  | .error f => .error f
  | .ok (name, s) =>
    match skipBlanks s with
    | [] => .error .cutShort
    | c :: s => if c = ':' then .ok (String.ofList name, s) else .error .malformed

mutual

/-- Reads a value, with blanks in front of it. Values may nest as deep as `fuel`. -/
def valueAt : Nat → List Char → Except Fault (Value × List Char)
  | 0, _ => .error .malformed
  | fuel + 1, s =>
    match skipBlanks s with
    | [] => .error .cutShort
    | 'n' :: s => (keyword ['u', 'l', 'l'] s).map (.null, ·)
    | 't' :: s => (keyword ['r', 'u', 'e'] s).map (.bool true, ·)
    | 'f' :: s => (keyword ['a', 'l', 's', 'e'] s).map (.bool false, ·)
    | '"' :: s => (stringBody s).map fun p => (.string (String.ofList p.1), p.2)
    | '[' :: s =>
      match skipBlanks s with
      | ']' :: s => .ok (.array [], s)
      | s => (elementsAt fuel [] s).map fun p => (.array p.1, p.2)
    | '{' :: s =>
      match skipBlanks s with
      | '}' :: s => .ok (.object [], s)
      | s => (membersAt fuel [] s).map fun p => (.object p.1, p.2)
    | s => number s

/-- Reads the elements of an array that follow those in `read`, up to and with its closing
bracket. -/
def elementsAt : Nat → List Value → List Char → Except Fault (List Value × List Char)
  | 0, _, _ => .error .malformed
  | fuel + 1, read, s =>
    match valueAt fuel s with
    | .error f => .error f
    | .ok (v, s) =>
      match skipBlanks s with
      | ',' :: s => elementsAt fuel (v :: read) s
      | ']' :: s => .ok ((v :: read).reverse, s)
      | [] => .error .cutShort
      | _ => .error .malformed

/-- Reads the members of an object that follow those in `read`, up to and with its closing
brace. -/
def membersAt : Nat → List (String × Value) → List Char →
    Except Fault (List (String × Value) × List Char)
  | 0, _, _ => .error .malformed
  | fuel + 1, read, s =>
    match skipBlanks s with
    | '"' :: s =>
      match memberName s with
      | .error f => .error f
      | .ok (name, s) =>
        match valueAt fuel s with
        | .error f => .error f
        | .ok (v, s) =>
          match skipBlanks s with
          | ',' :: s => membersAt fuel (setMember name v read) s
          | '}' :: s => .ok (setMember name v read, s)
          | [] => .error .cutShort
          | _ => .error .malformed
    | [] => .error .cutShort
    | _ => .error .malformed

end

/-- The value of a JSON text, with blanks around it. -/
def read (text : String) : Except Fault Value :=
  let s := text.toList
  match valueAt (2 * s.length + 1) s with
  | .error f => .error f
  | .ok (v, s) => if (skipBlanks s).isEmpty then .ok v else .error .malformed

end HashTabs.Json
