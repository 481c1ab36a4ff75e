import HashTabs.Json.Value

/-! The words of JSON: blanks, keywords and strings, each read off the front of a text. -/

namespace HashTabs.Json

/-- The characters that may stand between words. -/
def isBlank (c : Char) : Bool := c == ' ' || c == '\t' || c == '\n' || c == '\r'

/-- Leaves out the blanks in front. -/
def skipBlanks (s : List Char) : List Char := s.dropWhile isBlank

/-- Reads a word letter by letter. -/
def keyword : List Char → List Char → Except Fault (List Char)
  | [], s => .ok s
  | _ :: _, [] => .error .cutShort
  | w :: ws, c :: s => if c = w then keyword ws s else .error .malformed

/-- The value of a hexadecimal digit, of either case. -/
def hexValue? (c : Char) : Option Nat :=
  if '0' ≤ c ∧ c ≤ '9' then some (c.toNat - '0'.toNat)
  else if 'A' ≤ c ∧ c ≤ 'F' then some (c.toNat - 'A'.toNat + 10)
  else if 'a' ≤ c ∧ c ≤ 'f' then some (c.toNat - 'a'.toNat + 10)
  else none

/-- The value of four hexadecimal digits. -/
def hexValue4? (a b c d : Char) : Option Nat :=
  match hexValue? a, hexValue? b, hexValue? c, hexValue? d with
  | some w, some x, some y, some z => some (((w * 16 + x) * 16 + y) * 16 + z)
  | _, _, _, _ => none

/-- Reads four hexadecimal digits. A text of fewer than four bytes ends too early whatever it is. -/
def codeUnit : (s : List Char) → Except Fault (Nat × { r : List Char // r.length < s.length })
  | a :: b :: c :: d :: r =>
    match hexValue4? a b c d with
    | some n => .ok (n, ⟨r, by simp; omega⟩)
    | none => .error .malformed
  | s => if (String.ofList s).utf8ByteSize < 4 then .error .cutShort else .error .malformed

/-- A code unit that has to be followed by its partner to stand for a character. -/
def isHighSurrogate (n : Nat) : Bool := decide (0xD800 ≤ n ∧ n ≤ 0xDBFF)

/-- A code unit that has to follow its partner to stand for a character. -/
def isLowSurrogate (n : Nat) : Bool := decide (0xDC00 ≤ n ∧ n ≤ 0xDFFF)

/-- Reads a character that is given by its code units: one, or two surrogates. -/
def codePoint (s : List Char) : Except Fault (Char × { r : List Char // r.length < s.length }) :=
  match codeUnit s with
  | .error f => .error f
  | .ok (n, ⟨r, hr⟩) =>
    if isLowSurrogate n then .error .malformed
    else if isHighSurrogate n then
      match r with
      | [] => .error .cutShort
      | c :: r =>
        if c != '\\' then .error .malformed
        else match r with
        | [] => .error .cutShort
        | c :: r =>
          if c != 'u' then .error .malformed
          else match codeUnit r with
          | .error f => .error f
          | .ok (m, ⟨t, ht⟩) =>
            if isLowSurrogate m then
              .ok (Char.ofNat (0x10000 + (n - 0xD800) * 0x400 + (m - 0xDC00)),
                ⟨t, by simp at hr; omega⟩)
            else .error .malformed
    else .ok (Char.ofNat n, ⟨r, hr⟩)

/-- The character that a single letter stands for behind a backslash. -/
def shortEscape? (c : Char) : Option Char :=
  if c = '"' ∨ c = '\\' ∨ c = '/' then some c
  else if c = 'b' then some '\x08'
  else if c = 'f' then some '\x0c'
  else if c = 'n' then some '\n'
  else if c = 'r' then some '\r'
  else if c = 't' then some '\t'
  else none

/-- Reads what follows a backslash. -/
def escape : (s : List Char) → Except Fault (Char × { r : List Char // r.length < s.length })
  | [] => .error .cutShort
  | c :: s =>
    match shortEscape? c with
    | some e => .ok (e, ⟨s, by simp⟩)
    | none =>
      if c = 'u' then
        match codePoint s with
        | .error f => .error f
        | .ok (e, ⟨r, hr⟩) => .ok (e, ⟨r, by simp; omega⟩)
      else .error .malformed

/-- Puts a character in front of what has been read. -/
def prepend (c : Char) (p : List Char × List Char) : List Char × List Char := (c :: p.1, p.2)

/-- Reads a string behind its opening quote, up to and with its closing one. -/
def stringBody : List Char → Except Fault (List Char × List Char)
  | [] => .error .cutShort
  | c :: s =>
    if c = '"' then .ok ([], s)
    else if c = '\\' then
      match escape s with
      | .error f => .error f
      | .ok (e, ⟨r, _⟩) => (stringBody r).map (prepend e)
    else if c.toNat < 0x20 then .error .malformed
    else (stringBody s).map (prepend c)
termination_by s => s.length

end HashTabs.Json
