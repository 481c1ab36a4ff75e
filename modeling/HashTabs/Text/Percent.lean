import HashTabs.Text.Utf8

/-! Form encoding: a space may be a plus sign, and any byte may be two digits after a percent. -/

namespace HashTabs.Text.Percent

/-- The value of a hexadecimal digit, of either case. -/
def hexValue? (b : UInt8) : Option Nat :=
  if 0x30 ≤ b ∧ b ≤ 0x39 then some (b.toNat - 0x30)
  else if 0x41 ≤ b ∧ b ≤ 0x46 then some (b.toNat - 0x41 + 10)
  else if 0x61 ≤ b ∧ b ≤ 0x66 then some (b.toNat - 0x61 + 10)
  else none

/-- The byte that two hexadecimal digits stand for. -/
def hexPair? (h l : UInt8) : Option UInt8 :=
  match hexValue? h, hexValue? l with
  | some x, some y => some (UInt8.ofNat (x * 16 + y))
  | _, _ => none

/-- A byte outside an escape stands for itself, but a plus sign stands for a space. -/
def plain (b : UInt8) : UInt8 := if b = 0x2B then 0x20 else b

/-- Undoes the form encoding. A percent sign that two digits do not follow stands for itself. -/
def decode : List UInt8 → List UInt8
  | b :: h :: l :: r =>
    if b = 0x25 then
      match hexPair? h l with
      | some v => v :: decode r
      | none => b :: decode (h :: l :: r)
    else plain b :: decode (h :: l :: r)
  | bs => bs.map plain

/-- The text that form-encoded bytes stand for. -/
def text (bs : List UInt8) : Except Utf8.Fault String :=
  (Utf8.decode (decode bs)).map String.ofList

/-- The hexadecimal digit of a value below sixteen, in upper case. -/
def hexDigit (n : Nat) : Char :=
  if n < 10 then Char.ofNat (0x30 + n) else Char.ofNat (0x41 + (n - 10))

/-- The bytes that the form encoding leaves alone. -/
def isPlain (b : UInt8) : Bool :=
  decide (0x30 ≤ b ∧ b ≤ 0x39 ∨ 0x41 ≤ b ∧ b ≤ 0x5A ∨ 0x61 ≤ b ∧ b ≤ 0x7A
    ∨ b = 0x2A ∨ b = 0x2D ∨ b = 0x2E ∨ b = 0x5F)

/-- The form encoding of one byte. -/
def encodeByte (b : UInt8) : List Char :=
  if isPlain b then [Char.ofNat b.toNat]
  else if b = 0x20 then ['+']
  else ['%', hexDigit (b.toNat / 16), hexDigit (b.toNat % 16)]

/-- The form encoding of a text. -/
def encode (s : String) : String :=
  String.ofList ((Utf8.encode s.toList).flatMap encodeByte)

example : encode "[\u00e9 b]~*" = "%5B%C3%A9+b%5D%7E*" := by decide +kernel

end HashTabs.Text.Percent
