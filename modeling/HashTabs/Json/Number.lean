import HashTabs.Decimal.Binary64
import HashTabs.Json.Value

/-! Number literals of JSON, and the values that 64 bits keep of them. -/

namespace HashTabs.Json

/-- A number literal, taken apart. -/
structure Literal where
  negative : Bool
  whole : List Char
  /-- The digits behind the point, if there is one. -/
  fraction : Option (List Char) := none
  /-- Whether the exponent is negative, and its digits, if there is one. -/
  exponent : Option (Bool × List Char) := none

namespace Literal

/-- Reads at least one digit and all that follow. -/
def someDigits : List Char → Except Fault (List Char × List Char)
  | [] => .error .cutShort
  | c :: s =>
    if c.isDigit then .ok (c :: s.takeWhile Char.isDigit, s.dropWhile Char.isDigit)
    else .error .malformed

/-- Reads the digits before the point: a zero stands alone. -/
def wholeDigits : List Char → Except Fault (List Char × List Char)
  | '0' :: c :: s => if c.isDigit then .error .malformed else .ok (['0'], c :: s)
  | s => someDigits s

/-- Reads a fraction, if there is one. -/
def withFraction (l : Literal) : List Char → Except Fault (Literal × List Char)
  | '.' :: s => (someDigits s).map fun p => ({ l with fraction := some p.1 }, p.2)
  | s => .ok (l, s)

/-- Reads the sign of an exponent, if there is one. -/
def exponentSign : List Char → Bool × List Char
  | '+' :: s => (false, s)
  | '-' :: s => (true, s)
  | s => (false, s)

/-- Reads an exponent, if there is one. -/
def withExponent (l : Literal) : List Char → Except Fault (Literal × List Char)
  | [] => .ok (l, [])
  | c :: s =>
    if c = 'e' ∨ c = 'E' then
      let p := exponentSign s
      (someDigits p.2).map fun q => ({ l with exponent := some (p.1, q.1) }, q.2)
    else .ok (l, c :: s)

/-- Reads a literal behind its sign. -/
def unsigned (negative : Bool) (s : List Char) : Except Fault (Literal × List Char) :=
  match wholeDigits s with
  | .error f => .error f
  | .ok (whole, s) =>
    match withFraction ⟨negative, whole, none, none⟩ s with
    | .error f => .error f
    | .ok (l, s) => withExponent l s

/-- Reads a literal. -/
def read : List Char → Except Fault (Literal × List Char)
  | '-' :: s => unsigned true s
  | s => unsigned false s

/-- The value of a digit. -/
def digitValue (c : Char) : Nat := c.toNat - '0'.toNat

/-- The value of a row of digits. -/
def natural (ds : List Char) : Nat := ds.foldl (fun n c => n * 10 + digitValue c) 0

/-- Appends digits to `n` for as long as the outcome fits 64 bits, and gives the rest of them. -/
def absorb (n : Nat) : List Char → Nat × List Char
  | [] => (n, [])
  | c :: ds =>
    let m := n * 10 + digitValue c
    if m < Nat.pow 2 64 then absorb m ds else (n, c :: ds)

/-- The leading digits of a literal, as many as fit 64 bits, and the power of ten that goes with
them. Digits that come too late count before the point and are dropped behind it. -/
def significand (l : Literal) : Nat × Int :=
  let w := absorb 0 l.whole
  let fraction := l.fraction.getD []
  let f := absorb w.1 fraction
  (f.1, (w.2.length : Int) - ((fraction.length : Int) - f.2.length))

/-- The greatest power of ten that is kept as a number of its own. -/
def greatestPower : Nat := 308

/-- The number nearest to a power of ten. -/
def powerOfTen (k : Nat) : Nat × Nat :=
  match Binary64.nearest? (Nat.pow 10 k) 1 with
  | some x => x.ratio
  | none => (0, 1)

/-- The number nearest to a product. -/
def times? (x : Binary64) (k : Nat) : Option Binary64 :=
  Binary64.nearest? (x.ratio.1 * (powerOfTen k).1) (x.ratio.2 * (powerOfTen k).2)

/-- The number nearest to a quotient. -/
def over? (x : Binary64) (k : Nat) : Option Binary64 :=
  Binary64.nearest? (x.ratio.1 * (powerOfTen k).2) (x.ratio.2 * (powerOfTen k).1)

/-- The number nearest to n, times a power of ten. A power beyond the greatest one is applied in
two steps if it makes the number smaller; no number stays above zero after a third one. -/
def scale? (n : Nat) (e : Int) : Option Binary64 :=
  let x := Binary64.nearest? n 1
  if n = 0 then x
  else if 0 ≤ e then
    if e ≤ greatestPower then x.bind fun x => times? x e.toNat else none
  else if e.natAbs ≤ greatestPower then x.bind fun x => over? x e.natAbs
  else if e.natAbs ≤ 2 * greatestPower then
    (x.bind fun x => over? x greatestPower).bind fun x => over? x (e.natAbs - greatestPower)
  else Binary64.nearest? 0 1

/-- The power of ten that a literal ends with. -/
def power (l : Literal) : Int :=
  match l.exponent with
  | none => 0
  | some (true, ds) => -(natural ds : Int)
  | some (false, ds) => natural ds

/-- Holds of a literal that is written as a whole number and fits 64 bits, with or without sign. A
negative zero is none. -/
def isWhole (l : Literal) : Bool :=
  let n := natural l.whole
  l.fraction.isNone && l.exponent.isNone &&
    (if l.negative then decide (0 < n ∧ n ≤ Nat.pow 2 63) else decide (n < Nat.pow 2 64))

/-- The value of a literal, unless it is too large for 64 bits. -/
def value (l : Literal) : Except Fault Value :=
  if l.isWhole then
    .ok (.int (if l.negative then -(natural l.whole : Int) else natural l.whole))
  else
    let s := l.significand
    match scale? s.1 (s.2 + l.power) with
    | some x => .ok (.float (Binary64.shortest l.negative x))
    | none => .error .malformed

end Literal

/-- Reads a number. -/
def number (s : List Char) : Except Fault (Value × List Char) :=
  match Literal.read s with
  | .error f => .error f
  | .ok (l, r) => l.value.map (·, r)

end HashTabs.Json
