import HashTabs.Decimal.Basic

/-! Binary floating point of 64 bits, without sign: the nearest such number to a fraction, and the
fewest decimal digits that lead back to it. -/

namespace HashTabs

/-- The number mantissa · 2 ^ exponent, where the mantissa has at most 53 bits, and exactly that
many unless the exponent is the least one. -/
structure Binary64 where
  mantissa : Nat
  exponent : Int
  deriving DecidableEq, Repr

namespace Binary64

/-- The least exponent. -/
def leastExponent : Int := -1074

/-- The greatest exponent. -/
def greatestExponent : Int := 971

/-- Numerator and denominator of a power. -/
def power (base : Nat) (e : Int) : Nat × Nat :=
  if 0 ≤ e then (base.pow e.toNat, 1) else (1, base.pow e.natAbs)

/-- The quotient of two numbers, rounded to the nearest whole one; of two, to the even one. -/
def roundDiv (num den : Nat) : Nat :=
  let q := num / den
  let r := num % den
  if 2 * r < den then q
  else if den < 2 * r then q + 1
  else q + q % 2

/-- The greatest `e` with 2 ^ e at most num / den. -/
def floorLog (num den : Nat) : Int :=
  let e : Int := Int.ofNat num.log2 - Int.ofNat den.log2
  let p := power 2 e
  if p.1 * den ≤ num * p.2 then e else e - 1

/-- The number nearest to num / den, if that is not too large. -/
def nearest? (num den : Nat) : Option Binary64 :=
  if num = 0 then some ⟨0, leastExponent⟩
  else
    let e := max (floorLog num den - 52) leastExponent
    let p := power 2 e
    let m := roundDiv (num * p.2) (den * p.1)
    let x : Binary64 := if m = Nat.pow 2 53 then ⟨Nat.pow 2 52, e + 1⟩ else ⟨m, e⟩
    if x.exponent ≤ greatestExponent then some x else none

/-- Numerator and denominator of a number. -/
def ratio (x : Binary64) : Nat × Nat :=
  let p := power 2 x.exponent
  (x.mantissa * p.1, p.2)

/-- Tells whether d · 10 ^ k lies so near to a number that it is read back as that number. -/
def readsBack (x : Binary64) (d : Nat) (k : Int) : Bool :=
  let unit := power 2 (x.exponent - 2)
  let ten := power 10 k
  let below := if x.mantissa = Nat.pow 2 52 ∧ leastExponent < x.exponent then 1 else 2
  let low := (4 * x.mantissa - below) * unit.1 * ten.2
  let high := (4 * x.mantissa + 2) * unit.1 * ten.2
  let here := d * ten.1 * unit.2
  if x.mantissa % 2 = 0 then decide (low ≤ here ∧ here ≤ high)
  else decide (low < here ∧ here < high)

/-- Of the multiples of 10 ^ k, the nearest one that is read back as the number. -/
def onGrid? (x : Binary64) (k : Int) : Option Nat :=
  let r := x.ratio
  let ten := power 10 k
  let num := r.1 * ten.2
  let den := r.2 * ten.1
  let near := roundDiv num den
  let other := if near = num / den then near + 1 else near - 1
  if near ≠ 0 ∧ x.readsBack near k then some near
  else if other ≠ 0 ∧ x.readsBack other k then some other
  else none

/-- Searches ever finer grids, from 10 ^ k down. -/
def shortestFrom (x : Binary64) : Nat → Int → Nat × Int
  | 0, k => (0, k)
  | n + 1, k =>
    match x.onGrid? k with
    | some d => (d, k)
    | none => shortestFrom x n (k - 1)

/-- The decimal of fewest digits that is read back as the number, and of those the nearest. -/
def shortest (negative : Bool) (x : Binary64) : Decimal :=
  if x.mantissa = 0 then ⟨negative, 0, 0⟩
  else
    let r := shortestFrom x 640 309
    ⟨negative, r.1, r.2⟩

end Binary64

end HashTabs
