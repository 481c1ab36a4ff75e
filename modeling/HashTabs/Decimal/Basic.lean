/-! Numbers written with finitely many decimal digits, and how they are written. -/

namespace HashTabs

/-- The number ± digits · 10 ^ exponent. Zero has a sign too. -/
structure Decimal where
  negative : Bool
  digits : Nat
  exponent : Int
  deriving DecidableEq, Repr

namespace Decimal

/-- The sign of a number, as it is written in front of it. -/
def sign (x : Decimal) : List Char := if x.negative then ['-'] else []

/-- The digits of a number, as they are written. -/
def digitChars (x : Decimal) : List Char := (toString x.digits).toList

/-- Digits with a point among them or after them, where `exponent` counts the places that are left
of the last digit's; a point always has a digit on either side. -/
def pointed (ds : List Char) (exponent : Int) : List Char :=
  if 0 ≤ exponent then ds ++ List.replicate exponent.toNat '0' ++ ['.', '0']
  else
    let places := exponent.natAbs
    if places < ds.length then
      ds.take (ds.length - places) ++ '.' :: ds.drop (ds.length - places)
    else '0' :: '.' :: (List.replicate (places - ds.length) '0' ++ ds)

/-- A power of ten as it is written: it always has a sign. -/
def powerChars (power : Int) : List Char :=
  (if power < 0 then '-' else '+') :: (toString power.natAbs).toList

/-- Digits with a point behind the first, and the power of ten that this takes. -/
def scientific (ds : List Char) (exponent : Int) : List Char :=
  let power := powerChars (exponent + ds.length - 1)
  match ds with
  | [] => []
  | [d] => d :: 'e' :: power
  | d :: ds => d :: '.' :: ds ++ 'e' :: power

/-- Writes a number without an exponent if its point stands at most four places before its first
digit or at most sixteen behind it, and with one otherwise. -/
def render (x : Decimal) : String :=
  let ds := x.digitChars
  let point := x.exponent + ds.length
  String.ofList (x.sign ++
    (if x.digits = 0 then ['0', '.', '0']
    else if -5 < point ∧ point ≤ 16 then pointed ds x.exponent
    else scientific ds x.exponent))

example : render ⟨true, 0, 0⟩ = "-0.0" ∧ render ⟨false, 25, -1⟩ = "2.5" ∧
    render ⟨false, 1, 15⟩ = "1000000000000000.0" ∧ render ⟨false, 15, -6⟩ = "0.000015" := by
  decide +kernel

example : render ⟨false, 1, 16⟩ = "1e+16" ∧ render ⟨true, 25, 299⟩ = "-2.5e+300" ∧
    render ⟨false, 15, -7⟩ = "1.5e-6" ∧ render ⟨false, 5, -324⟩ = "5e-324" := by
  decide +kernel

end Decimal

end HashTabs
