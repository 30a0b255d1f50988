import Folio.Number.Shortest
/-!
# How floats are written

Two notations, over the same digits.  `positional` never uses an exponent.  `compact` writes a number below
10⁻⁵ or from 10¹⁶ on with one digit before the point and a signed exponent.  Both mark a whole number by `.0`.
-/
namespace Folio.Number

def zeros (n : Nat) : String := String.ofList (List.replicate n '0')

/-- Digits with the point after the first `place` of them. -/
def pointed (d : Decimal) : String :=
  let digits := toString d.digits
  let place := (digits.length : Int) + d.exponent
  if d.exponent ≥ 0 then digits ++ zeros d.exponent.toNat ++ ".0"
  else if place ≤ 0 then "0." ++ zeros (-place).toNat ++ digits
  else String.ofList (digits.toList.take place.toNat) ++ "." ++ String.ofList (digits.toList.drop place.toNat)

/-- One digit, the point, the other digits, and the exponent with its sign. -/
def scientific (d : Decimal) : String :=
  let digits := (toString d.digits).toList
  let exponent := (digits.length : Int) - 1 + d.exponent
  let rest := digits.drop 1
  String.ofList (digits.take 1) ++ (if rest.isEmpty then "" else "." ++ String.ofList rest) ++ "e"
    ++ (if exponent < 0 then "-" else "+") ++ toString exponent.natAbs

def signed (x : Float) (text : String) : String := if isNegative x then "-" ++ text else text

/-- Positional notation, whatever the size. -/
def positional (x : Float) : String :=
  if x.isNaN then "NaN" else if x.isInf then signed x "inf" else signed x (pointed (shortest x))

/-- Positional notation from 10⁻⁵ to below 10¹⁶, an exponent elsewhere. -/
def compact (x : Float) : String :=
  let d := shortest x
  let place := ((toString d.digits).length : Int) + d.exponent
  signed x (if d.digits = 0 ∨ (-5 < place ∧ place ≤ 16) then pointed d else scientific d)

/-- A whole number in at least `width` places, filled with zeros behind its sign. -/
def padded (width : Nat) (n : Int) : String :=
  let digits := toString n.natAbs
  if n < 0 then "-" ++ zeros (width - 1 - digits.length) ++ digits else zeros (width - digits.length) ++ digits

/-- The whole part of a finite float, toward zero. -/
def truncate (x : Float) : Int :=
  let b := Binary.ofFloat x
  let n : Nat :=
    if b.exponent ≥ 0 then b.mantissa * Nat.pow 2 b.exponent.toNat else b.mantissa / Nat.pow 2 (-b.exponent).toNat
  if isNegative x then -n else n

end Folio.Number
