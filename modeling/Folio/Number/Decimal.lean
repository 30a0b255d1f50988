import Folio.Number.Notation
/-!
# Reading decimal numbers

A decimal is a sign, digits with at most one point among them, and an exponent.  There is at least one digit; the
value is the float nearest to the decimal.
-/
namespace Folio.Number

def digitValue (c : Char) : Nat := c.toNat - 48

/-- The number that digits write. -/
def ofDigits (cs : List Char) : Nat := cs.foldl (fun n c => n * 10 + digitValue c) 0

/-- A mantissa of decimal digits times a power of ten. -/
def scaled (mantissa : Nat) (exponent : Int) : Float :=
  if mantissa = 0 then 0.0
  else if exponent > 400 then Float.ofScientific 1 false 400
  else if exponent < -(400 + (Nat.toDigits 10 mantissa).length : Int) then 0.0
  else if exponent ≥ 0 then Float.ofScientific mantissa false exponent.toNat
  else Float.ofScientific mantissa true (-exponent).toNat

/-- An exponent with its sign. -/
def exponent? : List Char → Option Int
  | '-' :: cs => if cs.isEmpty || !cs.all Char.isDigit then none else some (-(ofDigits cs : Int))
  | '+' :: cs => if cs.isEmpty || !cs.all Char.isDigit then none else some (ofDigits cs)
  | cs => if cs.isEmpty || !cs.all Char.isDigit then none else some (ofDigits cs)

/-- A decimal without a sign. -/
def unsigned? (cs : List Char) : Option Float :=
  let whole := cs.takeWhile Char.isDigit
  let rest := cs.dropWhile Char.isDigit
  let (fraction, rest) := match rest with
    | '.' :: rest => (rest.takeWhile Char.isDigit, rest.dropWhile Char.isDigit)
    | rest => ([], rest)
  if whole.isEmpty && fraction.isEmpty then none
  else
    let exponent := match rest with
      | [] => some 0
      | 'e' :: cs => exponent? cs
      | 'E' :: cs => exponent? cs
      | _ => none
    exponent.map fun e => scaled (ofDigits (whole ++ fraction)) (e - fraction.length)

def float? : List Char → Option Float
  | '-' :: cs => (unsigned? cs).map fun x => -x
  | '+' :: cs => unsigned? cs
  | cs => unsigned? cs

/-- Digits of a base up to sixteen; none for a character that is no digit of it, or for no digits at all. -/
def natural? (base : Nat) (cs : List Char) : Option Nat :=
  let digit (c : Char) : Option Nat :=
    let d :=
      if '0' ≤ c && c ≤ '9' then c.toNat - 48
      else if 'a' ≤ c && c ≤ 'f' then c.toNat - 87
      else if 'A' ≤ c && c ≤ 'F' then c.toNat - 55
      else 99
    if d < base then some d else none
  if cs.isEmpty then none
  else cs.foldl (fun n c => match n, digit c with
    | some n, some d => some (n * base + d)
    | _, _ => none) (some 0)

end Folio.Number
