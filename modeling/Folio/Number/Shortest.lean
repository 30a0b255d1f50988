/-!
# The shortest decimal of a float

A finite float stands for every real number that rounds to it.  `shortest` is the decimal with the fewest digits among
those, and of two with equally few digits the one nearer to the float.

A float is taken apart into `mantissa * 2 ^ exponent`; the ends of its interval lie half a step away on each side, a
quarter of a step below a power of two, and belong to it when the mantissa is even.  All arithmetic is on natural numbers.
-/
namespace Folio.Number

/-- The number `digits * 10 ^ exponent`. -/
structure Decimal where
  digits : Nat
  exponent : Int
deriving DecidableEq, Repr

/-- The absolute value of a finite float, `mantissa * 2 ^ exponent`. -/
structure Binary where
  mantissa : Nat
  exponent : Int
deriving DecidableEq, Repr

def Binary.ofFloat (x : Float) : Binary :=
  let bits : Nat := x.toBits.toNat
  let fraction : Nat := bits % Nat.pow 2 52
  let scale : Nat := bits / Nat.pow 2 52 % Nat.pow 2 11
  if scale = 0 then ⟨fraction, -1074⟩ else ⟨fraction + Nat.pow 2 52, (scale : Int) - 1075⟩

/-- The sign bit. -/
def isNegative (x : Float) : Bool := x.toBits.toNat / Nat.pow 2 63 == 1

/-- Fractions over one denominator: the number itself and the two ends of the reals that round to it. -/
structure Interval where
  value : Nat
  low : Nat
  high : Nat
  denominator : Nat
  closed : Bool

def Binary.interval (b : Binary) : Interval :=
  let scale := b.exponent - 2
  let factor := Nat.pow 2 scale.toNat
  let m := b.mantissa
  let below := if m = Nat.pow 2 52 ∧ b.exponent > -1074 then 4 * m - 1 else 4 * m - 2
  ⟨4 * m * factor, below * factor, (4 * m + 2) * factor, Nat.pow 2 (-scale).toNat, m % 2 == 0⟩

/-- The exponent of the leading decimal digit of `value / denominator`. -/
def leadingExponent (value denominator : Nat) : Int :=
  if value ≥ denominator then (Nat.toDigits 10 (value / denominator)).length - 1
  else go 400 1 (value * 10)
where
  go : Nat → Nat → Nat → Int
    | 0, j, _ => -j
    | fuel + 1, j, v => if v ≥ denominator then -j else go fuel (j + 1) (v * 10)

/-- Whether `n * 10 ^ p` rounds to the number. -/
def Interval.holds (i : Interval) (n : Nat) (p : Int) : Bool :=
  let a := n * Nat.pow 10 p.toNat * i.denominator
  let s := Nat.pow 10 (-p).toNat
  if i.closed then i.low * s ≤ a && a ≤ i.high * s else i.low * s < a && a < i.high * s

/-- The two neighbours of the number on the grid of step `10 ^ p`; the nearer one that rounds to it. -/
def Interval.onGrid (i : Interval) (p : Int) : Option Nat :=
  let unit := Nat.pow 10 p.toNat * i.denominator
  let v := i.value * Nat.pow 10 (-p).toNat
  let n := v / unit
  match i.holds n p, i.holds (n + 1) p with
  | true, true => if 2 * v ≤ (2 * n + 1) * unit then some n else some (n + 1)
  | true, false => some n
  | false, true => some (n + 1)
  | false, false => none

/-- Trailing zeros move into the exponent. -/
def Decimal.strip : Nat → Decimal → Decimal
  | 0, d => d
  | fuel + 1, d =>
    if d.digits ≠ 0 ∧ d.digits % 10 = 0 then strip fuel ⟨d.digits / 10, d.exponent + 1⟩ else d

/-- The first grid, from one digit on, with a decimal that rounds to the number. -/
def Interval.search (i : Interval) (lead : Int) : Nat → Int → Decimal
  | 0, p => ⟨i.value * Nat.pow 10 (-p).toNat / (Nat.pow 10 p.toNat * i.denominator), p⟩
  | fuel + 1, p =>
    match i.onGrid p with
    | some n => Decimal.strip 20 ⟨n, p⟩
    | none => search i lead fuel (p - 1)

/-- The shortest decimal of the absolute value of a finite float. -/
def shortest (x : Float) : Decimal :=
  let b := Binary.ofFloat x
  if b.mantissa = 0 then ⟨0, 0⟩
  else
    let i := b.interval
    let lead := leadingExponent i.value i.denominator
    i.search lead 17 lead

end Folio.Number
