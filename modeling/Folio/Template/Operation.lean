import Folio.Template.Value
import Folio.Text.Search
/-!
# Operators on values

Whole numbers have up to 128 bits and become floats beside a float; truths count as 0 and 1.  A sum of texts is the one
text after the other, a sum of lists the one list after the other, and a product of a text or a list with a number
repeats it.
-/
namespace Folio.Template

def Operator.symbol : Operator → String
  | .equal => "=="
  | .unequal => "!="
  | .less => "<"
  | .lessEqual => "<="
  | .greater => ">"
  | .greaterEqual => ">="
  | .within => "in"
  | .add => "+"
  | .subtract => "-"
  | .join => "~"
  | .multiply => "*"
  | .divide => "/"
  | .divideWhole => "//"
  | .remainder => "%"
  | .power => "**"

namespace Value

/-- Whole numbers that arithmetic can give. -/
def isWide (n : Int) : Bool := -(Int.pow 2 127) ≤ n && n < Int.pow 2 127

def unsupported {α : Type} (op : Operator) (v w : Value) : Except Cause α :=
  .error (.operandKinds op.symbol v.kind.describe w.kind.describe)

def impossible {α : Type} (op : Operator) (v w : Value) : Except Cause α :=
  .error (.impossible op.symbol v.display w.display)

def wide (op : Operator) (v w : Value) (n : Int) : Except Cause Value :=
  if isWide n then .ok (.int n) else impossible op v w

/-- Arithmetic on whole numbers if both are, on floats if one is a float. -/
def arithmetic (op : Operator) (whole : Int → Int → Option Int) (float : Float → Float → Float) (v w : Value) :
    Except Cause Value :=
  match v.whole?, w.whole? with
  | some m, some n =>
    match whole m n with
    | some k => wide op v w k
    | Option.none => impossible op v w
  | _, _ =>
    match v.float?, w.float? with
    | some x, some y => .ok (.float (float x y))
    | _, _ => unsupported op v w

def add (v w : Value) : Except Cause Value :=
  match v, w with
  | .text s _, .text t _ => .ok (plain (s ++ t))
  | .list items, .list others => .ok (.list (items ++ others))
  | v, w => arithmetic .add (fun m n => some (m + n)) (· + ·) v w

/-- How often something is repeated. -/
def times? : Value → Option Nat
  | .int n => if 0 ≤ n then some n.toNat else Option.none
  | _ => Option.none

def multiply (v w : Value) : Except Cause Value :=
  match v, w with
  | .text s _, w =>
    match w.times? with
    | some n => .ok (plain (String.join (List.replicate n s)))
    | Option.none => unsupported .multiply v w
  | .list items, w =>
    match w.times? with
    | some n => .ok (.list (List.replicate n items).flatten)
    | Option.none => unsupported .multiply v w
  | v, w => arithmetic .multiply (fun m n => some (m * n)) (· * ·) v w

def divide (v w : Value) : Except Cause Value :=
  match v.float?, w.float? with
  | some x, some y => .ok (.float (x / y))
  | _, _ => unsupported .divide v w

/-- The quotient of floats that leaves a remainder that is not negative. -/
def floatQuotient (x y : Float) : Float :=
  let q := (x / y)
  let q := if q < 0 then q.ceil else q.floor
  let r := x - q * y
  if r < 0 then (if y > 0 then q - 1 else q + 1) else q

def floatRemainder (x y : Float) : Float :=
  let q := (x / y)
  let q := if q < 0 then q.ceil else q.floor
  x - q * y

def power (v w : Value) : Except Cause Value :=
  arithmetic .power
    (fun m n =>
      if 0 ≤ n && n < Int.pow 2 32 && (n ≤ 128 || m.natAbs ≤ 1) then some (Int.pow m n.toNat) else Option.none)
    Float.pow v w

/-- Whether a value is a part of another one. -/
def within (v container : Value) : Except Cause Value :=
  match container with
  | .undefined => .ok (.bool false)
  | .text s _ => .ok (.bool (Text.isWithin (v.text?.getD v.display).toList s.toList))
  | .list items => .ok (.bool (items.any fun item => item.equals v))
  | .map entries => .ok (.bool (valueAt? entries v).isSome)
  | _ => .error .noContainer

def negate : Value → Except Cause Value
  | .int n => if isWide (-n) then .ok (.int (-n)) else .error .notANumber
  | .float x => .ok (.float (-x))
  | _ => .error .notANumber

def operate (op : Operator) (v w : Value) : Except Cause Value :=
  match op with
  | .equal => .ok (.bool (v.equals w))
  | .unequal => .ok (.bool (!v.equals w))
  | .less => .ok (.bool (v.compare w == .lt))
  | .lessEqual => .ok (.bool (v.compare w != .gt))
  | .greater => .ok (.bool (v.compare w == .gt))
  | .greaterEqual => .ok (.bool (v.compare w != .lt))
  | .within => v.within w
  | .add => v.add w
  | .subtract => arithmetic .subtract (fun m n => some (m - n)) (· - ·) v w
  | .join => .ok (plain (v.display ++ w.display))
  | .multiply => v.multiply w
  | .divide => v.divide w
  | .divideWhole => arithmetic .divideWhole (fun m n => if n = 0 then Option.none else some (m / n)) floatQuotient v w
  | .remainder => arithmetic .remainder (fun m n => if n = 0 then Option.none else some (m % n)) floatRemainder v w
  | .power => v.power w

/-! ## Slices -/

/-- A bound of a slice; none where nothing is written. -/
def bound? : Value → Except Cause (Option Int)
  | .none => .ok Option.none
  | .int n => .ok (some n)
  | v => .error (.notConvertible v.kind.describe "i64")

/-- A bound counted from the front. -/
def fromFront (length : Nat) (n : Int) : Nat := if n < 0 then (n + length).toNat else min n.toNat length

/-- Every `step`-th item, the first one first. -/
def everyNth {α : Type} (step : Nat) (fuel : Nat) (xs : List α) : List α :=
  match fuel, xs with
  | fuel + 1, x :: rest => x :: everyNth step fuel (rest.drop (step - 1))
  | _, _ => []

def sliceItems {α : Type} (start stop : Option Int) (step : Int) (xs : List α) : List α :=
  let length := xs.length
  if 0 < step then
    let beginning := fromFront length (start.getD 0)
    let upTo := fromFront length (stop.getD length)
    everyNth step.toNat length ((xs.take upTo).drop beginning)
  else
    let first := match start with
      | some n => min (fromFront length n + 1) length
      | Option.none => length
    let last := match stop with
      | some n => fromFront length n + 1
      | Option.none => 0
    everyNth step.natAbs length ((xs.take first).drop last).reverse

def slice (v start stop step : Value) : Except Cause Value := do
  let start ← start.bound?
  let stop ← stop.bound?
  let step := (← step.bound?).getD 1
  if step = 0 then .error .stillSlice else
  match v with
  | .undefined | .none => .ok (.list [])
  | .text s _ => .ok (plain (String.ofList (sliceItems start stop step s.toList)))
  | .list items => .ok (.list (sliceItems start stop step items))
  | v => .error (.sliceOf v.kind.describe)

end Value
end Folio.Template
