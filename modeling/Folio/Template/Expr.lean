/-!
# Expressions and statements of templates

The structure of a template after reading.  Every node that can fail carries the line that its fault is given.
-/
namespace Folio.Template

/-- Operators on two values, both of which are evaluated first. -/
inductive Operator where
  | equal
  | unequal
  | less
  | lessEqual
  | greater
  | greaterEqual
  | within
  | add
  | subtract
  | join
  | multiply
  | divide
  | divideWhole
  | remainder
  | power
deriving DecidableEq, Repr

inductive Constant where
  | none
  | bool (b : Bool)
  | int (n : Int)
  | float (x : Float)
  | text (s : String)

mutual
inductive Expr where
  | constant (line : Nat) (c : Constant)
  | variable (line : Nat) (name : String)
  | negate (line : Nat) (e : Expr)
  | not (line : Nat) (e : Expr)
  /-- The left value if it is false, or the right one. -/
  | and (line : Nat) (left right : Expr)
  /-- The left value if it is true, or the right one. -/
  | or (line : Nat) (left right : Expr)
  | binary (line : Nat) (op : Operator) (left right : Expr)
  | choose (line : Nat) (condition yes : Expr) (no : Option Expr)
  | filter (line : Nat) (name : String) (subject : Expr) (args : List Arg)
  | test (line : Nat) (name : String) (subject : Expr) (args : List Arg)
  | attribute (line : Nat) (e : Expr) (name : String)
  | item (line : Nat) (e index : Expr)
  | slice (line : Nat) (e : Expr) (start stop step : Option Expr)
  | call (line : Nat) (callee : Expr) (args : List Arg)
  | list (line : Nat) (items : List Expr)
  | map (line : Nat) (entries : List (Expr × Expr))

inductive Arg where
  | positional (e : Expr)
  | named (name : String) (e : Expr)
end

instance : Inhabited Expr := ⟨.constant 0 .none⟩

/-- The line where the last part of an expression stands. -/
def Expr.line : Expr → Nat
  | .constant line _ | .variable line _ | .negate line _ | .not line _ | .and line _ _ | .or line _ _
  | .binary line _ _ _ | .choose line _ _ _ | .filter line _ _ _ | .test line _ _ _ | .attribute line _ _
  | .item line _ _ | .slice line _ _ _ _ | .call line _ _ | .list line _ | .map line _ => line

/-- What a value is assigned to. -/
inductive Target where
  | name (name : String)
  | list (targets : List Target)

/-- One filter of a chain that a captured text goes through. -/
structure FilterCall where
  line : Nat
  name : String
  args : List Arg

/-- The head of a callable piece of template: its parameters, and every variable that it mentions. -/
structure Signature where
  name : String
  parameters : List String
  mentioned : List String

inductive Stmt where
  | plain (text : String)
  | emit (line : Nat) (e : Expr)
  | loop (line : Nat) (target : Target) (source : Expr) (condition : Option Expr) (recursive : Bool)
      (body otherwise : List Stmt)
  | choose (condition : Expr) (yes no : List Stmt)
  | scoped (assignments : List (Target × Expr)) (body : List Stmt)
  | assign (line : Nat) (target : Target) (e : Expr)
  | capture (line : Nat) (target : Target) (filters : List FilterCall) (body : List Stmt)
  | block (line : Nat) (name : String)
  | inherit (line : Nat) (parent : Expr)
  | include (line : Nat) (name : Expr) (ignoreMissing : Bool)
  | importAs (line : Nat) (name : Expr) (target : Target)
  | importNames (line : Nat) (name : Expr) (names : List (String × String))
  | define (line : Nat) (signature : Signature) (body : List Stmt)
  | filtered (filters : List FilterCall) (body : List Stmt)
  | escaped (mode : Expr) (body : List Stmt)
  | evaluate (line : Nat) (e : Expr)

instance : Inhabited Stmt := ⟨.plain ""⟩

/-- A template: its statements, and the bodies of its blocks wherever they stand in it. -/
structure Template where
  name : String
  body : List Stmt
  blocks : List (String × List Stmt)

end Folio.Template
