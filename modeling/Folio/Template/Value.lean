import Folio.Datum
import Folio.Template.Expr
import Folio.Template.Fault
/-!
# Values of templates

The values that expressions have.  Every value is printed as text (`Value.display`), two values can always be compared
(`Value.compare`), and the entries of a map are in the order of their keys.  A text may be marked safe, which keeps it
from being escaped.
-/
namespace Folio.Template

inductive Value where
  | undefined
  | none
  | bool (b : Bool)
  | int (n : Int)
  | float (x : Float)
  | text (s : String) (safe : Bool)
  | list (items : List Value)
  | map (entries : List (Value × Value))
  /-- A function of the environment, with the text that it prints. -/
  | function (name text : String)
  /-- A piece of template that can be called: its number among those that the run has defined, and the number of the
  variables it shares with the place where it was defined. -/
  | snippet (number : Nat) (signature : Signature) (body : List Stmt) (scope : Nat)
  /-- The loop around the place where it is asked for. -/
  | loop (index count : Nat) (previous following : Option Value)

instance : Inhabited Value := ⟨.undefined⟩

/-- The kinds that messages speak of, in the order in which values of different kinds are sorted. -/
inductive Kind where
  | undefined
  | none
  | bool
  | number
  | text
  | list
  | map
  | plain
deriving DecidableEq, Repr

namespace Kind

def describe : Kind → String
  | .undefined => "undefined"
  | .none => "none"
  | .bool => "bool"
  | .number => "number"
  | .text => "string"
  | .list => "sequence"
  | .map => "map"
  | .plain => "plain object"

def name : Kind → String
  | .undefined => "Undefined"
  | .none => "None"
  | .bool => "Bool"
  | .number => "Number"
  | .text => "String"
  | .list => "Seq"
  | .map => "Map"
  | .plain => "Plain"

def rank : Kind → Nat
  | .undefined => 0
  | .none => 1
  | .bool => 2
  | .number => 3
  | .text => 4
  | .list => 5
  | .map => 6
  | .plain => 7

end Kind

namespace Value

def kind : Value → Kind
  | .undefined => .undefined
  | .none => .none
  | .bool _ => .bool
  | .int _ | .float _ => .number
  | .text .. => .text
  | .list _ => .list
  | .map _ => .map
  | .function .. | .snippet .. | .loop .. => .plain

def plain (s : String) : Value := .text s false

def safe (s : String) : Value := .text s true

def text? : Value → Option String
  | .text s _ => some s
  | _ => Option.none

/-- Undefined or none. -/
def isMissing : Value → Bool
  | .undefined | .none => true
  | _ => false

def isTrue : Value → Bool
  | .undefined | .none => false
  | .bool b => b
  | .int n => n != 0
  | .float x => x != 0
  | .text s _ => s != ""
  | .list items => !items.isEmpty
  | .map entries => !entries.isEmpty
  | .function .. | .snippet .. | .loop .. => true

/-! ## Text -/

def floatText (x : Float) : String :=
  if x.isNaN then "NaN" else if x.isInf then (if x < 0 then "-inf" else "inf") else Number.positional x

mutual
/-- The value inside a list or a map, where texts are quoted. -/
def shown : Value → String
  | .undefined => "undefined"
  | .none => "None"
  | .bool b => if b then "True" else "False"
  | .int n => toString n
  | .float x => floatText x
  | .text s _ => Text.shown s
  | .list items => "[" ++ ", ".intercalate (shownItems items) ++ "]"
  | .map entries => "\x7b" ++ ", ".intercalate (shownEntries entries) ++ "\x7d"
  | .function _ s => s
  | .snippet _ signature _ _ => "<macro " ++ signature.name ++ ">"
  | .loop index count _ _ => "<loop " ++ toString index ++ "/" ++ toString count ++ ">"
termination_by structural v => v

def shownItems : List Value → List String
  | [] => []
  | v :: vs => v.shown :: shownItems vs
termination_by structural vs => vs

def shownEntries : List (Value × Value) → List String
  | [] => []
  | (k, v) :: es => (k.shown ++ ": " ++ v.shown) :: shownEntries es
termination_by structural es => es
end

/-- The text that a value prints. -/
def display : Value → String
  | .undefined => ""
  | .text s _ => s
  | v => v.shown

def escapeChar (c : Char) : String :=
  match c with
  | '&' => "&amp;"
  | '<' => "&lt;"
  | '>' => "&gt;"
  | '"' => "&quot;"
  | '\'' => "&#x27;"
  | '/' => "&#x2f;"
  | c => String.singleton c

def escapeText (s : String) : String := String.join (s.toList.map escapeChar)

/-- The text that a value prints where HTML is escaped. -/
def escaped (v : Value) : String :=
  match v with
  | .text s true => s
  | .undefined | .none | .bool _ | .int _ | .float _ => v.display
  | _ => escapeText v.display

/-! ## Order -/

/-- The nearest float. -/
def toFloat (n : Int) : Float := Float.ofInt n

/-- The whole number that a value stands for in arithmetic. -/
def whole? : Value → Option Int
  | .bool b => some (if b then 1 else 0)
  | .int n => some n
  | _ => Option.none

def float? : Value → Option Float
  | .bool b => some (if b then 1 else 0)
  | .int n => some (toFloat n)
  | .float x => some x
  | _ => Option.none

def compareFloats (x y : Float) : Ordering := if x < y then .lt else if y < x then .gt else .eq

/-- Truths and numbers by their size; other values not at all. -/
def compareNumbers (v w : Value) : Option Ordering :=
  match v.whole?, w.whole? with
  | some m, some n => some (Ord.compare m n)
  | _, _ =>
    match v.float?, w.float? with
    | some x, some y => some (compareFloats x y)
    | _, _ => Option.none

mutual
def compare : Value → Value → Ordering
  | v@(.list items), w =>
    match w with
    | .list others => compareItems items others
    | w => Ord.compare v.kind.rank w.kind.rank
  | v@(.map entries), w =>
    match w with
    | .map others => compareEntries entries others
    | w => Ord.compare v.kind.rank w.kind.rank
  | .text s _, .text t _ => Ord.compare s t
  | v, w => (Ord.compare v.kind.rank w.kind.rank).then ((compareNumbers v w).getD .eq)
termination_by structural v => v

def compareItems : List Value → List Value → Ordering
  | [], [] => .eq
  | [], _ :: _ => .lt
  | _ :: _, [] => .gt
  | v :: vs, w :: ws => (v.compare w).then (compareItems vs ws)
termination_by structural vs => vs

def compareEntries : List (Value × Value) → List (Value × Value) → Ordering
  | [], [] => .eq
  | [], _ :: _ => .lt
  | _ :: _, [] => .gt
  | (k, v) :: es, (l, w) :: fs => ((k.compare l).then (v.compare w)).then (compareEntries es fs)
termination_by structural es => es
end

mutual
/-- Equality, for which a truth is the number 0 or 1, and plain objects are what they print. -/
def equals : Value → Value → Bool
  | .undefined, .undefined => true
  | .none, .none => true
  | .text s _, .text t _ => s == t
  | .list items, .list others => equalItems items others
  | .map entries, .map others => equalEntries entries others
  | v, w => (v.kind == .plain && w.kind == .plain && v.shown == w.shown) || compareNumbers v w == some .eq
termination_by structural v => v

def equalItems : List Value → List Value → Bool
  | [], [] => true
  | v :: vs, w :: ws => v.equals w && equalItems vs ws
  | _, _ => false
termination_by structural vs => vs

def equalEntries : List (Value × Value) → List (Value × Value) → Bool
  | [], [] => true
  | (k, v) :: es, (l, w) :: fs => k.equals l && v.equals w && equalEntries es fs
  | _, _ => false
termination_by structural es => es
end

/-! ## Maps -/

def insertEntry (key value : Value) : List (Value × Value) → List (Value × Value)
  | [] => [(key, value)]
  | (k, v) :: es =>
    match key.compare k with
    | .lt => (key, value) :: (k, v) :: es
    | .eq => (k, value) :: es
    | .gt => (k, v) :: insertEntry key value es

/-- A map of entries of which the later ones win. -/
def ofEntries (entries : List (Value × Value)) : Value :=
  .map (entries.foldl (fun es e => insertEntry e.1 e.2 es) [])

def valueAt? (entries : List (Value × Value)) (key : Value) : Option Value :=
  (entries.find? fun e => e.1.equals key).map (·.2)

/-! ## Data -/

mutual
def ofDatum : Datum → Value
  | .null => .none
  | .bool b => .bool b
  | .int n => .int n
  | .float x => .float x
  | .text s => plain s
  | .list ds => .list (ofItems ds)
  | .object fields => .map (ofFields fields)

def ofItems : List Datum → List Value
  | [] => []
  | d :: ds => ofDatum d :: ofItems ds

/-- The fields of an object, whose order is that of a map. -/
def ofFields : List (String × Datum) → List (Value × Value)
  | [] => []
  | (k, d) :: fs => (plain k, ofDatum d) :: ofFields fs
end

/-- A key of an object as text; only simple values have one. -/
def keyText? : Value → Option String
  | .text s _ => some s
  | .int n => some (toString n)
  | .bool b => some (if b then "true" else "false")
  | _ => Option.none

mutual
/-- The datum of a value; none if a number has too many digits. -/
def datum? : Value → Option Datum
  | .undefined | .none => some .null
  | .bool b => some (.bool b)
  | .int n => if isWord n then some (.int n) else Option.none
  | .float x => some (if x.isNaN || x.isInf then .null else .float x)
  | .text s _ => some (.text s)
  | .list items => (itemData? items).map .list
  | .map entries => (entryData? entries).map fun es => .object (Table.ofEntries es)
  | v => some (.text v.display)
termination_by structural v => v

def itemData? : List Value → Option (List Datum)
  | [] => some []
  | v :: vs =>
    match v.datum?, itemData? vs with
    | some d, some ds => some (d :: ds)
    | _, _ => Option.none
termination_by structural vs => vs

def entryData? : List (Value × Value) → Option (List (String × Datum))
  | [] => some []
  | (k, v) :: es =>
    match k.keyText?, v.datum?, entryData? es with
    | some s, some d, some ds => some ((s, d) :: ds)
    | _, _, _ => Option.none
termination_by structural es => es
end

/-! ## Parts -/

/-- What a loop goes through: items, keys of a map, or the characters of a text. -/
def items? : Value → Option (List Value)
  | .undefined | .none => some []
  | .list items => some items
  | .map entries => some (entries.map (·.1))
  | .text s _ => some (s.toList.map fun c => plain (String.singleton c))
  | _ => Option.none

def length? : Value → Option Nat
  | .text s _ => some s.length
  | .list items => some items.length
  | .map entries => some entries.length
  | _ => Option.none

/-- A place counted from the front, or from the end if it is negative. -/
def place? (length : Nat) (n : Int) : Option Nat :=
  let n := if n < 0 then n + length else n
  if 0 ≤ n && n < length then some n.toNat else Option.none

/-- The parts of a loop that are asked for by name. -/
def loopPart? (index count : Nat) (previous following : Option Value) : String → Option Value
  | "index0" => some (.int index)
  | "index" => some (.int (index + 1))
  | "length" => some (.int count)
  | "revindex" => some (.int (count - index : Nat))
  | "revindex0" => some (.int (count - index - 1 : Nat))
  | "first" => some (.bool (index == 0))
  | "last" => some (.bool (index + 1 == count))
  | "depth" => some (.int 1)
  | "depth0" => some (.int 0)
  | "previtem" => some (previous.getD .undefined)
  | "nextitem" => some (following.getD .undefined)
  | _ => Option.none

/-- The part of a value at a key: an item, an entry or a character. -/
def part? (v key : Value) : Option Value :=
  match v with
  | .list items =>
    match key with
    | .int n => (place? items.length n).bind (items[·]?)
    | _ => Option.none
  | .map entries => valueAt? entries key
  | .text s _ =>
    match key with
    | .int n => (place? s.length n).bind fun i => s.toList[i]?.map fun c => plain (String.singleton c)
    | _ => Option.none
  | .loop index count previous following => key.text?.bind (loopPart? index count previous following)
  | .snippet _ signature _ _ =>
    match key with
    | .text "name" _ => some (plain signature.name)
    | .text "arguments" _ => some (.list (signature.parameters.map plain))
    | _ => Option.none
  | _ => Option.none

/-- The part at a key, if any; undefined has no parts, and asking for one is a fault. -/
def part (v key : Value) : Except Cause Value :=
  match v with
  | .undefined => .error .undefinedValue
  | v => .ok ((v.part? key).getD .undefined)

end Value
end Folio.Template
