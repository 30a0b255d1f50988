import Folio.Template.Operation
import Folio.Text.Blank
import Folio.Text.Casing
/-!
# Standard filters, tests and functions

What every template can use without a registry: functions of their arguments alone, and `debug`, which looks at the engine.
The engine comes with a few more.  They are named at each table, and a template that calls one of them is at fault here.
-/
namespace Folio.Template

/-- The arguments of a call: those by position and those by name. -/
structure Arguments where
  values : List Value
  named : List (String × Value)

namespace Arguments

/-- All arguments by position; the named ones are one map at the end. -/
def flat (a : Arguments) : List Value :=
  if a.named.isEmpty then a.values
  else a.values ++ [Value.ofEntries (a.named.map fun e => (Value.plain e.1, e.2))]

/-- The argument at a place or with a name. -/
def get? (a : Arguments) (index : Nat) (name : String) : Option Value :=
  (a.values[index]?).or ((a.named.find? (·.1 == name)).map (·.2))

/-- No more arguments by position than can be used. -/
def atMost {α : Type} (a : Arguments) (n : Nat) (x : Except Cause α) : Except Cause α :=
  if a.values.length > n then .error .tooManyArguments else x

end Arguments

/-! ## Filters -/

/-- Capital letters after blanks and punctuation, small letters elsewhere. -/
def titleFrom (capital : Bool) : List Char → List Char
  | [] => []
  | c :: cs =>
    if isPunctuation c || Text.isBlank c then c :: titleFrom true cs
    else (if capital then Text.upperChar c else Text.lowerChar c) ++ titleFrom false cs
where
  isPunctuation (c : Char) : Bool :=
    let n := c.toNat
    (33 ≤ n && n ≤ 47) || (58 ≤ n && n ≤ 64) || (91 ≤ n && n ≤ 96) || (123 ≤ n && n ≤ 126)

/-- Texts with a separator in front of each but those at the front that are empty. -/
def joinFrom (separator : String) (done : String) : List Value → String
  | [] => done
  | v :: vs => joinFrom separator ((if done == "" then done else done ++ separator) ++ v.display) vs

/-- The order of sorting, in which the case of the letters A to Z does not count unless it is asked for. -/
def sortOrder (caseSensitive : Bool) (v w : Value) : Ordering :=
  match v, w with
  | .text s _, .text t _ => if caseSensitive then Ord.compare s t else Ord.compare (Text.lowerAscii s) (Text.lowerAscii t)
  | v, w => v.compare w

/-- A part of a part, by a path with dots. -/
def deepPart (v : Value) : List String → Value
  | [] => v
  | name :: names => deepPart ((v.part? (.plain name)).getD .undefined) names

def sortValues (v : Value) (a : Arguments) : Except Cause Value :=
  let caseSensitive := ((a.named.find? (·.1 == "case_sensitive")).map fun e => e.2.isTrue).getD false
  let reversed := ((a.named.find? (·.1 == "reverse")).map fun e => e.2.isTrue).getD false
  let key (v : Value) : Value := match (a.named.find? (·.1 == "attribute")).bind (·.2.text?) with
    | some path => deepPart v (path.splitOn ".")
    | none => v
  match v.items? with
  | some items =>
    let before (v w : Value) : Bool :=
      let order := sortOrder caseSensitive (key v) (key w)
      if reversed then order != .lt else order != .gt
    .ok (.list (items.mergeSort before))
  | none => .error (.notConvertible v.kind.describe "list")

def replaceText (v : Value) (a : Arguments) : Except Cause Value :=
  match a.values with
  | [needle, new] =>
    .ok (.plain (String.ofList (Text.replace needle.display.toList new.display.toList v.display.toList)))
  | [] | [_] => .error .missingArgument
  | _ => .error .tooManyArguments

/-- The first character in capitals and the others in small letters. -/
def capitalize (s : String) : String :=
  match s.toList with
  | [] => ""
  | c :: cs => String.ofList (Text.upperChar c) ++ Text.lower (String.ofList cs)

/-- The best item, where an item may be better than the best one of those in front of it. -/
def bestItem (better : Value → Value → Bool) : List Value → Value
  | [] => .undefined
  | v :: vs => vs.foldl (fun best w => if better w best then w else best) v

abbrev PureFilter := Value → Arguments → Except Cause Value

/-- A filter of the text of its value. -/
def onText (f : String → String) : PureFilter := fun v a => a.atMost 0 (.ok (.plain (f v.display)))

/-- A filter of the items of its value. -/
def onItems (f : List Value → Value) : PureFilter := fun v a => a.atMost 0 (match v.items? with
  | some items => .ok (f items)
  | none => .error (.notConvertible v.kind.describe "list"))

/-- Filters by name.  Left out are `abs`, `batch`, `chain`, `dictsort`, `float`, `format`, `groupby`, `indent`, `int`,
`lines`, `map`, `pprint`, `reject`, `rejectattr`, `round`, `select`, `selectattr`, `slice`, `split`, `sum`, `tojson`,
`unique`, `urlencode` and `zip`. -/
def standardFilter? (name : String) : Option PureFilter :=
  match name with
  | "upper" => some (onText Text.upper)
  | "lower" => some (onText Text.lower)
  | "capitalize" => some (onText capitalize)
  | "title" => some (onText fun s => String.ofList (titleFrom true s.toList))
  | "trim" => some (onText fun s => String.ofList (Text.trim s.toList))
  | "safe" => some fun v a => a.atMost 0 (.ok (.safe v.display))
  | "escape" | "e" => some fun v a => a.atMost 0 (.ok (escape v))
  | "string" => some fun v a => a.atMost 0 (.ok (match v with
      | .text s safe => .text s safe
      | v => .plain v.display))
  | "join" => some fun v a => a.atMost 1 (join v a)
  | "length" | "count" => some fun v a => a.atMost 0 (match v.length? with
      | some n => .ok (.int n)
      | none => .error (.noLength v.kind.describe))
  | "default" | "d" => some fun v a => a.atMost 2 (.ok (
      let other := (a.values[0]?).getD (.plain "")
      let lax := ((a.get? 1 "boolean").map Value.isTrue).getD false
      match v with
      | .undefined => other
      | v => if lax && !v.isTrue then other else v))
  | "first" => some fun v a => a.atMost 0 (match v.items? with
      | some items => .ok (items.head?.getD .undefined)
      | none => .error .noFirst)
  | "last" => some fun v a => a.atMost 0 (match v with
      | .map _ => .error .noLast
      | v => match v.items? with
        | some items => .ok (items.getLast?.getD .undefined)
        | none => .error .noLast)
  | "list" => some (onItems .list)
  | "min" => some (onItems (bestItem fun w best => w.compare best == .lt))
  | "max" => some (onItems (bestItem fun w best => w.compare best != .lt))
  | "bool" => some fun v a => a.atMost 0 (.ok (.bool v.isTrue))
  | "attr" => some fun v a => a.atMost 1 (match a.values with
      | [] => .error .missingArgument
      | key :: _ => v.part key)
  | "reverse" => some fun v a => a.atMost 0 (match v with
      | .text s _ => .ok (.plain (String.ofList s.toList.reverse))
      | v => match v.items? with
        | some items => .ok (.list items.reverse)
        | none => .error (.notIterable v.kind.describe))
  | "sort" => some sortValues
  | "items" => some fun v a => a.atMost 0 (match v with
      | .map entries => .ok (.list (entries.map fun e => .list [e.1, e.2]))
      | _ => .error .noPairs)
  | "replace" => some replaceText
  | _ => none
where
  escape (v : Value) : Value :=
    match v with
    | .text s true => .safe s
    | v => .safe v.escaped
  join (v : Value) (a : Arguments) : Except Cause Value :=
    match v.items? with
    | some items => .ok (.plain (joinFrom ((a.values.head?.map Value.display).getD "") "" items))
    | none => .error (.noJoin v.kind.describe)

/-! ## Tests -/

abbrev PureTest := Value → List Value → Except Cause Bool

def wholeTest (p : Int → Bool) : PureTest := fun v _ => .ok ((v.whole?.map p).getD false)

def pairTest (p : Value → Value → Bool) : PureTest := fun v args =>
  match args with
  | [w] => .ok (p v w)
  | [] => .error .missingArgument
  | _ => .error .tooManyArguments

/-- Tests by name.  Left out are `divisibleby`, `filter`, `lower`, `sameas`, `test`, `upper` and the names that are
operators. -/
def standardTest? (name : String) : Option PureTest :=
  match name with
  | "defined" => some fun v _ => .ok (v.kind != .undefined)
  | "undefined" => some fun v _ => .ok (v.kind == .undefined)
  | "none" => some fun v _ => .ok (v.kind == .none)
  | "boolean" => some fun v _ => .ok (v.kind == .bool)
  | "number" => some fun v _ => .ok (v.kind == .number)
  | "integer" | "int" => some fun v _ => .ok (match v with
      | .int _ => true
      | _ => false)
  | "float" => some fun v _ => .ok (match v with
      | .float _ => true
      | _ => false)
  | "string" => some fun v _ => .ok (v.kind == .text)
  | "sequence" => some fun v _ => .ok (v.kind == .list)
  | "mapping" => some fun v _ => .ok (v.kind == .map)
  | "iterable" => some fun v _ => .ok v.items?.isSome
  | "true" => some fun v _ => .ok (match v with
      | .bool b => b
      | _ => false)
  | "false" => some fun v _ => .ok (match v with
      | .bool b => !b
      | _ => false)
  | "safe" | "escaped" => some fun v _ => .ok (match v with
      | .text _ safe => safe
      | _ => false)
  | "odd" => some (wholeTest fun n => n % 2 != 0)
  | "even" => some (wholeTest fun n => n % 2 == 0)
  | "eq" | "equalto" => some (pairTest fun v w => v.equals w)
  | "ne" => some (pairTest fun v w => !v.equals w)
  | "lt" | "lessthan" => some (pairTest fun v w => v.compare w == .lt)
  | "le" => some (pairTest fun v w => v.compare w != .gt)
  | "gt" | "greaterthan" => some (pairTest fun v w => v.compare w == .gt)
  | "ge" => some (pairTest fun v w => v.compare w != .lt)
  | "startingwith" => some (pairTest fun v w => w.display.toList.isPrefixOf v.display.toList)
  | "endingwith" => some (pairTest fun v w => w.display.toList.isSuffixOf v.display.toList)
  | "in" => some fun v args =>
      match args with
      | [w] => match v.within w with
        | .ok r => .ok r.isTrue
        | .error cause => .error cause
      | [] => .error .missingArgument
      | _ => .error .tooManyArguments
  | _ => none

/-! ## Functions -/

def longestRange : Nat := 100000

/-- A bound of a range. -/
def rangeBound (v : Value) : Except Cause Nat :=
  match v.whole? with
  | some n => if 0 ≤ n && n < Int.pow 2 32 then .ok n.toNat else .error (.notConvertible v.kind.describe "u32")
  | none => .error (.notConvertible v.kind.describe "u32")

/-- The whole numbers from one bound up to another one, which is left out. -/
def rangeList (start stop step : Nat) : Except Cause Value :=
  if step = 0 then .error .stillRange
  else
    let count := (stop - start + step - 1) / step
    if count > longestRange then .error .longRange
    else .ok (.list ((List.range count).map fun i => .int (start + i * step : Nat)))

def range (args : List Value) : Except Cause Value := do
  match args with
  | [] => .error .missingArgument
  | [stop] => rangeList 0 (← rangeBound stop) 1
  | [start, stop] => rangeList (← rangeBound start) (← rangeBound stop) 1
  | [start, stop, step] => rangeList (← rangeBound start) (← rangeBound stop) (← rangeBound step)
  | _ => .error .tooManyArguments

/-- A map: the entries of one that is given, and behind them the named arguments. -/
def dict (a : Arguments) : Except Cause Value :=
  let named := a.named.map fun e => (Value.plain e.1, e.2)
  a.atMost 1 (match a.values.head?.getD .undefined with
    | .undefined | .none => .ok (.ofEntries named)
    | .map entries => .ok (.ofEntries (entries ++ named))
    | _ => .error .notAMap)

/-- What `debug` says: the values that it is given, and without any the templates that are loaded.  What else the engine
tells of itself there is left out: the name and the block of the template, its variables, and the names in the registries. -/
def debugText (loaded : List String) : List Value → String
  | [] => "templates: " ++ (Value.list (loaded.map Value.plain)).shown
  | [v] => v.shown
  | vs => (Value.list vs).shown

inductive StandardFunction where
  /-- A function of its arguments alone. -/
  | pure (f : Arguments → Except Cause Value)
  /-- What describes the state of the engine. -/
  | debug

/-- Functions by name.  Left out is `namespace`, whose values can be changed by whoever holds them. -/
def standardFunction? : String → Option StandardFunction
  | "range" => some (.pure fun a => range a.flat)
  | "dict" => some (.pure dict)
  | "debug" => some .debug
  | _ => none

end Folio.Template
