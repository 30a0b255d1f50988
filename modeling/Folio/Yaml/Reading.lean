import Folio.Datum
import Folio.Number.Decimal
import Folio.Yaml.Node
/-!
# Data in a YAML document

Reading goes through a document from left to right and stops at the first thing that is wrong: a value of another kind than
the one expected, a fault of the text, too many levels.  A plain scalar is null, a boolean, a whole number, a float or a
text, in this order; the reader of a field decides which of these it takes.
-/
namespace Folio.Yaml

/-! ## What can be wrong -/

/-- What was found where something else was expected. -/
inductive Found where
  | boolean (b : Bool)
  | integer (n : Int)
  | wideInteger (n : Int)
  | float (x : Float)
  | text (s : String)
  | nothing
  | sequence
  | mapping
  | tagged

def Found.describe : Found → String
  | .boolean b => "boolean \x60" ++ toString b ++ "\x60"
  | .integer n => "integer \x60" ++ toString n ++ "\x60"
  | .wideInteger n => "integer \x60" ++ toString n ++ "\x60 as " ++ (if n < 0 then "i128" else "u128")
  | .float x => "floating point \x60" ++ Number.positional x ++ "\x60"
  | .text s => "string " ++ Text.shown s
  | .nothing => "unit value"
  | .sequence => "sequence"
  | .mapping => "map"
  | .tagged => "enum"

/-- A step down into a value. -/
inductive Step where
  | field (name : String)
  | item (index : Nat)
  | unnamed
deriving DecidableEq, Repr

/-- Steps as they are written in front of a message; no steps are a single dot. -/
def stepsText (steps : List Step) : String :=
  steps.foldl (fun (text : String) step =>
    match step with
    | .item n => text ++ "[" ++ toString n ++ "]"
    | .field name => if text = "." then name else text ++ "." ++ name
    | .unnamed => if text = "." then "?" else text ++ ".?") "."

inductive Cause where
  | wrongKind (found : Found) (expected : String)
  | wrongTaggedText (text : String) (expected : String)
  | duplicateField (name : String)

def Cause.describe : Cause → String
  | .wrongKind found expected => "invalid type: " ++ found.describe ++ ", expected " ++ expected
  | .wrongTaggedText text expected => "invalid value: string " ++ Text.shown text ++ ", expected " ++ expected
  | .duplicateField name => "duplicate field \x60" ++ name ++ "\x60"

inductive Complaint where
  | fault (f : Fault)
  | cause (c : Cause) (place : Option (Mark × List Step))
  | tooDeep (mark : Mark)
  | tooManyAliases
  | moreDocuments

def Complaint.message : Complaint → String
  | .fault f => f.message
  | .cause c none => c.describe
  | .cause c (some (mark, steps)) =>
    let text := stepsText steps
    (if text = "." then "" else text ++ ": ") ++ c.describe ++ (if mark.isOrigin then "" else " at " ++ mark.text)
  | .tooDeep mark => "recursion limit exceeded" ++ (if mark.isOrigin then "" else " at " ++ mark.text)
  | .tooManyAliases => "repetition limit exceeded"
  | .moreDocuments => "deserializing from YAML containing more than one document is not supported"

/-! ## Reading -/

/-- The anchored nodes, and how many aliases may be followed in all. -/
structure Surroundings where
  anchored : List (Nat × Node)
  aliasLimit : Nat

/-- Reading counts the aliases it has followed. -/
abbrev Read (α : Type) := Surroundings → Nat → Except Complaint (α × Nat)

instance : Monad Read where
  pure a := fun _ n => .ok (a, n)
  bind x f := fun s n => match x s n with
    | .error e => .error e
    | .ok (a, n) => f a s n

namespace Read

def fail {α : Type} (c : Complaint) : Read α := fun _ _ => .error c

def wrong {α : Type} (found : Found) (expected : String) : Read α := fail (.cause (.wrongKind found expected) none)

/-- A complaint that has no place yet is placed at a value. -/
def placed {α : Type} (mark : Mark) (steps : List Step) (x : Read α) : Read α := fun s n =>
  match x s n with
  | .error (.cause c none) => .error (.cause c (some (mark, steps)))
  | r => r

end Read

open Read

/-- The node itself, an alias being followed; a fault in its place ends the reading. -/
def follow (node : Node) : Read Node := fun s n =>
  match node with
  | .aliased mark anchor =>
    if n + 1 > s.aliasLimit then .error .tooManyAliases
    else match s.anchored.find? (·.1 == anchor) with
      | some (_, .broken f) => .error (.fault f)
      | some (_, target) => .ok (target, n + 1)
      | none => .error (.fault ⟨.unknownAnchor, mark, none⟩)
  | .broken f => .error (.fault f)
  | node => .ok (node, n)

def Node.mark : Node → Mark
  | .scalar mark .. => mark
  | .sequence mark .. => mark
  | .mapping mark .. => mark
  | .aliased mark _ => mark
  | .broken f => f.mark

/-! ## Scalars -/

def boolean? : String → Option Bool
  | "true" | "True" | "TRUE" => some true
  | "false" | "False" | "FALSE" => some false
  | _ => none

def isNull (s : String) : Bool := s == "null" || s == "Null" || s == "NULL" || s == "~"

def unsignedPlus : List Char → List Char
  | '+' :: cs => cs
  | cs => cs

/-- Digits with a needless zero in front are a text. -/
def hasLeadingZero (cs : List Char) : Bool :=
  let cs := match cs with
    | '-' :: cs => cs
    | '+' :: cs => cs
    | cs => cs
  match cs with
  | '0' :: d :: ds => (d :: ds).all Char.isDigit
  | _ => false

/-- Digits after a sign of their own are no number. -/
def based (base : Nat) (cs : List Char) : Option Nat := Number.natural? base cs

def whole? (cs : List Char) : Option Int :=
  let magnitude (cs : List Char) : Option Nat :=
    match cs with
    | '0' :: 'x' :: ds => based 16 ds
    | '0' :: 'o' :: ds => based 8 ds
    | '0' :: 'b' :: ds => based 2 ds
    | _ => none
  match cs with
  | '-' :: ds =>
    match magnitude ds with
    | some n => some (-(n : Int))
    | none => if hasLeadingZero cs then none else (based 10 ds).map fun n => -(n : Int)
  | _ =>
    match magnitude (unsignedPlus cs) with
    | some n => some n
    | none => if hasLeadingZero cs then none else (based 10 (unsignedPlus cs)).map Int.ofNat

def floating? (cs : List Char) : Option Float :=
  let unsigned := unsignedPlus cs
  let doubled := cs.head? == some '+' && (unsigned.head? == some '+' || unsigned.head? == some '-')
  if doubled then none
  else
    let s := String.ofList unsigned
    if s = ".inf" ∨ s = ".Inf" ∨ s = ".INF" then some (1.0 / 0.0)
    else
      let s := String.ofList cs
      if s = "-.inf" ∨ s = "-.Inf" ∨ s = "-.INF" then some (-1.0 / 0.0)
      else if s = ".nan" ∨ s = ".NaN" ∨ s = ".NAN" then some (0.0 / 0.0)
      else (Number.float? unsigned).filter Float.isFinite

/-- What a whole number is taken as, by its size; one beyond 128 bits is none. -/
def integer? (cs : List Char) : Option Found :=
  match whole? cs with
  | none => none
  | some n =>
    if isWord n then some (.integer n)
    else if -(Int.pow 2 127) ≤ n ∧ n < Int.pow 2 128 then some (.wideInteger n)
    else none

/-- What a plain scalar says. -/
def plainFound (s : String) : Found :=
  let cs := s.toList
  if s = "" || isNull s then .nothing
  else match boolean? s with
    | some b => .boolean b
    | none =>
      match integer? cs with
      | some n => n
      | none =>
        match if hasLeadingZero cs then none else floating? cs with
        | some x => .float x
        | none => .text s

def standardTag (name : String) : String := "tag:yaml.org,2002:" ++ name

def isOwnTag : Option String → Bool
  | some t => t.startsWith "!"
  | none => false

/-- What a scalar says, given its tag. -/
def scalarFound (tag : Option String) (text : String) (plain : Bool) : Except Cause Found :=
  match tag with
  | some t =>
    if t = standardTag "bool" then
      match boolean? text with
      | some b => .ok (.boolean b)
      | none => .error (.wrongTaggedText text "a boolean")
    else if t = standardTag "int" then
      match integer? text.toList with
      | some n => .ok n
      | none => .error (.wrongTaggedText text "an integer")
    else if t = standardTag "float" then
      match floating? text.toList with
      | some x => .ok (.float x)
      | none => .error (.wrongTaggedText text "a float")
    else if t = standardTag "null" then
      if isNull text then .ok .nothing else .error (.wrongTaggedText text "null")
    else if isOwnTag tag && plain then .ok (plainFound text)
    else .ok (.text text)
  | none => .ok (if plain then plainFound text else .text text)

/-- The complaint about a node where something else was expected. -/
def unexpected {α : Type} (node : Node) (expected : String) : Read α :=
  match node with
  | .scalar _ tag text plain =>
    match scalarFound tag text plain with
    | .ok found => wrong found expected
    | .error c => fail (.cause c none)
  | .sequence .. => wrong .sequence expected
  | .mapping .. => wrong .mapping expected
  | .aliased .. => wrong .nothing expected
  | .broken f => fail (.fault f)

/-- An empty value, as after a colon with nothing behind it. -/
def isEmptyValue : Node → Bool
  | .scalar _ _ "" true => true
  | _ => false

def readBool (steps : List Step) (node : Node) : Read Bool := do
  let node ← follow node
  placed node.mark steps do
    match node with
    | .scalar _ tag text plain =>
      match (if plain && (tag.isNone || tag == some (standardTag "bool")) || tag == some (standardTag "bool") then boolean? text else none) with
      | some b => pure b
      | none => unexpected node "a boolean"
    | node => unexpected node "a boolean"

/-- A scalar of any kind is taken as its text. -/
def readText (expected : String) (steps : List Step) (node : Node) : Read String := do
  let node ← follow node
  placed node.mark steps do
    match node with
    | .scalar _ _ text _ => pure text
    | node => unexpected node expected

/-- One level down; there is a level for every nested collection. -/
def deepestLevel : Nat := 128

/-- The items of a sequence, each read by `item`; an empty value has none. -/
def readItems {α : Type} (item : List Step → Node → Read α) (steps : List Step) (node : Node) : Read (List α) := do
  let node ← follow node
  placed node.mark steps do
    match node with
    | .sequence _ _ items => go item steps 0 items
    | node => if isEmptyValue node then pure [] else unexpected node "a sequence"
where
  go (item : List Step → Node → Read α) (steps : List Step) (index : Nat) : List Node → Read (List α)
    | [] => pure []
    | n :: ns => do
      let a ← item (steps ++ [.item index]) n
      let as ← go item steps (index + 1) ns
      pure (a :: as)

/-- The step into the value of a key. -/
def stepOf : Node → Step
  | .scalar _ _ text _ => .field text
  | _ => .unnamed

/-- The datum of a found scalar; a wide integer is none. -/
def foundDatum : Found → Option Datum
  | .boolean b => some (.bool b)
  | .integer n => some (.int n)
  | .float x => some (if x.isFinite then .float x else .null)
  | .text s => some (.text s)
  | .nothing => some .null
  | _ => none

def anyDatum : String := "any valid JSON value"

/-- The datum of a scalar. -/
def scalarDatum (steps : List Step) (node : Node) : Read Datum :=
  placed node.mark steps do
    match node with
    | .scalar _ tag text plain =>
      if isOwnTag tag then wrong .tagged anyDatum
      else match scalarFound tag text plain with
        | .error c => fail (.cause c none)
        | .ok found =>
          match foundDatum found with
          | some d => pure d
          | none => wrong found anyDatum
    | node => unexpected node anyDatum

mutual
/-- The datum of a node, down to `level` further levels. -/
def readDatum (level : Nat) (steps : List Step) (node : Node) : Read Datum :=
  match level with
  | 0 => do
    let node ← follow node
    match node with
    | .scalar .. => scalarDatum steps node
    | node => fail (.tooDeep node.mark)
  | level + 1 => do
    let node ← follow node
    match node with
    | .sequence mark tag items =>
      placed mark steps do
        if isOwnTag tag then wrong .tagged anyDatum
        else
          let items ← readDatumItems level steps 0 items
          pure (.list items)
    | .mapping mark tag entries =>
      placed mark steps do
        if isOwnTag tag then wrong .tagged anyDatum
        else
          let fields ← readDatumFields level steps [] entries
          pure (.object fields)
    | node => scalarDatum steps node
termination_by (level, 0)

def readDatumItems (level : Nat) (steps : List Step) (index : Nat) : List Node → Read (List Datum)
  | [] => pure []
  | n :: ns => do
    let d ← readDatum level (steps ++ [.item index]) n
    let ds ← readDatumItems level steps (index + 1) ns
    pure (d :: ds)
termination_by ns => (level, ns.length + 1)

/-- Entries onto a table; the last one of a key stands. -/
def readDatumFields (level : Nat) (steps : List Step) (fields : Fields) : List (Node × Node) → Read Fields
  | [] => pure fields
  | (k, v) :: entries => do
    let key ← readText "a string key" steps k
    let value ← readDatum level (steps ++ [stepOf k]) v
    readDatumFields level steps (Table.insert key value fields) entries
termination_by entries => (level, entries.length + 1)
end

/-- The fields of a mapping; an empty value has none. -/
def readFields (level : Nat) (steps : List Step) (node : Node) : Read Fields := do
  let node ← follow node
  placed node.mark steps do
    match node with
    | .mapping _ _ entries => readDatumFields level steps [] entries
    | node => if isEmptyValue node then pure [] else unexpected node "a map"

mutual
/-- The first fault inside a node that is passed over. -/
def Node.fault? : Node → Option Fault
  | .broken f => some f
  | .sequence _ _ items => itemsFault? items
  | .mapping _ _ entries => entriesFault? entries
  | _ => none

def itemsFault? : List Node → Option Fault
  | [] => none
  | n :: ns => n.fault?.or (itemsFault? ns)

def entriesFault? : List (Node × Node) → Option Fault
  | [] => none
  | (k, v) :: es => (k.fault?.or v.fault?).or (entriesFault? es)
end

def passOver (node : Node) : Read Unit :=
  match node.fault? with
  | some f => fail (.fault f)
  | none => pure ()

/-- A value with named fields.  `nameOf` is the proper name of a key, none for a key that is ignored; a field may be given
once, and `field` reads its value.  An empty value has none of the fields. -/
def readRecord {α : Type} (expected : String) (nameOf : String → Option String)
    (field : String → List Step → Node → α → Read α) (default : α) (steps : List Step) (node : Node) : Read α := do
  let node ← follow node
  placed node.mark steps do
    match node with
    | .mapping _ _ entries => go nameOf field steps [] default entries
    | node => if isEmptyValue node then pure default else unexpected node expected
where
  go (nameOf : String → Option String) (field : String → List Step → Node → α → Read α) (steps : List Step)
      (seen : List String) (a : α) : List (Node × Node) → Read α
    | [] => pure a
    | (k, v) :: entries => do
      let key ← readText "field identifier" steps k
      match nameOf key with
      | none => do
        passOver v
        go nameOf field steps seen a entries
      | some name =>
        if seen.contains name then fail (.cause (.duplicateField name) none)
        else do
          let b ← field name (steps ++ [.field key]) v a
          go nameOf field steps (name :: seen) b entries

mutual
/-- How many events a node stands for. -/
def Node.weight : Node → Nat
  | .sequence _ _ items => 2 + itemsWeight items
  | .mapping _ _ entries => 2 + entriesWeight entries
  | _ => 1

def itemsWeight : List Node → Nat
  | [] => 0
  | n :: ns => n.weight + itemsWeight ns

def entriesWeight : List (Node × Node) → Nat
  | [] => 0
  | (k, v) :: es => k.weight + v.weight + entriesWeight es
end

/-- Reads the one document of a text; `none` stands for a text without a document. -/
def readDocument {α : Type} (read : Option Node → Read α) (text : List Char) : Except Complaint α :=
  let d := Document.ofText text
  let weight := (d.root.map Node.weight).getD 1
  match read d.root ⟨d.anchored, 100 * weight⟩ 0 with
  | .error c => .error c
  | .ok (a, _) =>
    match d.ending with
    | .clean => .ok a
    | .fault f => .error (.fault f)
    | .another => .error .moreDocuments

/-- The datum that a text writes. -/
def datum (text : String) : Except Complaint Datum :=
  readDocument (fun
    | some node => readDatum deepestLevel [] node
    | none => pure .null) text.toList

end Folio.Yaml
