import Folio.Text.Blank
import Folio.Text.Place
import Folio.Text.Utf8
import Folio.Yaml.Reading
/-!
# Front matter

A content file may start with a metadata block: an opening fence line, lines of YAML, and a line that closes that fence.
The text is read line by line (`flatten_lines`) with the place of each line counted in octets, and the YAML and the body
are cut out of it at such places.  Splitting never fails: without a complete block the text is all body, and a block that
does not hold a mapping has no attributes.
-/
namespace Folio.FrontMatter

/-- The lines of a text, each with the newline that ends it; only the last one may be without. -/
def lines : List Char → List (List Char)
  | [] => []
  | '\n' :: cs => ['\n'] :: lines cs
  | c :: cs =>
    match lines cs with
    | [] => [[c]]
    | l :: ls => (c :: l) :: ls

/-- How a block was opened, which decides how it is closed. -/
inductive Fence where
  | dashes
  | marker
deriving DecidableEq, Repr

namespace Fence

def dashLine : List Char := ['-', '-', '-']

def dashYamlLine : List Char := ['-', '-', '-', 'y', 'a', 'm', 'l']

def markerLine : List Char := ['=', ' ', 'y', 'a', 'm', 'l', ' ', '=']

def dotsLine : List Char := ['.', '.', '.']

/-- The fence that a line opens.  Blanks at its end do not count. -/
def opened? (line : List Char) : Option Fence :=
  let l := Text.trimEnd line
  if l = dashLine ∨ l = dashYamlLine then some dashes
  else if l = markerLine then some marker
  else none

/-- The line that closes a fence besides three dots. -/
def closer : Fence → List Char
  | dashes => dashLine
  | marker => markerLine

def closes (f : Fence) (line : List Char) : Bool :=
  let l := Text.trimEnd line
  l = dotsLine || l = f.closer

end Fence

/-- A metadata block: its YAML, the place of the body after it, and the line on which the body starts. -/
structure Block where
  yaml : List Char
  bodyStart : Nat
  bodyLine : Nat

/-- Goes through lines to the first one that closes a fence.  `place` is that of the next line, and `number` is the number
of the line before it. -/
def locateFrom (f : Fence) (raw : List Char) (yamlStart place number : Nat) : List (List Char) → Option Block
  | [] => none
  | l :: ls =>
    if f.closes l then
      (Text.slice? yamlStart place raw).map fun yaml => ⟨yaml, place + Text.size l, number + 2⟩
    else locateFrom f raw yamlStart (place + Text.size l) (number + 1) ls

def bom : Char := '\ufeff'

/-- The place behind a byte order mark if there is one. -/
def textStart (raw : List Char) : Nat := if raw.head? = some bom then Text.size [bom] else 0

/-- The block at the start of a text; its opening line has to be a complete line. -/
def locate (raw : List Char) : Option Block :=
  (Text.from? (textStart raw) raw).bind fun text =>
    match lines text with
    | [] => none
    | first :: rest =>
      if first.getLast? = some '\n' then
        (Fence.opened? first).bind fun f =>
          let yamlStart := textStart raw + Text.size first
          locateFrom f raw yamlStart yamlStart 1 rest
      else none

/-- A content file taken apart. -/
structure Split where
  attributes : Fields
  body : String
  block : Option String
  bodyLine : Nat

namespace Split

def attribute? (s : Split) (name : String) : Option Datum := Table.get? s.attributes name

def hasBlock (s : Split) : Bool := s.block.isSome

end Split

/-- The attributes that a block declares; anything but a mapping declares none. -/
def attributes (yaml : List Char) : Fields :=
  if Text.trim yaml = [] then []
  else match Yaml.datum (String.ofList yaml) with
    | .ok (.object fields) => fields
    | _ => []

def split (raw : List Char) : Split :=
  match locate raw with
  | some b =>
    let body := (Text.from? b.bodyStart raw).getD []
    ⟨attributes b.yaml, String.ofList body, some (String.ofList b.yaml), b.bodyLine⟩
  | none => ⟨[], String.ofList raw, none, 1⟩

def hasFrontMatter (raw : List Char) : Bool := (locate raw).isSome

/-- Octets are read as text first, whatever they are. -/
def splitOctets (octets : Bytes) : Split := split (Text.decode octets)

/-! ## Nothing is lost -/

theorem flatten_lines (cs : List Char) : (lines cs).flatten = cs := by
  fun_induction lines cs with
  | case1 => rfl
  | case2 cs ih => simp [ih]
  | case3 c cs hne hl ih =>
    rw [hl] at ih
    simp [← ih]
  | case4 c cs hne l ls hl ih =>
    rw [hl] at ih
    simp [← ih]

end Folio.FrontMatter
