import Folio.Number.Notation
import Folio.Table
import Folio.Text.Unwritable
/-!
# Data

The data of a content file: front matter, settings, variables and everything a template is given.  A number is a whole
number of 64 bits, signed or not, or a float; an object is a table, so its keys are listed in order.
-/
namespace Folio

inductive Datum where
  | null
  | bool (b : Bool)
  | int (n : Int)
  | float (x : Float)
  | text (s : String)
  | list (items : List Datum)
  | object (fields : List (String × Datum))

instance : Inhabited Datum := ⟨.null⟩

/-- The objects of the library: attributes of a file, variables, the context of a render. -/
abbrev Fields := Table Datum

/-- Whole numbers that a datum can hold. -/
def isWord (n : Int) : Bool := -(Int.pow 2 63) ≤ n && n < Int.pow 2 64

namespace Datum

def text? : Datum → Option String
  | .text s => some s
  | _ => none

end Datum

namespace Text

def hexDigits (n : Nat) : String := String.ofList (Nat.toDigits 16 n)

/-- A character inside a quoted text as it is shown to a person. -/
def shownChar (c : Char) : String :=
  match c with
  | '"' => "\\\""
  | '\\' => "\\\\"
  | '\n' => "\\n"
  | '\r' => "\\r"
  | '\t' => "\\t"
  | '\x00' => "\\0"
  | c =>
    if c.toNat < 0x20 || c.toNat == 0x7F || isUnwritable c then "\\u\x7b" ++ hexDigits c.toNat ++ "\x7d"
    else String.singleton c

/-- A text in double quotes, with whatever cannot be read as itself escaped. -/
def shown (s : String) : String := "\"" ++ String.join (s.toList.map shownChar) ++ "\""

/-- A character inside a JSON string. -/
def jsonChar (c : Char) : String :=
  match c with
  | '"' => "\\\""
  | '\\' => "\\\\"
  | '\n' => "\\n"
  | '\r' => "\\r"
  | '\t' => "\\t"
  | '\x08' => "\\b"
  | '\x0c' => "\\f"
  | c =>
    if c.toNat < 0x20 then "\\u00" ++ (if c.toNat < 0x10 then "0" else "") ++ hexDigits c.toNat
    else String.singleton c

def json (s : String) : String := "\"" ++ String.join (s.toList.map jsonChar) ++ "\""

end Text

namespace Datum

mutual
/-- JSON without blanks. -/
def json : Datum → String
  | .null => "null"
  | .bool b => if b then "true" else "false"
  | .int n => toString n
  | .float x => Number.compact x
  | .text s => Text.json s
  | .list items => "[" ++ ",".intercalate (jsonItems items) ++ "]"
  | .object fields => "\x7b" ++ ",".intercalate (jsonFields fields) ++ "\x7d"

def jsonItems : List Datum → List String
  | [] => []
  | d :: ds => d.json :: jsonItems ds

def jsonFields : List (String × Datum) → List String
  | [] => []
  | (k, d) :: ds => (Text.json k ++ ":" ++ d.json) :: jsonFields ds
end

mutual
/-- The datum with its kinds named, as configurations are shown for inspection. -/
def shown : Datum → String
  | .null => "Null"
  | .bool b => if b then "Bool(true)" else "Bool(false)"
  | .int n => "Number(" ++ toString n ++ ")"
  | .float x => "Number(" ++ Number.compact x ++ ")"
  | .text s => "String(" ++ Text.shown s ++ ")"
  | .list items => "Array [" ++ ", ".intercalate (shownItems items) ++ "]"
  | .object fields => "Object \x7b" ++ ", ".intercalate (shownFields fields) ++ "\x7d"

def shownItems : List Datum → List String
  | [] => []
  | d :: ds => d.shown :: shownItems ds

def shownFields : List (String × Datum) → List String
  | [] => []
  | (k, d) :: ds => (Text.shown k ++ ": " ++ d.shown) :: shownFields ds
end

end Datum

/-- A table of data with its kinds named. -/
def Fields.shown (fields : Fields) : String := "\x7b" ++ ", ".intercalate (Datum.shownFields fields) ++ "\x7d"

end Folio
