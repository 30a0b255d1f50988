import Folio.Text.Blank
import Folio.Text.Casing
import Folio.Markdown.Entity
/-!
# Where links lead

A link names its target in parentheses after its text, or by a label that some paragraph of the text defines.
-/
namespace Folio.Markdown

structure Target where
  address : List Char
  title : List Char
deriving DecidableEq, Repr

/-! ## Labels -/

/-- The text up to the bracket that closes a label, and what follows; `left` bounds its length. -/
def labelEnd? : Nat → List Char → Option (List Char × List Char)
  | _, ']' :: cs => some ([], cs)
  | left + 1, '\\' :: c :: cs =>
    if isAsciiSign c then (labelEnd? left cs).map fun (label, rest) => ('\\' :: c :: label, rest)
    else (labelEnd? left (c :: cs)).map fun (label, rest) => ('\\' :: label, rest)
  | left + 1, c :: cs => if c == '[' then none else (labelEnd? left cs).map fun (label, rest) => (c :: label, rest)
  | _, _ => none

/-- A label in brackets and what follows it. -/
def label? : List Char → Option (List Char × List Char)
  | '[' :: cs => (labelEnd? 1000 cs).map fun (label, rest) => (strip label, rest)
  | _ => none

/-- Runs of blank characters as one space. -/
def squeeze : List Char → List Char
  | [] => []
  | c :: cs =>
    if Text.isBlank c then
      match squeeze cs with
      | ' ' :: rest => ' ' :: rest
      | rest => ' ' :: rest
    else c :: squeeze cs

/-- The label as it is shown. -/
def tidyLabel (cs : List Char) : List Char := squeeze (Text.trim cs)

/-- Labels are the same when they are so up to case and blank characters. -/
def labelKey (cs : List Char) : List Char := (tidyLabel cs).flatMap Text.lowerChar

/-! ## Addresses and titles -/

/-- An address up to the `>` that closes it. -/
def bracketed? : List Char → Option (List Char × List Char)
  | '>' :: cs => some ([], cs)
  | '\\' :: c :: cs => if c == '\n' then none else (bracketed? cs).map fun (a, rest) => ('\\' :: c :: a, rest)
  | c :: cs => if c == '<' || c == '\n' then none else (bracketed? cs).map fun (a, rest) => (c :: a, rest)
  | [] => none

/-- An address that ends before a blank or control character, or before a parenthesis that closes more than the
address opened. -/
def bare? (depth : Nat) : List Char → Option (List Char × List Char)
  | '\\' :: c :: cs =>
    if isAsciiSign c then (bare? depth cs).map fun (a, rest) => ('\\' :: c :: a, rest)
    else (bare? depth (c :: cs)).map fun (a, rest) => ('\\' :: a, rest)
  | '(' :: cs =>
    if 32 ≤ depth then none else (bare? (depth + 1) cs).map fun (a, rest) => ('(' :: a, rest)
  | ')' :: cs =>
    match depth with
    | 0 => some ([], ')' :: cs)
    | depth + 1 => (bare? depth cs).map fun (a, rest) => (')' :: a, rest)
  | c :: cs =>
    if c.toNat ≤ 0x20 || c.toNat == 0x7F then (if depth = 0 then some ([], c :: cs) else none)
    else (bare? depth cs).map fun (a, rest) => (c :: a, rest)
  | [] => if depth = 0 then some ([], []) else none

/-- An address as written, and what follows it. -/
def address? : List Char → Option (List Char × List Char)
  | '<' :: cs => bracketed? cs
  | cs => bare? 0 cs

/-- A title up to the character that closes it; one in parentheses holds none. -/
def titleEnd? (closing : Char) : List Char → Option (List Char × List Char)
  | '\\' :: c :: cs =>
    if isAsciiSign c then (titleEnd? closing cs).map fun (t, rest) => ('\\' :: c :: t, rest)
    else (titleEnd? closing (c :: cs)).map fun (t, rest) => ('\\' :: t, rest)
  | c :: cs =>
    if c == closing then some ([], cs)
    else if c == '(' && closing == ')' then none
    else (titleEnd? closing cs).map fun (t, rest) => (c :: t, rest)
  | [] => none

def title? : List Char → Option (List Char × List Char)
  | '"' :: cs => titleEnd? '"' cs
  | '\'' :: cs => titleEnd? '\'' cs
  | '(' :: cs => titleEnd? ')' cs
  | _ => none

/-- The address that text in place of one stands for. -/
def cleanAddress (cs : List Char) : List Char := plain (strip cs)

/-- The target in parentheses that follows a link's text. -/
def inlineTarget? : List Char → Option (Target × List Char)
  | '(' :: cs =>
    (address? (dropBlank cs)).bind fun (address, rest) =>
      let spaced := dropBlank rest
      let (title, rest) :=
        if spaced.length < rest.length then (title? spaced).getD ([], spaced) else ([], rest)
      match dropBlank rest with
      | ')' :: rest => some (⟨cleanAddress address, plain title⟩, rest)
      | _ => none
  | _ => none

/-! ## Definitions -/

/-- The targets that labels stand for; of several with one label, the first counts. -/
abbrev Targets := List (List Char × Target)

def targetOf? (ts : Targets) (label : List Char) : Option Target := ts.lookup (labelKey label)

/-- What follows a line's end, if nothing but spaces and tabs stand before it. -/
def lineEnd? (cs : List Char) : Option (List Char) :=
  match cs.dropWhile fun c => c == ' ' || c == '\t' with
  | [] => some []
  | '\n' :: rest => some rest
  | _ => none

/-- A definition in front of a text, and what follows its line. -/
def definition? (cs : List Char) : Option ((List Char × Target) × List Char) :=
  (label? cs).bind fun (label, rest) =>
    match rest with
    | ':' :: rest =>
      let start := dropBlank rest
      if label.isEmpty || start.isEmpty then none
      else (address? start).bind fun (address, rest) =>
        let entry (title : List Char) : List Char × Target := (labelKey label, ⟨cleanAddress address, plain title⟩)
        let spaced := dropBlank rest
        let titled := if spaced.length < rest.length then title? spaced else none
        match titled.bind fun (title, rest) => (lineEnd? rest).map (title, ·) with
        | some (title, rest) => some (entry title, rest)
        | none => (lineEnd? rest).map fun rest => (entry [], rest)
    | _ => none

/-- Takes the definitions off the front of a paragraph's text; `fuel` bounds how many there are. -/
def definitions : Nat → List Char → Targets × List Char
  | 0, cs => ([], cs)
  | fuel + 1, cs =>
    match definition? cs with
    | some (entry, rest) =>
      let (entries, rest) := definitions fuel rest
      (entry :: entries, rest)
    | none => ([], cs)

end Folio.Markdown
