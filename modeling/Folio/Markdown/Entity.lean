import Folio.Text.Utf8
import Folio.Number.Decimal
import Folio.Markdown.Character
import Folio.Markdown.EntityNames
/-!
# Character references, escapes, and writing text into HTML

A reference is an ampersand, a name or a number, and a semicolon.  In places that are no running text (addresses,
titles, the line that opens a code block) references and backslashes are read by `plain`.  `escape` and
`percentEncode` write text so that HTML reads it back as that text.
-/
namespace Folio.Markdown

/-- The characters that a name stands for. -/
def namedEntity? (name : List Char) : Option (List Char) :=
  let key := String.ofList name ++ "="
  ((entityNames.flatMap (·.splitOn " ")).find? (·.startsWith key)).map fun entry =>
    ((String.ofList (entry.toList.drop (name.length + 1))).splitOn ",").filterMap fun code =>
      (Number.natural? 16 code.toList).map Char.ofNat

/-- The character with a number; U+FFFD where there is none. -/
def numbered (n : Nat) : Char :=
  if n == 0 || (0xD800 ≤ n && n < 0xE000) || 0x110000 ≤ n then Text.replacement else Char.ofNat n

def isHexDigit (c : Char) : Bool := c.isDigit || ('a' ≤ c.toLower && c.toLower ≤ 'f')

/-- A number of at most `most` digits and a semicolon. -/
def numericEntity? (base most : Nat) (isDigit : Char → Bool) (cs : List Char) : Option (List Char × List Char) :=
  let digits := cs.takeWhile isDigit
  match cs.drop digits.length with
  | ';' :: rest =>
    if digits.length ≤ most then (Number.natural? base digits).map fun n => ([numbered n], rest) else none
  | _ => none

/-- What follows an ampersand, if it is a reference: the characters it stands for and the text after it. -/
def entity? : List Char → Option (List Char × List Char)
  | '#' :: 'x' :: cs => numericEntity? 16 6 isHexDigit cs
  | '#' :: 'X' :: cs => numericEntity? 16 6 isHexDigit cs
  | '#' :: cs => numericEntity? 10 7 Char.isDigit cs
  | cs =>
    let name := cs.takeWhile Char.isAlphanum
    match cs.drop name.length with
    | ';' :: rest => if name.length < 2 then none else (namedEntity? name).map fun found => (found, rest)
    | _ => none

/-- Replaces references; `fuel` bounds the characters left. -/
def decodeEntitiesWith : Nat → List Char → List Char
  | fuel + 1, '&' :: cs =>
    match entity? cs with
    | some (found, rest) => found ++ decodeEntitiesWith fuel rest
    | none => '&' :: decodeEntitiesWith fuel cs
  | fuel + 1, c :: cs => c :: decodeEntitiesWith fuel cs
  | _, _ => []

def decodeEntities (cs : List Char) : List Char := decodeEntitiesWith cs.length cs

/-- Drops every backslash that stands before a sign. -/
def unescape : List Char → List Char
  | '\\' :: c :: cs => if isAsciiSign c then c :: unescape cs else '\\' :: unescape (c :: cs)
  | c :: cs => c :: unescape cs
  | [] => []

/-- The text of a place that is no running text. -/
def plain (cs : List Char) : List Char := unescape (decodeEntities cs)

def escapeChar : Char → List Char
  | '&' => "&amp;".toList
  | '<' => "&lt;".toList
  | '>' => "&gt;".toList
  | '"' => "&quot;".toList
  | c => [c]

/-- Text as HTML shows it, also inside a quoted attribute. -/
def escape (cs : List Char) : List Char := cs.flatMap escapeChar

/-- An octet as a percent sign and two capital digits. -/
def percent (b : UInt8) : List Char :=
  let digit (n : Nat) : Char := (Nat.digitChar n).toUpper
  ['%', digit (b.toNat / 16), digit (b.toNat % 16)]

/-- Signs that stand for themselves in an address. -/
def addressSigns : List Char := "-_.+!*(),%#@?=;:/$~".toList

def percentEncodeChar (c : Char) : List Char :=
  if c.isAlphanum || addressSigns.contains c then [c]
  else if c == '&' then "&amp;".toList
  else if c == '\'' then "&#x27;".toList
  else (Text.encode [c]).flatMap percent

/-- An address as an attribute holds it. -/
def percentEncode (cs : List Char) : List Char := cs.flatMap percentEncodeChar

end Folio.Markdown
