import Folio.Text.Utf8
/-!
# Lines and columns

Indentation counts in columns, and a tab reaches up to the next column that is a multiple of four.  A part of a tab
that has been passed leaves as many spaces as it still covers, so what is left of a line is always some characters and
the column they start at.
-/
namespace Folio.Markdown

/-- What is left of a line. -/
structure Line where
  rest : List Char
  column : Nat

/-- How many columns a tab covers from a column on. -/
def tabWidth (column : Nat) : Nat := 4 - column % 4

/-- The columns that the spaces and tabs in front cover. -/
def indentAt (column : Nat) : List Char → Nat
  | ' ' :: cs => indentAt (column + 1) cs + 1
  | '\t' :: cs => indentAt (column + tabWidth column) cs + tabWidth column
  | _ => 0

/-- Passes up to `count` columns of spaces and tabs. -/
def passColumns (column : Nat) : Nat → List Char → Line
  | 0, cs => ⟨cs, column⟩
  | n + 1, ' ' :: cs => passColumns (column + 1) n cs
  | n + 1, '\t' :: cs =>
    let width := tabWidth column
    if width ≤ n + 1 then passColumns (column + width) (n + 1 - width) cs
    else ⟨List.replicate (width - (n + 1)) ' ' ++ cs, column + (n + 1)⟩
  | _, cs => ⟨cs, column⟩

def isIndentChar (c : Char) : Bool := c == ' ' || c == '\t'

namespace Line

def start (cs : List Char) : Line := ⟨cs, 0⟩

def indent (l : Line) : Nat := indentAt l.column l.rest

def pass (l : Line) (columns : Nat) : Line := passColumns l.column columns l.rest

/-- The line from its first character that is neither space nor tab. -/
def unindented (l : Line) : Line := l.pass l.indent

/-- What stands after the indentation. -/
def content (l : Line) : List Char := l.rest.dropWhile isIndentChar

def isBlank (l : Line) : Bool := l.content.isEmpty

/-- Passes characters that are neither spaces nor tabs. -/
def skip (l : Line) (count : Nat) : Line := ⟨l.rest.drop count, l.column + count⟩

end Line

/-- Writes every line break as a line feed, and puts U+FFFD for the character that no text may hold. -/
def unifyBreaks : List Char → List Char
  | '\r' :: '\n' :: cs => '\n' :: unifyBreaks cs
  | '\r' :: cs => '\n' :: unifyBreaks cs
  | '\x00' :: cs => Text.replacement :: unifyBreaks cs
  | c :: cs => c :: unifyBreaks cs
  | [] => []

/-- The stretches between line feeds; the last one is empty where the text ends in a line feed. -/
def stretches : List Char → List (List Char)
  | [] => [[]]
  | c :: cs =>
    if c == '\n' then [] :: stretches cs
    else match stretches cs with
      | s :: ss => (c :: s) :: ss
      | [] => [[c]]

end Folio.Markdown
