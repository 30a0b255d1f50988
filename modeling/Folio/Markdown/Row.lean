import Folio.Markdown.Character
import Folio.Markdown.Syntax
/-!
# Rows of tables

A row is a line of cells with bars between them; bars at its ends may be left out, and a bar after a backslash belongs
to a cell.
-/
namespace Folio.Markdown

/-- The stretches between bars, without the backslashes before the bars that do not count. -/
def splitCells : List Char → List (List Char)
  | [] => [[]]
  | '\\' :: '|' :: cs =>
    match splitCells cs with
    | s :: ss => ('|' :: s) :: ss
    | [] => [['|']]
  | c :: cs =>
    if c == '|' then [] :: splitCells cs
    else match splitCells cs with
      | s :: ss => (c :: s) :: ss
      | [] => [[c]]

/-- The cells of a line that starts with no space; none if it has no cell. -/
def cells? (cs : List Char) : Option (List (List Char)) :=
  let parts := splitCells (if cs.head? == some '|' then cs.tail else cs)
  let parts := if (parts.getLast?.map fun p => (dropBlank p).isEmpty).getD true then parts.dropLast else parts
  if parts.isEmpty then none else some (parts.map strip)

/-- The alignment that a cell of the row below the head asks for: hyphens, with a colon on the side to align to. -/
def alignment? (cell : List Char) : Option Alignment :=
  let left := cell.head? == some ':'
  let inner := if left then cell.tail else cell
  let right := inner.getLast? == some ':'
  let hyphens := if right then inner.dropLast else inner
  if !hyphens.isEmpty && hyphens.all (· == '-') then
    some (if left then (if right then .center else .left) else if right then .right else .none)
  else none

/-- The alignments that the row below the head asks for. -/
def alignments? (cs : List Char) : Option (List Alignment) := (cells? cs).bind (·.mapM alignment?)

/-- A row with as many cells as there are columns. -/
def fitRow (columns : Nat) (cells : List (List Char)) : List (List Char) :=
  cells.take columns ++ List.replicate (columns - cells.length) []

end Folio.Markdown
