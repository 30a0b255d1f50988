/-!
# The shape of a Markdown text

A text is a list of blocks.  What runs along in a block, a paragraph's text for one, is first read as characters and
then as inlines, so a block has a parameter for it.
-/
namespace Folio.Markdown

inductive Inline where
  | text (cs : List Char)
  | code (cs : List Char)
  | html (cs : List Char)
  | softBreak
  | hardBreak
  | emphasis (body : List Inline)
  | strong (body : List Inline)
  | deleted (body : List Inline)
  | link (address title : List Char) (body : List Inline)
  | image (address title : List Char) (body : List Inline)
  /-- A place that refers to the note with a label: the note's number, and how many times it has been referred to. -/
  | noteRef (label : List Char) (number uses : Nat)

namespace Inline

/-- Puts an inline in front; neighbouring texts become one. -/
def cons : Inline → List Inline → List Inline
  | text [], is => is
  | text cs, text ds :: is => text (cs ++ ds) :: is
  | i, is => i :: is

/-- The inlines of a list that has the newest first. -/
def arrange (newest : List Inline) : List Inline := newest.foldl (fun is i => cons i is) []

end Inline

inductive Alignment where
  | none
  | left
  | center
  | right
deriving DecidableEq, Repr

inductive Block (α : Type) where
  | paragraph (body : α)
  | heading (level : Nat) (body : α)
  | code (info literal : List Char)
  | html (literal : List Char)
  | rule
  | table (columns : List Alignment) (head : List α) (rows : List (List α))
  | quote (body : List (Block α))
  /-- The items of a tight list have no paragraphs around their text; a numbered list has a first number. -/
  | list (start : Option Nat) (tight : Bool) (items : List (List (Block α)))
  /-- The box of a task, which stands at the front of an item. -/
  | task (isDone : Bool)
  | note (label : List Char) (body : List (Block α))

end Folio.Markdown
