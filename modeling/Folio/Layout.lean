/-!
# Wrapping a body in a layout

A page that names a layout is rendered as a child template: it extends the layout and puts the body, as it stands, into the
layout's content block.  The name is written as a quoted literal, whose first quote that is not
escaped ends it, so that the name reads back whatever it holds (`read_escape`).
-/
namespace Folio.Layout

/-- The block that layouts expose for the body. -/
def contentBlock : String := "content"

/-- A name inside double quotes: a backslash and a quote are written behind a backslash. -/
def escape : List Char → List Char
  | [] => []
  | c :: cs => if c = '\\' ∨ c = '"' then '\\' :: c :: escape cs else c :: escape cs

/-- Reads a double-quoted literal from after its opening quote: the name, and what follows the closing quote. -/
def read : List Char → Option (List Char × List Char)
  | [] => none
  | '"' :: rest => some ([], rest)
  | '\\' :: c :: rest => (read rest).map fun (name, after) => (c :: name, after)
  | c :: rest => (read rest).map fun (name, after) => (c :: name, after)

theorem read_escape (name rest : List Char) : read (escape name ++ '"' :: rest) = some (name, rest) := by
  induction name with
  | nil => rfl
  | cons c cs ih =>
    unfold escape
    split
    · simp [read, ih]
    · rename_i h
      have hq : c ≠ '"' := fun e => h (Or.inr e)
      have hb : c ≠ '\\' := fun e => h (Or.inl e)
      rw [List.cons_append, read]
      · simp [ih]
      · intro e; exact absurd e hq
      · intro d r e; exact fun hh => absurd e hb

def opening : List Char := "\x7b% extends \"".toList

def middle : List Char := (" %\x7d\x7b% block " ++ contentBlock ++ " %\x7d").toList

def closing : List Char := "\x7b% endblock %\x7d".toList

/-- The child template of a body and a layout's name. -/
def wrapChars (body name : List Char) : List Char := opening ++ escape name ++ '"' :: (middle ++ body ++ closing)

def wrap (body name : String) : String := String.ofList (wrapChars body.toList name.toList)

end Folio.Layout
