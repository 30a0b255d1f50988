/-!
# Searching texts

The first place where one text stands in another, and replacing it at every such place.
-/
namespace Folio.Text

/-- The characters before the first place of a text, and those from there on. -/
def cutAt? (needle : List Char) : List Char → Option (List Char × List Char)
  | [] => if needle.isEmpty then some ([], []) else none
  | c :: cs =>
    if needle.isPrefixOf (c :: cs) then some ([], c :: cs)
    else (cutAt? needle cs).map fun (front, rest) => (c :: front, rest)

def isWithin (needle cs : List Char) : Bool := (cutAt? needle cs).isSome

/-- Puts a text before every character and at the end. -/
def interleave (new : List Char) : List Char → List Char
  | [] => new
  | c :: cs => new ++ c :: interleave new cs

/-- Replaces a text that is not empty; `covered` characters at the front belong to a place already replaced. -/
def replaceFrom (needle new : List Char) (covered : Nat) : List Char → List Char
  | [] => []
  | c :: cs =>
    match covered with
    | n + 1 => replaceFrom needle new n cs
    | 0 =>
      if needle.isPrefixOf (c :: cs) then new ++ replaceFrom needle new (needle.length - 1) cs
      else c :: replaceFrom needle new 0 cs

/-- Replaces every place of a text, from left to right. -/
def replace (needle new cs : List Char) : List Char :=
  if needle.isEmpty then interleave new cs else replaceFrom needle new 0 cs

end Folio.Text
