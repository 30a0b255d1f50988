import Folio.FileTree
import Folio.Template.Reading
/-!
# Template libraries

A library is a list of directories.  A template name is looked up in each of them in turn, and the first one that has a
file of that name wins; a name that is absolute or climbs out of a directory is never found.  A lookup puts two questions to
a file system (`Disk`).
-/
namespace Folio

/-- What a library asks of a file system: whether a path leads to a regular file, and the text that is read there.  A file
may be there and not be readable. -/
structure Disk where
  isFile : Path → Bool
  readText : Path → Except Denial String

def FileTree.disk (t : FileTree) : Disk := ⟨t.isFile, t.readText⟩

namespace Template

/-- One part of a name onto the names before it; none when it climbs out or starts anew. -/
def climb (names : List Bytes) : Path.Part → Option (List Bytes)
  | .root => none
  | .here => some names
  | .up => if names.isEmpty then none else some names.dropLast
  | .name n => some (names ++ [n])

/-- The names that a template name leads through once `.` and `..` are folded away. -/
def relativeNames? (name : String) : Option (List Bytes) := (Path.ofText name).parts.foldlM climb []

def relativePath (names : List Bytes) : Path := Path.ofParts (names.map .name)

end Template

namespace Disk

open Template

variable (disk : Disk) (directories : List Path) (name : String)

/-- The file of a template. -/
def file? : Option Path :=
  match relativeNames? name with
  | none | some [] => none
  | some names => (directories.map (·.join (relativePath names))).find? disk.isFile

/-- Whether one of the directories has a template. -/
def has : Bool := (disk.file? directories name).isSome

/-- The source of a template; none if no directory has it. -/
def source? : Except Cause (Option String) :=
  match disk.file? directories name with
  | none => .ok none
  | some p =>
    match disk.readText p with
    | .ok text => .ok (some text)
    | .error _ => .error (.unreadableTemplate p.text)

end Disk

namespace Template

def file? (t : FileTree) : List Path → String → Option Path := t.disk.file?

def has (t : FileTree) : List Path → String → Bool := t.disk.has

def source? (t : FileTree) : List Path → String → Except Cause (Option String) := t.disk.source?

end Template
end Folio
