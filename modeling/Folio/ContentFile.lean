import Folio.Calendar.Moment
import Folio.Failure
import Folio.FrontMatter
import Folio.Text.Casing
/-!
# Content files

A content file has a path, contents, times and a size, and perhaps metadata.  What makes it HTML is its extension alone
(`isHtml`): the configured extensions are kept in a normal form, without leading dots and in small letters, so neither
dots nor case of what was configured matter.
-/
namespace Folio

/-! ## HTML detection -/

/-- Without leading dots, in small letters, and without those of which nothing is left. -/
def normalExtensions (extensions : List String) : List String :=
  (extensions.map fun e => Text.lowerAscii (String.ofList (e.toList.dropWhile (· == '.')))).filter (· != "")

/-- The extension in small letters, if it is text. -/
def Path.lowerExtension? (p : Path) : Option String :=
  (p.extension?.bind Text.decode?).map fun cs => Text.lowerAscii (String.ofList cs)

/-- Whether the extension is one of the given ones, which are in normal form. -/
def isHtml (p : Path) (extensions : List String) : Bool :=
  match p.lowerExtension? with
  | some e => extensions.contains e
  | none => false

/-! ## Files -/

inductive Contents where
  | absent
  | buffer (octets : Bytes)
  /-- What can be read once and has no size; it is never rendered. -/
  | stream
deriving DecidableEq, Repr

namespace Contents

def isEmpty : Contents → Bool
  | .absent => true
  | .buffer octets => octets.isEmpty
  | .stream => false

def isStream : Contents → Bool
  | .stream => true
  | _ => false

def octets? : Contents → Option Bytes
  | .buffer octets => some octets
  | _ => none

def shown : Contents → String
  | .absent => "Null"
  | .buffer octets => "Buffer(" ++ toString octets.length ++ " bytes)"
  | .stream => "Stream"

end Contents

/-- Times of a file, all universal, and its size. -/
structure FileStat where
  birth : Calendar.Moment
  modified : Calendar.Moment
  accessed : Calendar.Moment
  changed : Calendar.Moment
  size : Nat

/-- All times are one time. -/
def FileStat.at (m : Calendar.Moment) : FileStat := ⟨m, m, m, m, 0⟩

structure ContentFile where
  path : Path
  contents : Contents
  /-- Only a file with metadata is rendered. -/
  meta? : Option Fields
  stat : FileStat

namespace ContentFile

/-- A file of a tree: the front matter is its metadata and the body its contents.  Its times are those of the tree. -/
def read (t : FileTree) (times : Calendar.Moment) (p : Path) : Except Failure ContentFile :=
  match t.read p with
  | .error denial => .error (.denied p denial)
  | .ok octets =>
    let s := FrontMatter.splitOctets octets
    .ok ⟨p, .buffer (Bytes.ofText s.body), some s.attributes, { FileStat.at times with size := octets.length }⟩

/-- The contents as text, with octets that are not UTF-8 replaced. -/
def text? (f : ContentFile) : Option String := f.contents.octets?.map Bytes.toText

end ContentFile
end Folio
