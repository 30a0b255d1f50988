import Std.Time.Format
import Folio.Program
/-!
# The executable

The part of the file system that a command line names is read into a file tree, the program runs on the tree, and the
files that it changed are written back.
-/
namespace Folio.Executable

/-- Adds what a path leads to, and everything below it, to a tree. -/
partial def load (t : FileTree) (path : String) : IO FileTree := do
  let p := Path.ofText path
  try
    let target ← IO.FS.realPath path
    if ← target.isDir then
      let mut t := (t.ensureDirectory p).toOption.getD t
      for entry in ← target.readDir do
        t ← load t (path ++ "/" ++ entry.fileName)
      return t
    else
      let octets ← IO.FS.readBinFile path
      let above := (p.parent?.bind fun q => (t.ensureDirectory q).toOption).getD t
      return (above.write p octets.toList).toOption.getD above
  catch _ => return t

/-- Adds what some paths lead to, as far as it is missing. -/
def loadAll (t : FileTree) (paths : List Path) : IO FileTree :=
  paths.foldlM (fun t p => if t.isFile p || t.isDirectory p then pure t else load t p.text) t

/-- Writes the files of a tree that another one does not have. -/
def store (before after : FileTree) : IO Unit :=
  for (place, octets) in after.files do
    unless before.files.contains (place, octets) do
      let path := "/" ++ "/".intercalate (place.map Bytes.toText)
      IO.FS.createDirAll ("/" ++ "/".intercalate (place.dropLast.map Bytes.toText))
      IO.FS.writeBinFile path ⟨octets.toArray⟩

/-- The paths that a command line names, and those that its settings name. -/
def loadNamed (t : FileTree) (a : Arguments) : IO FileTree := do
  let t ← loadAll t (a.config.toList ++ a.templates ++ a.root.toList ++ a.files)
  match a.settings t with
  | .ok s => loadAll t (s.paths ++ s.root.toList)
  | .error _ => return t

end Folio.Executable

open Folio in
def main (args : List String) : IO UInt32 := do
  let directory := toString (← IO.currentDir)
  let home := Path.ofText directory
  let start ← Executable.load (.empty (home.segments.map (·.octets) |>.filter (!·.isEmpty))) directory
  let octets := args.map Bytes.ofText
  let tree ← match CommandLine.read octets with
    | .ok (.render a) => Executable.loadNamed start a
    | _ => pure start
  let time ← Std.Time.Timestamp.now
  let now : Calendar.Moment := ⟨time.toSecondsSinceUnixEpoch.val, time.val.nano.val.toNat, 0⟩
  let outcome := program octets tree home now
  Executable.store tree outcome.tree
  (← IO.getStdout).write ⟨outcome.output.toArray⟩
  (← IO.getStderr).putStr outcome.messages
  return UInt32.ofNat outcome.code
