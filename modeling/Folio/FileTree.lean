import Folio.Path
/-!
# File trees

A file tree is a finite set of files and directories under one root, with a working directory in it.  Its operations
give the answers of a Unix file system: a path is walked name by name, every name but the last has to be a directory,
and each way to fail has a cause of its own (`Denial`).
-/
namespace Folio

/-- Why a file operation was refused. -/
inductive Denial where
  | notFound
  | alreadyThere
  | notADirectory
  | isADirectory
  | nameTooLong
  | nulInPath
  | notText
deriving DecidableEq, Repr

def Denial.message : Denial → String
  | .notFound => "No such file or directory (os error 2)"
  | .alreadyThere => "File exists (os error 17)"
  | .notADirectory => "Not a directory (os error 20)"
  | .isADirectory => "Is a directory (os error 21)"
  | .nameTooLong => "File name too long (os error 36)"
  | .nulInPath => "file name contained an unexpected NUL byte"
  | .notText => "stream did not contain valid UTF-8"

inductive FileNode where
  | file (contents : Bytes)
  | directory
deriving DecidableEq, Repr

/-- The names that lead to a node from the root. -/
abbrev Place := List Bytes

structure FileTree where
  nodes : List (Place × FileNode)
  home : Place
deriving Repr

namespace FileTree

/-- Only a working directory. -/
def empty (home : Place) : FileTree := ⟨[], home⟩

/-- The root and every directory on the way to the working directory exist. -/
def node? (t : FileTree) (place : Place) : Option FileNode :=
  if place.isPrefixOf t.home then some .directory else (t.nodes.find? (·.1 == place)).map (·.2)

def longestName : Nat := 255

def longestPath : Nat := 4095

/-- Where a walk ends: at a node, or at a name that is missing in a directory. -/
inductive Arrival where
  | present (place : Place) (node : FileNode)
  | missing (place : Place)
deriving Repr

/-- Walks the segments of a path from a directory; `..` goes to the directory above, the root's being itself. -/
def walk (t : FileTree) (place : Place) (node : FileNode) : List Bytes → Except Denial Arrival
  | [] => .ok (.present place node)
  | s :: ss =>
    match node with
    | .file _ => .error .notADirectory
    | .directory =>
      if s = [] ∨ s = [Path.dot] then walk t place node ss
      else if s = [Path.dot, Path.dot] then walk t place.dropLast .directory ss
      else if s.length > longestName then .error .nameTooLong
      else match t.node? (place ++ [s]) with
        | some n => walk t (place ++ [s]) n ss
        | none => if ss.all (· == []) then .ok (.missing (place ++ [s])) else .error .notFound

def arrive (t : FileTree) (p : Path) : Except Denial Arrival :=
  if p.octets.contains 0 then .error .nulInPath
  else if p.octets = [] then .error .notFound
  else if p.octets.length > longestPath then .error .nameTooLong
  else t.walk (if p.isAbsolute then [] else t.home) .directory (p.segments.map (·.octets))

/-- The contents of a file. -/
def read (t : FileTree) (p : Path) : Except Denial Bytes :=
  match t.arrive p with
  | .error e => .error e
  | .ok (.missing _) => .error .notFound
  | .ok (.present _ .directory) => .error .isADirectory
  | .ok (.present _ (.file contents)) => .ok contents

def readText (t : FileTree) (p : Path) : Except Denial String :=
  match t.read p with
  | .error e => .error e
  | .ok contents =>
    match Text.decode? contents with
    | some cs => .ok (String.ofList cs)
    | none => .error .notText

def isFile (t : FileTree) (p : Path) : Bool :=
  match t.arrive p with
  | .ok (.present _ (.file _)) => true
  | _ => false

def isDirectory (t : FileTree) (p : Path) : Bool :=
  match t.arrive p with
  | .ok (.present _ .directory) => true
  | _ => false

/-! ## Changes -/

def put (t : FileTree) (place : Place) (node : FileNode) : FileTree :=
  { t with nodes := (place, node) :: t.nodes.filter (·.1 != place) }

/-- Takes away a node and whatever is below it. -/
def remove (t : FileTree) (place : Place) : FileTree :=
  { t with nodes := t.nodes.filter fun e => !place.isPrefixOf e.1 }

def makeDirectory (t : FileTree) (p : Path) : Except Denial FileTree :=
  match t.arrive p with
  | .error e => .error e
  | .ok (.present _ _) => .error .alreadyThere
  | .ok (.missing place) => .ok (t.put place .directory)

/-- Makes a directory and those it lies in; `depth` bounds how far up they are looked for. -/
def makeDirectories (t : FileTree) (p : Path) : Nat → Except Denial FileTree
  | 0 => .error .notFound
  | depth + 1 =>
    if p.octets = [] then .ok t
    else match t.makeDirectory p with
      | .ok t' => .ok t'
      | .error .notFound =>
        match p.parent? with
        | none => .error .notFound
        | some above =>
          match makeDirectories t above depth with
          | .error e => .error e
          | .ok t' =>
            match t'.makeDirectory p with
            | .ok t'' => .ok t''
            | .error e => if t'.isDirectory p then .ok t' else .error e
      | .error e => if t.isDirectory p then .ok t else .error e

/-- Makes a directory with every directory above it that is missing. -/
def ensureDirectory (t : FileTree) (p : Path) : Except Denial FileTree :=
  t.makeDirectories p (p.octets.length + 2)

/-- Writes a file, a new one if its directory exists. -/
def write (t : FileTree) (p : Path) (contents : Bytes) : Except Denial FileTree :=
  match t.arrive p with
  | .error e => .error e
  | .ok (.present _ .directory) => .error .isADirectory
  | .ok (.present place (.file _)) => .ok (t.put place (.file contents))
  | .ok (.missing place) =>
    if p.octets.getLast? = some Path.separator then .error .isADirectory else .ok (t.put place (.file contents))

/-- The files of a tree. -/
def files (t : FileTree) : List (Place × Bytes) :=
  t.nodes.filterMap fun
    | (place, .file contents) => some (place, contents)
    | _ => none

end FileTree
end Folio
