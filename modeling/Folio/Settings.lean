import Folio.FileTree
import Folio.Markdown.Options
import Folio.Text.Blank
import Folio.Yaml.Reading
/-!
# Settings

The part of a run's configuration that can be written in a file.  Relative directories of a settings file are meant from
where the file is.  The flag `--fail` turns failing on, and nothing on a command line turns it off.
-/
namespace Folio

structure Settings where
  paths : List Path
  globals : Fields
  failOnError : Bool
  htmlExtensions : List String
  autoescape : Bool
  /-- None for the working directory. -/
  root : Option Path
  markdown : Markdown.Options

/-- Why there are no settings. -/
inductive SettingsProblem where
  | unreadable (path : Path) (denial : Denial)
  | invalid (path : Option Path) (complaint : Yaml.Complaint)

def SettingsProblem.message : SettingsProblem → String
  | .unreadable path denial => "failed to read settings " ++ path.text ++ ": " ++ denial.message
  | .invalid path complaint =>
    let place := match path with
      | some p => " in " ++ p.text
      | none => ""
    "invalid settings" ++ place ++ ": " ++ complaint.message

/-- The extensions of HTML where none are configured. -/
def defaultExtensions : List String := ["html", "htm"]

/-! ## Flags -/

def failFlag : String := "--fail"

def hasFailFlag (args : List String) : Bool := args.contains failFlag

/-- What follows the names of a program and its task. -/
def trailingArgs (argv : List String) : List String := argv.drop 2

namespace Settings

def default : Settings := ⟨[], [], false, defaultExtensions, false, none, .default⟩

def applyArgs (s : Settings) (args : List String) : Settings := { s with failOnError := s.failOnError || hasFailFlag args }

def ofArgs (argv : List String) : Settings := default.applyArgs (trailingArgs argv)

/-! ## Reading -/

open Yaml (Node Read Step)

/-- The field that a key names; two fields have a second spelling. -/
def fieldOf : String → Option String
  | "paths" => some "paths"
  | "variables" => some "variables"
  | "failOnError" | "fail_on_error" => some "failOnError"
  | "htmlExtensions" | "html_extensions" => some "htmlExtensions"
  | "autoescape" => some "autoescape"
  | "root" => some "root"
  | "markdown" => some "markdown"
  | _ => none

def readPath (steps : List Step) (node : Node) : Read Path := do
  let text ← Yaml.readText "path string" steps node
  pure (.ofText text)

/-- A path, or none for null. -/
def readRoot (steps : List Step) (node : Node) : Read (Option Path) := do
  let target ← Yaml.follow node
  if isNothing target then pure none
  else do
    let p ← readPath steps node
    pure (some p)
where
  isNothing : Node → Bool
    | .scalar _ tag text true => (tag.isNone && (text == "" || Yaml.isNull text)) || tag == some (Yaml.standardTag "null")
    | _ => false

def readMarkdown (steps : List Step) (node : Node) : Read Markdown.Options :=
  Yaml.readRecord "struct MarkdownOptions" (fun key => (Markdown.Options.default.set? key true).map fun _ => key)
    (fun name steps node o => do
      let b ← Yaml.readBool steps node
      pure ((o.set? name b).getD o)) .default steps node

def readField (name : String) (steps : List Step) (node : Node) (s : Settings) : Read Settings :=
  match name with
  | "paths" => do
    let paths ← Yaml.readItems readPath steps node
    pure { s with paths := paths }
  | "variables" => do
    let globals ← Yaml.readFields Yaml.deepestLevel steps node
    pure { s with globals := globals }
  | "failOnError" => do
    let b ← Yaml.readBool steps node
    pure { s with failOnError := b }
  | "htmlExtensions" => do
    let extensions ← Yaml.readItems (Yaml.readText "a string") steps node
    pure { s with htmlExtensions := extensions }
  | "autoescape" => do
    let b ← Yaml.readBool steps node
    pure { s with autoescape := b }
  | "root" => do
    let root ← readRoot steps node
    pure { s with root := root }
  | _ => do
    let options ← readMarkdown steps node
    pure { s with markdown := options }

/-- The settings that a text writes; an empty one writes the defaults. -/
def ofYaml (text : String) : Except Yaml.Complaint Settings :=
  if (Text.trim text.toList).isEmpty then .ok default
  else Yaml.readDocument (fun
    | some node => Yaml.readRecord "struct Settings" fieldOf readField default [] node
    | none => pure default) text.toList

/-- The settings of a file, its directories taken from where it is. -/
def ofFile (t : FileTree) (p : Path) : Except SettingsProblem Settings :=
  match t.readText p with
  | .error denial => .error (.unreadable p denial)
  | .ok text =>
    match ofYaml text with
    | .error complaint => .error (.invalid (some p) complaint)
    | .ok s =>
      let base := p.parent?.getD ⟨[]⟩
      .ok { s with paths := s.paths.map (base.join ·), root := s.root.map (base.join ·) }

end Settings
end Folio
