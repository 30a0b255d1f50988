import Folio.CommandLine
import Folio.Pipeline
/-!
# The program

The program reads settings and files, runs, and writes what came of the files: to its output, or below a directory.
Settings and files are all read before anything is written, so a run that cannot read one of them leaves the file tree as
it was.
-/
namespace Folio

/-- What the program leaves behind. -/
structure Outcome where
  code : Nat
  output : Bytes
  messages : String
  tree : FileTree

/-- An end with a message and without output. -/
def Outcome.failure (t : FileTree) (message : String) : Outcome := ⟨1, [], "error: " ++ message ++ "\n", t⟩

/-! ## Reading -/

/-- A problem and the one that caused it, if there is one. -/
def SettingsProblem.chain (p : SettingsProblem) : String :=
  match p with
  | .unreadable _ denial => p.message ++ ": " ++ denial.message
  | .invalid _ _ => p.message

def Failure.chain (f : Failure) : String :=
  match f with
  | .unreadable _ problem => f.message ++ ": " ++ problem.message
  | _ => f.message

namespace Arguments

/-- Adds to settings what the command line says: directories after theirs, variables and root over theirs. -/
def apply (a : Arguments) (s : Settings) : Settings :=
  { s with
    paths := s.paths ++ a.templates
    globals := a.globals.foldl (fun vs e => Table.insert e.1 e.2 vs) s.globals
    root := a.root.or s.root
    failOnError := s.failOnError || a.failOnError }

/-- The settings of a run. -/
def settings (a : Arguments) (t : FileTree) : Except String Settings :=
  match a.config with
  | none => .ok (a.apply .default)
  | some p =>
    match Settings.ofFile t p with
    | .ok s => .ok (a.apply s)
    | .error problem => .error ("loading settings from " ++ p.text ++ ": " ++ problem.chain)

end Arguments

def readFiles (t : FileTree) (times : Calendar.Moment) : List Path → Except String (List ContentFile)
  | [] => .ok []
  | p :: ps =>
    match ContentFile.read t times p with
    | .error f => .error ("reading " ++ p.text ++ ": " ++ f.chain)
    | .ok file => (readFiles t times ps).map (file :: ·)

/-! ## Writing -/

/-- Where a file is written below a directory: as it lies below the root, or as it was given, or by its name. -/
def outputPath (out root p : Path) : Path :=
  let relative := match p.below? root with
    | some rest => rest
    | none => if p.isAbsolute then (p.fileName?.map Path.mk).getD p else p
  out.join relative

/-- Writes one file, with the directories above it. -/
def writeFile (out root : Path) (t : FileTree) (f : ContentFile) : FileTree × Option String :=
  let target := outputPath out root f.path
  let parent := target.parent?
  match parent.map t.ensureDirectory with
  | some (.error denial) => (t, some ("creating " ++ (parent.getD target).text ++ ": " ++ denial.message))
  | made =>
    let t := match made with
      | some (.ok t) => t
      | _ => t
    match t.write target (f.contents.octets?.getD []) with
    | .ok t => (t, none)
    | .error denial => (t, some ("writing " ++ target.text ++ ": " ++ denial.message))

/-- Writes files in order up to the first that cannot be written. -/
def writeFiles (out root : Path) : FileTree → List ContentFile → FileTree × Option String
  | t, [] => (t, none)
  | t, f :: fs =>
    match writeFile out root t f with
    | (t, none) => writeFiles out root t fs
    | (t, some message) => (t, some message)

def Report.line (r : Report) : String :=
  match r.path with
  | some p => p.text ++ ": " ++ r.shown ++ "\n"
  | none => r.shown ++ "\n"

def Summary.line (s : Summary) : String :=
  toString s.rendered ++ " rendered, " ++ toString s.passedThrough ++ " passed through, " ++ toString s.failed
    ++ " failed, " ++ toString s.dropped ++ " dropped, " ++ toString s.reports.length ++ " error(s)\n"

/-! ## Running -/

/-- What a run hands over to be written and said: files, messages and an exit code. -/
structure Delivery where
  files : List ContentFile
  messages : String
  code : Nat

/-- A completed run is summed up if its files go to a directory. -/
def Delivery.ofRun (sumsUp : Bool) : Except Aborted Summary → Delivery
  | .ok s => ⟨s.files, String.join (s.reports.map Report.line) ++ (if sumsUp then s.line else ""), 0⟩
  | .error a =>
    ⟨a.completed ++ a.file.toList,
      String.join (a.reports.map Report.line) ++ "aborted at " ++ a.path.text ++ "\n", 1⟩

def Arguments.run (a : Arguments) (t : FileTree) (workingDirectory : Path) (now : Calendar.Moment) : Outcome :=
  if a.out.isNone && 1 < a.files.length then .failure t "--out is required when rendering more than one file"
  else match a.settings t with
    | .error message => .failure t message
    | .ok s =>
      let c := s.config workingDirectory
      match readFiles t now a.files with
      | .error message => .failure t message
      | .ok files =>
        let d := Delivery.ofRun a.out.isSome (c.run t now files .start).1
        match a.out with
        | none => ⟨d.code, d.files.flatMap fun f => f.contents.octets?.getD [], d.messages, t⟩
        | some out =>
          match writeFiles out c.root t d.files with
          | (t, none) => ⟨d.code, [], d.messages, t⟩
          | (t, some message) => .failure t message

/-- Does what a command line says. -/
def program (args : List Bytes) (t : FileTree) (workingDirectory : Path) (now : Calendar.Moment) : Outcome :=
  match CommandLine.read args with
  | .error m => ⟨2, [], "error: " ++ m.message ++ "\n\n" ++ CommandLine.usage, t⟩
  | .ok .help => ⟨0, Bytes.ofText CommandLine.helpText, "", t⟩
  | .ok .version => ⟨0, Bytes.ofText CommandLine.versionText, "", t⟩
  | .ok (.render a) => a.run t workingDirectory now

end Folio
