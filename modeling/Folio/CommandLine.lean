import Folio.Datum
import Folio.Path
import Folio.Yaml.Reading
/-!
# The command line

Options may stand anywhere before `--` and between files.  One that takes a value has it in the same argument or in the
next.  Arguments are read from left to right, and the first that is wrong, or asks for help or for the version, decides.
-/
namespace Folio

/-- What a command line asks a run to do. -/
structure Arguments where
  config : Option Path
  /-- Directories of templates, in order. -/
  templates : List Path
  /-- In order; of several with one name, the last counts. -/
  globals : List (String × Datum)
  root : Option Path
  out : Option Path
  failOnError : Bool
  verbosity : Nat
  files : List Path

inductive Command where
  | render (a : Arguments)
  | help
  | version

inductive Flag where
  | config
  | template
  | assignment
  | root
  | out
  | fail
  | verbose
  | help
  | version
deriving DecidableEq, Repr

namespace Flag

def takesValue : Flag → Bool
  | config | template | assignment | root | out => true
  | fail | verbose | help | version => false

def long : Flag → String
  | config => "config"
  | template => "include"
  | assignment => "var"
  | root => "root"
  | out => "out"
  | fail => "fail"
  | verbose => "verbose"
  | help => "help"
  | version => "version"

def short : Flag → Option Char
  | config => some 'c'
  | template => some 'I'
  | out => some 'o'
  | verbose => some 'v'
  | help => some 'h'
  | version => some 'V'
  | assignment | root | fail => none

def all : List Flag := [config, template, assignment, root, out, fail, verbose, help, version]

end Flag

/-- What is wrong with a command line. -/
inductive Misuse where
  | unknown (argument : Path)
  | repeated (flag : Flag)
  | missingValue (flag : Flag)
  | unwantedValue (flag : Flag)
  | emptyPath
  | badVariable (reason : String)
  | noFiles

def Misuse.message : Misuse → String
  | unknown argument => "unexpected argument '" ++ argument.text ++ "'"
  | repeated flag => "the option '--" ++ flag.long ++ "' may be given once only"
  | missingValue flag => "the option '--" ++ flag.long ++ "' needs a value"
  | unwantedValue flag => "the option '--" ++ flag.long ++ "' takes no value"
  | emptyPath => "a path is empty"
  | badVariable reason => reason
  | noFiles => "no files are given"

namespace CommandLine

def equalsSign : UInt8 := 61

def hyphen : UInt8 := 45

/-- A variable as `NAME=VALUE`; the value is read as YAML, and is the text itself where it is none. -/
def assignment? (octets : Bytes) : Except Misuse (String × Datum) :=
  match Text.decode? octets with
  | none => .error (.badVariable "a variable is not valid UTF-8")
  | some cs =>
    let name := cs.takeWhile (· != '=')
    let value := String.ofList (cs.drop (name.length + 1))
    if name.length = cs.length then .error (.badVariable ("expected KEY=VALUE, got " ++ Text.shown (String.ofList cs)))
    else if name.isEmpty then .error (.badVariable "variable name is empty")
    else match Yaml.datum value with
      | .ok d => .ok (String.ofList name, d)
      | .error _ => .ok (String.ofList name, .text value)

def pathOf (octets : Bytes) : Except Misuse Path := if octets.isEmpty then .error .emptyPath else .ok ⟨octets⟩

/-- Sets what may be set once. -/
def once (flag : Flag) (current : Option Path) (octets : Bytes) : Except Misuse (Option Path) :=
  match current with
  | some _ => .error (.repeated flag)
  | none => (pathOf octets).map some

/-- An option with its value. -/
def setValue (a : Arguments) (flag : Flag) (octets : Bytes) : Except Misuse Arguments :=
  match flag with
  | .config => (once flag a.config octets).map fun p => { a with config := p }
  | .root => (once flag a.root octets).map fun p => { a with root := p }
  | .out => (once flag a.out octets).map fun p => { a with out := p }
  | .template => (pathOf octets).map fun p => { a with templates := a.templates ++ [p] }
  | .assignment => (assignment? octets).map fun e => { a with globals := a.globals ++ [e] }
  | .fail | .verbose | .help | .version => .error (.unwantedValue flag)

def addFile (a : Arguments) (octets : Bytes) : Except Misuse Arguments :=
  (pathOf octets).map fun p => { a with files := a.files ++ [p] }

/-- What an argument leads to. -/
inductive Progress where
  | goesOn (a : Arguments)
  /-- The option's value is the next argument. -/
  | awaits (a : Arguments) (flag : Flag)
  | stops (c : Command)

/-- An option without a value. -/
def setFlag (a : Arguments) (flag : Flag) : Except Misuse Progress :=
  match flag with
  | .fail => if a.failOnError then .error (.repeated flag) else .ok (.goesOn { a with failOnError := true })
  | .verbose => .ok (.goesOn { a with verbosity := a.verbosity + 1 })
  | .help => .ok (.stops .help)
  | .version => .ok (.stops .version)
  | _ => .ok (.awaits a flag)

/-- An option by its long name, perhaps with a value behind an equals sign. -/
def readLong (a : Arguments) (octets : Bytes) : Except Misuse Progress :=
  let name := octets.takeWhile (· != equalsSign)
  match Flag.all.find? fun f => Bytes.ofText f.long == name with
  | none => .error (.unknown ⟨hyphen :: hyphen :: octets⟩)
  | some flag =>
    if name.length < octets.length then (setValue a flag (octets.drop (name.length + 1))).map .goesOn
    else setFlag a flag

/-- Options by their letters in one argument; the rest after one that takes a value is the value. -/
def readShort (a : Arguments) : Bytes → Except Misuse Progress
  | [] => .ok (.goesOn a)
  | b :: bs =>
    match Flag.all.find? fun f => f.short == some (Char.ofNat b.toNat) with
    | none => .error (.unknown ⟨hyphen :: b :: bs⟩)
    | some flag =>
      if flag.takesValue then
        match bs with
        | [] => .ok (.awaits a flag)
        | c :: cs => (setValue a flag (if c = equalsSign then cs else c :: cs)).map .goesOn
      else match setFlag a flag with
        | .ok (.goesOn a) => readShort a bs
        | p => p

/-- Whether an argument is no file and no value: it starts with a hyphen and has more. -/
def isOption (octets : Bytes) : Bool := octets.head? == some hyphen && 1 < octets.length

def separator : Bytes := [hyphen, hyphen]

def readArgument (a : Arguments) (octets : Bytes) : Except Misuse Progress :=
  match octets with
  | b :: c :: rest =>
    if b ≠ hyphen then (addFile a octets).map .goesOn
    else if c = hyphen then readLong a rest
    else readShort a (c :: rest)
  | _ => (addFile a octets).map .goesOn

def readFrom (a : Arguments) : List Bytes → Except Misuse Command
  | [] => if a.files.isEmpty then .error .noFiles else .ok (.render a)
  | arg :: args =>
    if arg = separator then do
      let a ← args.foldlM addFile a
      if a.files.isEmpty then .error .noFiles else .ok (.render a)
    else match readArgument a arg with
      | .error m => .error m
      | .ok (.stops c) => .ok c
      | .ok (.goesOn a) => readFrom a args
      | .ok (.awaits a flag) =>
        match args with
        | [] => .error (.missingValue flag)
        | value :: args =>
          if isOption value then .error (.missingValue flag)
          else match setValue a flag value with
            | .error m => .error m
            | .ok a => readFrom a args

/-- Reads the arguments that follow the program's name. -/
def read (args : List Bytes) : Except Misuse Command := readFrom ⟨none, [], [], none, none, false, 0, []⟩ args

def versionText : String := "pagesmith 0.3.0\n"

def usage : String := "Usage: pagesmith [OPTIONS] <FILES>...\n"

def helpText : String :=
  "Render content files through Jinja-style layouts\n\n" ++ usage
    ++ "\nArguments:\n"
    ++ "  <FILES>...  Content files to render\n"
    ++ "\nOptions:\n"
    ++ "  -c, --config <CONFIG>  YAML settings file\n"
    ++ "  -I, --include <DIR>    Template search directory (repeatable, first match wins)\n"
    ++ "      --var <KEY=VALUE>  Global variable exposed as \x60global.KEY\x60 (value parsed as YAML)\n"
    ++ "      --root <ROOT>      Directory filter paths resolve against\n"
    ++ "  -o, --out <OUT>        Output directory; required for more than one file\n"
    ++ "      --fail             Stop at the first file that reports an error\n"
    ++ "  -v, --verbose...       More logging (-v debug, -vv trace)\n"
    ++ "  -h, --help             Print help\n"
    ++ "  -V, --version          Print version\n"

end CommandLine
end Folio
