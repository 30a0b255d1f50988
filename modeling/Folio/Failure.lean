import Folio.Calendar.Reading
import Folio.FileTree
import Folio.Template.Fault
/-!
# Failures

Why a page, a filter or a function has no result.  Each failure says what failed; `Failure.message` is the text that is
reported for it.
-/
namespace Folio

/-- Why a file has no contents: a refusal of the file system, or what a caller says. -/
inductive ReadProblem where
  | denied (denial : Denial)
  | reported (message : String)
deriving DecidableEq, Repr

def ReadProblem.message : ReadProblem → String
  | .denied denial => denial.message
  | .reported message => message

inductive Failure where
  | template (message : String)
  | templateNotFound (message : String)
  | unreadable (path : Path) (problem : ReadProblem)
  | markdown (message : String)
  | date (problem : Calendar.Problem)
  /-- The path is already being rendered, on behalf of the paths of the chain, the outermost first. -/
  | cyclic (path : Path) (chain : List Path)
  | unsupportedStream
  | argument (message : String)
  | custom (message : String)
  | serialization (message : String)

namespace Failure

def message : Failure → String
  | .template message => "template error: " ++ message
  | .templateNotFound message => "template not found: " ++ message
  | .unreadable path problem => "failed to read " ++ path.text ++ ": " ++ problem.message
  | .markdown message => "markdown error: " ++ message
  | .date problem => "date error: " ++ problem.message
  | .cyclic path chain =>
    "cyclic reference: " ++ path.text ++ " is already being rendered (via " ++ " -> ".intercalate (chain.map (·.text))
      ++ ")"
  | .unsupportedStream => "Streams are not supported!"
  | .argument message => "invalid argument: " ++ message
  | .custom message => message
  | .serialization message => "serialization error: " ++ message

/-- A file that the file system refused to give. -/
def denied (path : Path) (denial : Denial) : Failure := .unreadable path (.denied denial)

/-- The failure of a page whose template has a fault. -/
def ofFault (f : Template.Fault) : Failure :=
  match f.cause.kind with
  | .templateNotFound => .templateNotFound f.message
  | .unserializable => .serialization f.message
  | _ => .template f.message

/-- The cause that a failing function is inside a template. -/
def cause (f : Failure) : Template.Cause := .reported .invalidOperation f.message

end Failure

/-- Failures are told apart by their messages only; a result without a failure is seen. -/
theorem eq_ok_of_mapError {x : Except Failure String} {text : String} (h : x.mapError Failure.message = .ok text) :
    x = .ok text := by
  cases x with
  | error f => cases h
  | ok t =>
    cases h
    rfl

end Folio
