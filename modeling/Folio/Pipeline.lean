import Folio.Config
import Folio.Template.Render
import Folio.Transform
/-!
# Runs

A run transforms files one after the other.  A lenient run goes through all of them and sums up; a run that fails on
errors ends with the first file that has reports, and hands back what was finished before it.
-/
namespace Folio

/-- The state of a run between two files. -/
abbrev RunSession := Session RenderStack

def RunSession.start : RunSession := ⟨.empty, .empty⟩

/-- What a completed run did, counted and listed. -/
structure Summary where
  /-- In the order of the inputs, without those that were dropped. -/
  files : List ContentFile
  reports : List Report
  rendered : Nat
  passedThrough : Nat
  failed : Nat
  dropped : Nat

/-- Why a run ended early: the file that has reports, as it was left, and the files before it. -/
structure Aborted where
  path : Path
  reports : List Report
  file : Option ContentFile
  completed : List ContentFile

def Aborted.message (a : Aborted) : String :=
  "aborted after " ++ toString a.reports.length ++ " error(s) in " ++ a.path.text

namespace Summary

def empty : Summary := ⟨[], [], 0, 0, 0, 0⟩

def isClean (s : Summary) : Bool := s.reports.isEmpty

def record (s : Summary) (t : Transformed) : Summary where
  files := s.files ++ t.file.toList
  reports := s.reports ++ t.reports
  rendered := if t.status = .rendered then s.rendered + 1 else s.rendered
  passedThrough := if t.status = .passedThrough then s.passedThrough + 1 else s.passedThrough
  failed := if t.status = .failed then s.failed + 1 else s.failed
  dropped := if t.status = .dropped then s.dropped + 1 else s.dropped

end Summary

/-- What becomes of a file in a session. -/
abbrev Processing (ε : Type) := ContentFile → Session ε → Transformed × Session ε

/-- Processes files in order, after those that are summed up already. -/
def runFrom {ε : Type} (process : Processing ε) (failOnError : Bool) (sum : Summary) :
    List ContentFile → Session ε → Except Aborted Summary × Session ε
  | [], s => (.ok sum, s)
  | f :: fs, s =>
    let (done, s) := process f s
    if failOnError && !done.reports.isEmpty then (.error ⟨f.path, done.reports, done.file, sum.files⟩, s)
    else runFrom process failOnError (sum.record done) fs s

namespace Config

/-- Transforms one file. -/
def process (c : Config) (t : FileTree) (now : Calendar.Moment) : Processing RenderStack :=
  transform (c.environment t now).render c.globals c.htmlExtensions

def run (c : Config) (t : FileTree) (now : Calendar.Moment) (files : List ContentFile) (s : RunSession) :
    Except Aborted Summary × RunSession :=
  runFrom (c.process t now) c.failOnError .empty files s

end Config
end Folio
