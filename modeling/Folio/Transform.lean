import Folio.Context
import Folio.Layout
import Folio.Session
/-!
# Transforming a file

A page is a file with metadata, with something in it, and with the extension of HTML.  A page is rendered by an engine;
every other file passes through as it is, and a stream is dropped.  `transform` renders at most once, hands the file back
unless it was dropped, and gives every report of the meantime the file's path.
-/
namespace Folio

/-- What an engine renders: a source under a name, with variables. -/
structure Page where
  name : String
  source : String
  context : Fields

/-- An engine renders pages in a session, which it may change also when it fails. -/
abbrev Renderer (ε : Type) := Page → Session ε → Except Failure String × Session ε

inductive Status where
  | rendered
  | passedThrough
  | failed
  | dropped
deriving DecidableEq, Repr

structure Transformed where
  /-- None when the file was dropped. -/
  file : Option ContentFile
  status : Status
  reports : List Report

/-- The layout that metadata asks for. -/
def layoutName? (fields : Fields) : Option String :=
  match Table.get? fields "template" with
  | some (.text name) => if name = "" then none else some name
  | _ => none

/-- The page of a file that is to be rendered; none if the file passes through. -/
def ContentFile.page? (f : ContentFile) (globals : Fields) (extensions : List String) : Option Page :=
  if f.contents.isEmpty || !isHtml f.path extensions then none
  else match f.meta? with
    | none => none
    | some fields =>
      let body := f.text?.getD ""
      let source := match layoutName? fields with
        | some name => Layout.wrap body name
        | none => body
      some ⟨f.path.text, source, f.context globals⟩

variable {ε : Type}

/-- The file afterwards and what happened to it, before the reports are collected. -/
def ContentFile.renderWith (render : Renderer ε) (globals : Fields) (extensions : List String) (f : ContentFile)
    (s : Session ε) : ContentFile × Status × Session ε :=
  if f.contents.isStream then
    (f, .dropped, s.report (.ofFailure .unsupportedInput .unsupportedStream (some f.path)))
  else match f.page? globals extensions with
    | none => (f, .passedThrough, s)
    | some page =>
      match render page s with
      | (.ok text, s) => ({ f with contents := .buffer (Bytes.ofText text) }, .rendered, s)
      | (.error failure, s) => (f, .failed, s.report (.ofFailure .template failure (some f.path)))

def transform (render : Renderer ε) (globals : Fields) (extensions : List String) (f : ContentFile) (s : Session ε) :
    Transformed × Session ε :=
  let (after, status, s) := f.renderWith render globals extensions s
  let (reports, s) := s.drain
  (⟨if status = .dropped then none else some after, status, reports.map (·.withPath f.path)⟩, s)

end Folio
