import Folio.Failure
/-!
# Reports

Failures inside a page do not stop it.  They are flattened to reports, and a channel collects these: it queues each report
until the next drain and tells every listener that has subscribed.  A channel loses nothing and keeps the order of
reporting; what a listener hears does not depend on drains.
-/
namespace Folio

inductive ReportKind where
  /-- The page as a whole failed. -/
  | template
  /-- A filter failed, and its expression is empty. -/
  | filter
  /-- The input could not be processed and was dropped. -/
  | unsupportedInput
deriving DecidableEq, Repr

def ReportKind.name : ReportKind → String
  | .template => "template"
  | .filter => "filter"
  | .unsupportedInput => "unsupported_input"

structure Report where
  kind : ReportKind
  message : String
  path : Option Path
deriving DecidableEq, Repr

namespace Report

/-- The name under which the program signs its reports. -/
def plugin : String := "pagesmith"

def ofFailure (kind : ReportKind) (f : Failure) (path : Option Path) : Report := ⟨kind, f.message, path⟩

def withPath (r : Report) (path : Path) : Report := { r with path := some path }

def shown (r : Report) : String := "[" ++ plugin ++ "] " ++ r.message

def json (r : Report) : String :=
  let path := match r.path with
    | some p => Text.json p.text
    | none => "null"
  "\x7b\"plugin\":" ++ Text.json plugin ++ ",\"kind\":" ++ Text.json r.kind.name ++ ",\"message\":"
    ++ Text.json r.message ++ ",\"path\":" ++ path ++ "\x7d"

end Report

/-- A report as one listener heard it; listeners are numbered in the order of their subscriptions. -/
structure Heard where
  listener : Nat
  report : Report
deriving DecidableEq, Repr

structure Channel where
  /-- Reports since the last drain, in order. -/
  pending : List Report
  listeners : Nat
  /-- Everything that listeners have heard, in order. -/
  heard : List Heard
deriving DecidableEq, Repr

namespace Channel

def empty : Channel := ⟨[], 0, []⟩

def report (c : Channel) (r : Report) : Channel :=
  { c with pending := c.pending ++ [r], heard := c.heard ++ (List.range c.listeners).map (⟨·, r⟩) }

/-- The queued reports, and the channel without them. -/
def drain (c : Channel) : List Report × Channel := (c.pending, { c with pending := [] })

def subscribe (c : Channel) : Channel := { c with listeners := c.listeners + 1 }

def heardBy (c : Channel) (listener : Nat) : List Report :=
  (c.heard.filter (·.listener == listener)).map (·.report)

def shown (c : Channel) : String :=
  "ErrorChannel \x7b pending: " ++ toString c.pending.length ++ ", listeners: " ++ toString c.listeners ++ " \x7d"

@[simp] theorem pending_report (c : Channel) (r : Report) : (c.report r).pending = c.pending ++ [r] := rfl

@[simp] theorem pending_drain (c : Channel) : c.drain.2.pending = [] := rfl

@[simp] theorem heard_drain (c : Channel) : c.drain.2.heard = c.heard := rfl

end Channel
end Folio
