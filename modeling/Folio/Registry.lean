import Folio.Failure
import Folio.Table
import Folio.Template.Value
/-!
# Filters and tags

What a run adds to its templates under names: filters, and tags, which are variables and functions.  Both are tables, so
the last entry given to a name stands, and names are listed in order.  A run starts with five filters of its own
(`Builtin`); an entry of the caller under the same name replaces one of these.
-/
namespace Folio

/-- A function of the caller: it gets all arguments, for a filter the value first. -/
abbrev Callable := List Template.Value → Except Failure Template.Value

/-- Filters that work on content files, texts and dates. -/
inductive Builtin where
  | attributes
  | body
  | render
  | markdown
  | date
deriving DecidableEq, Repr

namespace Builtin

def all : List Builtin := [.attributes, .body, .render, .markdown, .date]

def name : Builtin → String
  | .attributes => "attributes"
  | .body => "body"
  | .render => "render"
  | .markdown => "markdown"
  | .date => "date"

end Builtin

inductive Filter where
  | builtin (b : Builtin)
  | custom (f : Callable)

abbrev Filters := Table Filter

namespace Filters

/-- The filters that a run starts with. -/
def standard : Filters := Table.ofEntries (Builtin.all.map fun b => (b.name, .builtin b))

/-- Gives a name to a filter of the caller, and says whether it replaces another one. -/
def insert (fs : Filters) (name : String) (f : Callable) : Bool × Filters :=
  (Table.contains fs name, Table.insert name (.custom f) fs)

def isBuiltin (fs : Filters) (name : String) : Bool :=
  match Table.get? fs name with
  | some (.builtin _) => true
  | _ => false

end Filters

/-- What a caller adds under a name: a value or a function of its arguments.  An extension has the whole engine to itself
while it is installed; tests, loader hooks and settings that it might change there are left out. -/
inductive Tag where
  /-- A variable of every template. -/
  | global (value : Datum)
  | function (f : Callable)

abbrev Tags := Table Tag

/-- The names of a table, quoted. -/
def Table.shownNames {α : Type} (t : Table α) : String :=
  "[" ++ ", ".intercalate ((Table.names t).map Text.shown) ++ "]"

end Folio
