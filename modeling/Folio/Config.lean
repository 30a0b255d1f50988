import Folio.Calendar.Mask
import Folio.Markdown.Html
import Folio.Scope
import Folio.Settings
import Folio.Template.Run
/-!
# Run configurations

Everything a run is configured with.  A configuration starts from defaults and is changed by calls that each touch one
part of it, so calls on different parts can be made in any order.
-/
namespace Folio

structure Config where
  /-- Directories of templates, of which the first that has a template wins. -/
  paths : List Path
  filters : Filters
  tags : Tags
  globals : Fields
  failOnError : Bool
  /-- In normal form. -/
  htmlExtensions : List String
  autoescape : Bool
  root : Path
  markdown : Converter
  dates : DateFormatter

/-- Markdown with some of its extensions. -/
def Markdown.Options.converter (o : Markdown.Options) : Converter := fun text => .ok (Markdown.toHtml o text)

/-- Dates by masks and patterns. -/
def maskedDates : DateFormatter := fun m format => (Calendar.format m format).mapError Failure.date

namespace Config

/-- A run in the working directory without templates, with the filters that every run starts with. -/
def default (workingDirectory : Path) : Config where
  paths := []
  filters := Filters.standard
  tags := []
  globals := []
  failOnError := false
  htmlExtensions := normalExtensions defaultExtensions
  autoescape := false
  root := workingDirectory
  markdown := Markdown.Options.default.converter
  dates := maskedDates

/-! ## Changes -/

def withPath (c : Config) (p : Path) : Config := { c with paths := c.paths ++ [p] }

def withPaths (c : Config) (ps : List Path) : Config := { c with paths := c.paths ++ ps }

def withFilter (c : Config) (name : String) (f : Callable) : Config :=
  { c with filters := (c.filters.insert name f).2 }

/-- The entries of the given filters win. -/
def withFilters (c : Config) (fs : Filters) : Config := { c with filters := Table.merge fs c.filters }

def withTag (c : Config) (name : String) (t : Tag) : Config := { c with tags := Table.insert name t c.tags }

def withTags (c : Config) (ts : Tags) : Config := { c with tags := Table.merge ts c.tags }

def withVariables (c : Config) (globals : Fields) : Config := { c with globals := globals }

def withVariable (c : Config) (name : String) (d : Datum) : Config :=
  { c with globals := Table.insert name d c.globals }

def withFailOnError (c : Config) (b : Bool) : Config := { c with failOnError := b }

/-- The flag `--fail` among arguments turns failing on. -/
def withArgs (c : Config) (args : List String) : Config := { c with failOnError := c.failOnError || hasFailFlag args }

def withHtmlExtensions (c : Config) (extensions : List String) : Config :=
  { c with htmlExtensions := normalExtensions extensions }

def withAutoescape (c : Config) (b : Bool) : Config := { c with autoescape := b }

def withRoot (c : Config) (p : Path) : Config := { c with root := p }

def withMarkdown (c : Config) (convert : Converter) : Config := { c with markdown := convert }

def withDates (c : Config) (format : DateFormatter) : Config := { c with dates := format }

/-! ## Views -/

def quotedList (texts : List String) : String := "[" ++ ", ".intercalate texts ++ "]"

def shown (c : Config) : String :=
  "PipelineConfig \x7b paths: " ++ quotedList (c.paths.map (·.shown)) ++ ", filters: " ++ Table.shownNames c.filters
    ++ ", tags: " ++ Table.shownNames c.tags ++ ", variables: " ++ Fields.shown c.globals
    ++ ", fail_on_error: " ++ toString c.failOnError ++ ", html_extensions: "
    ++ quotedList (c.htmlExtensions.map Text.shown) ++ ", autoescape: " ++ toString c.autoescape
    ++ ", root: " ++ c.root.shown ++ ", .. \x7d"

/-- What filters know in a run over the files of a tree. -/
def scope (c : Config) (t : FileTree) (now : Calendar.Moment) : Scope :=
  ⟨t, c.root, c.htmlExtensions, c.markdown, c.dates, now⟩

/-- What the renders of a run have in common. -/
def environment (c : Config) (t : FileTree) (now : Calendar.Moment) : Template.Environment :=
  ⟨c.scope t now, c.paths, c.autoescape, c.filters, c.tags⟩

end Config

/-- The configuration that settings make. -/
def Settings.config (s : Settings) (workingDirectory : Path) : Config :=
  let c := (Config.default workingDirectory).withPaths s.paths
    |>.withVariables s.globals
    |>.withFailOnError s.failOnError
    |>.withHtmlExtensions s.htmlExtensions
    |>.withAutoescape s.autoescape
    |>.withMarkdown s.markdown.converter
  match s.root with
  | some root => c.withRoot root
  | none => c

end Folio
