import Folio.Datum
/-!
# Markdown options

Which extensions of Markdown are read, and whether raw HTML is kept.
-/
namespace Folio.Markdown

structure Options where
  tables : Bool
  strikethrough : Bool
  autolink : Bool
  tasklist : Bool
  footnotes : Bool
  smartPunctuation : Bool
  rawHtml : Bool
deriving DecidableEq, Repr

namespace Options

/-- Everything but smart punctuation. -/
def default : Options := ⟨true, true, true, true, true, false, true⟩

/-- Sets an option by its name; none for a name that is no option's. -/
def set? (o : Options) (name : String) (b : Bool) : Option Options :=
  match name with
  | "tables" => some { o with tables := b }
  | "strikethrough" => some { o with strikethrough := b }
  | "autolink" => some { o with autolink := b }
  | "tasklist" => some { o with tasklist := b }
  | "footnotes" => some { o with footnotes := b }
  | "smartPunctuation" => some { o with smartPunctuation := b }
  | "rawHtml" => some { o with rawHtml := b }
  | _ => none

/-- What a datum is called where a boolean was expected. -/
def describe : Datum → String
  | .null => "null"
  | .bool b => "boolean \x60" ++ toString b ++ "\x60"
  | .int n => "integer \x60" ++ toString n ++ "\x60"
  | .float x => "floating point \x60" ++ Number.compact x ++ "\x60"
  | .text s => "string " ++ Text.shown s
  | .list _ => "sequence"
  | .object _ => "map"

/-- The options that fields set; other fields are ignored. -/
def ofFields (fields : Fields) : Except String Options :=
  fields.foldlM (fun o (name, d) =>
    match o.set? name true, d with
    | none, _ => .ok o
    | some _, .bool b => .ok ((o.set? name b).getD o)
    | some _, d => .error ("invalid type: " ++ describe d ++ ", expected a boolean")) default

end Options
end Folio.Markdown
