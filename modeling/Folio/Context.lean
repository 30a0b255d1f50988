import Folio.ContentFile
/-!
# Page contexts

The variables of a page are its metadata and five names that the metadata cannot set or can set only in part: `filename`,
`stats` and `global` are always the file's own path, its times and size, and the variables of the whole run; `published`
and `updated` are the metadata's, or the times of birth and of change where the metadata has nothing to say.
-/
namespace Folio

/-- Missing, null, false and the empty text say nothing. -/
def saysNothing : Option Datum → Bool
  | none | some .null | some (.bool false) => true
  | some (.text s) => s == ""
  | some _ => false

def FileStat.fields (s : FileStat) : Fields :=
  Table.ofEntries [("birthtime", .text s.birth.rfc3339Zulu), ("mtime", .text s.modified.rfc3339Zulu),
    ("atime", .text s.accessed.rfc3339Zulu), ("ctime", .text s.changed.rfc3339Zulu), ("size", .int s.size)]

/-- The metadata's value, or a time. -/
def orTime (name : String) (m : Calendar.Moment) (fields : Fields) : Fields :=
  if saysNothing (Table.get? fields name) then Table.insert name (.text m.rfc3339) fields else fields

def ContentFile.context (f : ContentFile) (globals : Fields) : Fields :=
  let dated := orTime "updated" f.stat.modified (orTime "published" f.stat.birth (f.meta?.getD []))
  Table.insert "global" (.object globals)
    (Table.insert "stats" (.object f.stat.fields) (Table.insert "filename" (.text f.path.text) dated))

end Folio
