import Folio.Context
import Folio.Proofs.Registry.History
/-!
# Contexts as tables laid over metadata

A context is the metadata with five names laid over it.  Three of them are the file's own whatever the metadata say; the
two times stand where the metadata are silent (`get?_orTime`), and a value is silent exactly if it is missing, null, false or
the empty text (`saysNothing_iff`): zero, an empty list and an empty object speak.  All other names are the metadata's
(`context_merge`).
-/
namespace Folio

/-- What metadata have under a name about which they are silent. -/
def silent : List (Option Datum) := [none, some .null, some (.bool false), some (.text "")]

theorem saysNothing_iff {d : Option Datum} : saysNothing d = true ↔ d ∈ silent := by
  rcases d with _ | d
  · simp [saysNothing, silent]
  · cases d with
    | bool b => cases b <;> simp [saysNothing, silent]
    | _ => simp [saysNothing, silent]

theorem get?_orTime (given : String) (m : Calendar.Moment) (fields : Fields) (name : String) :
    Table.get? (orTime given m fields) name =
      if name = given ∧ saysNothing (Table.get? fields name) = true then some (.text m.rfc3339)
      else Table.get? fields name := by
  unfold orTime
  by_cases h : name = given
  · subst h
    by_cases hs : saysNothing (Table.get? fields name) = true <;> simp [hs, Table.get?_insert]
  · by_cases hs : saysNothing (Table.get? fields given) = true <;> simp [h, hs, Ne.symm h, Table.get?_insert]

theorem mem_names_orTime (given : String) (m : Calendar.Moment) (fields : Fields) (name : String) :
    name ∈ Table.names (orTime given m fields) ↔ name = given ∨ name ∈ Table.names fields := by
  unfold orTime
  split
  · exact Table.mem_names_insert fields given _ name
  · rename_i hs
    refine ⟨.inr, fun h => h.elim ?_ id⟩
    -- A name that the metadata speak of is one of theirs.
    rintro rfl
    rw [Table.mem_names_iff, Option.isSome_iff_ne_none]
    intro hnone
    exact hs (by rw [hnone]; rfl)

theorem sorted_orTime {fields : Fields} (h : Table.Sorted fields) (given : String) (m : Calendar.Moment) :
    Table.Sorted (orTime given m fields) := by
  unfold orTime
  split
  · exact h.insert given _
  · exact h

theorem FileStat.fields_eq (s : FileStat) : s.fields =
    [("atime", .text s.accessed.rfc3339Zulu), ("birthtime", .text s.birth.rfc3339Zulu),
      ("ctime", .text s.changed.rfc3339Zulu), ("mtime", .text s.modified.rfc3339Zulu), ("size", .int s.size)] := by
  simp +decide only [fields, Table.ofEntries, Table.merge, List.foldl_cons, List.foldl_nil, Table.insert, if_true, if_false]

open Calendar (Moment)

namespace ContentFile

/-- A file without metadata is one whose metadata have no entries. -/
def metadata (f : ContentFile) : Fields := f.meta?.getD []

/-- The times that stand in for silent metadata. -/
def dates (f : ContentFile) : List (String × Moment) :=
  [("published", f.stat.birth), ("updated", f.stat.modified)]

/-- The names that metadata cannot set. -/
def ownNames : List String := ["filename", "stats", "global"]

section
variable (f : ContentFile) (globals : Fields)

theorem context_own : Table.get? (f.context globals) "filename" = some (.text f.path.text) ∧
    Table.get? (f.context globals) "stats" = some (.object f.stat.fields) ∧
    Table.get? (f.context globals) "global" = some (.object globals) := by
  simp [context, Table.get?_insert]

theorem context_dated {name : String} (h : name ∉ ownNames) : Table.get? (f.context globals) name =
    Table.get? (orTime "updated" f.stat.modified (orTime "published" f.stat.birth f.metadata)) name := by
  simp only [ownNames, List.mem_cons, List.not_mem_nil, or_false, not_or] at h
  obtain ⟨hfilename, hstats, hglobal⟩ := h
  simp [context, metadata, Table.get?_insert, Ne.symm hfilename, Ne.symm hstats, Ne.symm hglobal]

theorem context_date {name : String} {m : Calendar.Moment} (h : (name, m) ∈ f.dates) :
    Table.get? (f.context globals) name =
      if saysNothing (Table.get? f.metadata name) then some (.text m.rfc3339) else Table.get? f.metadata name := by
  simp only [dates, List.mem_cons, List.not_mem_nil, or_false, Prod.mk.injEq] at h
  rcases h with ⟨rfl, rfl⟩ | ⟨rfl, rfl⟩ <;> simp [context_dated, ownNames, get?_orTime]

theorem context_other {name : String} (h : name ∉ ownNames) (hdates : name ∉ f.dates.map (·.1)) :
    Table.get? (f.context globals) name = Table.get? f.metadata name := by
  simp only [dates, List.map_cons, List.map_nil, List.mem_cons, List.not_mem_nil, or_false, not_or] at hdates
  simp [context_dated f globals h, get?_orTime, hdates]

theorem mem_names_context (name : String) : name ∈ Table.names (f.context globals) ↔
    name ∈ Table.names f.metadata ∨ name ∈ ownNames ++ f.dates.map (·.1) := by
  simp only [context, Table.mem_names_insert, mem_names_orTime, metadata]
  simp only [ownNames, dates, List.map_cons, List.map_nil, List.cons_append, List.nil_append, List.mem_cons,
    List.not_mem_nil, or_false]
  grind

end

theorem sorted_context {f : ContentFile} (h : Table.Sorted f.metadata) (globals : Fields) :
    Table.Sorted (f.context globals) :=
  (((sorted_orTime (sorted_orTime h _ _) _ _).insert _ _).insert _ _).insert _ _

theorem get?_context_congr {f g : ContentFile} (hpath : g.path = f.path) (hstat : g.stat = f.stat)
    (hmeta : ∀ name ∉ ownNames, Table.get? g.metadata name = Table.get? f.metadata name) (globals : Fields) (name : String) :
    Table.get? (g.context globals) name = Table.get? (f.context globals) name := by
  by_cases hown : name ∈ ownNames
  · obtain ⟨hfilename, hstats, hglobal⟩ := f.context_own globals
    obtain ⟨hfilename', hstats', hglobal'⟩ := g.context_own globals
    simp only [ownNames, List.mem_cons, List.not_mem_nil, or_false] at hown
    rcases hown with rfl | rfl | rfl
    · rw [hfilename, hfilename', hpath]
    · rw [hstats, hstats', hstat]
    · rw [hglobal, hglobal']
  · simp [context_dated _ globals hown, get?_orTime, hmeta name hown, hstat]

/-- **A context is its file's metadata with five names laid over them.**  The name of the file, the record of its times and
size and the variables of the run stand there whatever the metadata say.  The two dates are the metadata's, and where these
are missing, null, false or the empty text, the times of birth and of change.  Every other name has what the metadata have.
There are no more names than these, and what the metadata have under the first three plays no part. -/
theorem context_merge (f : ContentFile) (globals : Fields) :
    Table.get? (f.context globals) "filename" = some (.text f.path.text) ∧
    Table.get? (f.context globals) "stats" = some (.object
      [("atime", .text f.stat.accessed.rfc3339Zulu), ("birthtime", .text f.stat.birth.rfc3339Zulu),
        ("ctime", .text f.stat.changed.rfc3339Zulu), ("mtime", .text f.stat.modified.rfc3339Zulu),
        ("size", .int f.stat.size)]) ∧
    Table.get? (f.context globals) "global" = some (.object globals) ∧
    (∀ name m, (name, m) ∈ [("published", f.stat.birth), ("updated", f.stat.modified)] →
      (Table.get? f.metadata name ∈ [none, some .null, some (.bool false), some (.text "")] →
        Table.get? (f.context globals) name = some (.text m.rfc3339)) ∧
      (Table.get? f.metadata name ∉ [none, some .null, some (.bool false), some (.text "")] →
        Table.get? (f.context globals) name = Table.get? f.metadata name)) ∧
    (∀ name ∉ ["filename", "stats", "global", "published", "updated"],
      Table.get? (f.context globals) name = Table.get? f.metadata name) ∧
    (∀ name, name ∈ Table.names (f.context globals) ↔
      name ∈ Table.names f.metadata ∨ name ∈ ["filename", "stats", "global", "published", "updated"]) ∧
    ∀ g : ContentFile, g.path = f.path → g.stat = f.stat →
      (∀ name ∉ ["filename", "stats", "global"], Table.get? g.metadata name = Table.get? f.metadata name) →
      (∀ name, Table.get? (g.context globals) name = Table.get? (f.context globals) name) ∧
      (Table.Sorted f.metadata → Table.Sorted g.metadata → g.context globals = f.context globals) := by
  obtain ⟨hfilename, hstats, hglobal⟩ := f.context_own globals
  refine ⟨hfilename, by rw [hstats, FileStat.fields_eq], hglobal, fun name m hdate => ⟨fun hs => ?_, fun hs => ?_⟩,
    fun name hname => ?_, f.mem_names_context globals, fun g hpath hstat hmeta => ?_⟩
  · rw [f.context_date globals hdate, if_pos (saysNothing_iff.2 hs)]
  · rw [f.context_date globals hdate, if_neg fun h => hs (saysNothing_iff.1 h)]
  · exact f.context_other globals (fun h => hname (List.mem_append_left _ h)) fun h =>
      hname (List.mem_append_right ownNames h)
  · have hsame := get?_context_congr hpath hstat hmeta globals
    exact ⟨hsame, fun hf hg => (sorted_context hg globals).ext (sorted_context hf globals) hsame⟩

/-- Metadata that claim another name for their file; a zero speaks, and an empty text does not. -/
theorem context_merge_spoofed :
    let stat := FileStat.at .epoch
    let f : ContentFile := ⟨.ofText "site/index.html", .absent, some [("filename", .text "spoofed"), ("published", .int 0),
      ("title", .text "T"), ("updated", .text "")], stat⟩
    let g : ContentFile := ⟨.ofText "site/index.html", .stream, some [("published", .int 0), ("stats", .null),
      ("title", .text "T"), ("updated", .text "")], stat⟩
    Table.get? (f.context []) "filename" = some (.text "site/index.html") ∧
    Table.get? (f.context []) "published" = some (.int 0) ∧
    Table.get? (f.context []) "updated" = some (.text "1970-01-01T00:00:00+00:00") ∧
    Table.get? (f.context []) "title" = some (.text "T") ∧ g.context [] = f.context [] := by
  intro stat f g
  obtain ⟨hfilename, -, -, hdates, hother, -, hsame⟩ := context_merge f []
  have hupdated : Moment.rfc3339 .epoch = "1970-01-01T00:00:00+00:00" := by decide +kernel
  have htext : f.path.text = "site/index.html" := by decide +kernel
  refine ⟨by rw [hfilename, htext], ?_, ?_, hother "title" (by decide), ?_⟩
  · exact (hdates "published" .epoch (by simp [f, stat, FileStat.at])).2 (by simp [f, metadata, Table.get?])
  · rw [← hupdated]
    exact (hdates "updated" .epoch (by simp [f, stat, FileStat.at])).1 (by simp [f, metadata, Table.get?])
  · refine (hsame g rfl rfl ?_).2 (by unfold Table.Sorted; decide) (by unfold Table.Sorted; decide)
    intro name hname
    simp only [List.mem_cons, List.not_mem_nil, or_false, not_or] at hname
    simp [f, g, metadata, Table.get?, Ne.symm hname.1, Ne.symm hname.2.1]

end ContentFile
end Folio
