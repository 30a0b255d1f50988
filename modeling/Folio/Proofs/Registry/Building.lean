import Folio.Config
import Folio.Proofs.Registry.History
/-!
# Registries of configurations

A configuration is made by calls (`Config.Call`), few of which change its filters or its tags.  So the filters of a
configuration are those that a run starts with after the history of these calls (`filters_foldl_apply`), and likewise the
tags, and no call takes a name away.
-/
namespace Folio

open Table (Change)

theorem Filters.sorted_standard : Table.Sorted Filters.standard := Table.Sorted.nil.merge _

theorem Filters.get?_standard (b : Builtin) : Table.get? Filters.standard b.name = some (.builtin b) := by
  cases b <;> rfl

theorem Filters.isBuiltin_iff {fs : Filters} {name : String} :
    fs.isBuiltin name = true ↔ ∃ b, Table.get? fs name = some (.builtin b) := by
  unfold Filters.isBuiltin
  split
  · rename_i b h
    simp [h]
  · rename_i h
    simp only [Bool.false_eq_true, false_iff, not_exists]
    exact h

theorem Filters.isSome_get?_after_standard (changes : List (Change Filter)) (b : Builtin) :
    (Table.get? (Table.after Filters.standard changes) b.name).isSome = true := by
  rw [Table.get?_after, Filters.get?_standard, Option.isSome_or, Option.isSome_some, Bool.or_true]

/-- A call that changes a configuration. -/
inductive Config.Call where
  | path (p : Path)
  | paths (ps : List Path)
  | filter (name : String) (f : Callable)
  | filters (fs : Filters) (sorted : Table.Sorted fs)
  | tag (name : String) (t : Tag)
  | tags (ts : Tags) (sorted : Table.Sorted ts)
  | variables (globals : Fields)
  | variable (name : String) (d : Datum)
  | failOnError (b : Bool)
  | args (texts : List String)
  | htmlExtensions (extensions : List String)
  | autoescape (b : Bool)
  | root (p : Path)
  | markdown (convert : Converter)
  | dates (format : DateFormatter)

namespace Config.Call

def apply (c : Config) : Call → Config
  | .path p => c.withPath p
  | .paths ps => c.withPaths ps
  | .filter name f => c.withFilter name f
  | .filters fs _ => c.withFilters fs
  | .tag name t => c.withTag name t
  | .tags ts _ => c.withTags ts
  | .variables globals => c.withVariables globals
  | .variable name d => c.withVariable name d
  | .failOnError b => c.withFailOnError b
  | .args texts => c.withArgs texts
  | .htmlExtensions extensions => c.withHtmlExtensions extensions
  | .autoescape b => c.withAutoescape b
  | .root p => c.withRoot p
  | .markdown convert => c.withMarkdown convert
  | .dates format => c.withDates format

/-- What a call changes in the filters. -/
def filterChange? : Call → Option (Change Filter)
  | .filter name f => some (.insert name (.custom f))
  | .filters fs sorted => some (.merge fs sorted)
  | _ => none

/-- What a call changes in the tags. -/
def tagChange? : Call → Option (Change Tag)
  | .tag name t => some (.insert name t)
  | .tags ts sorted => some (.merge ts sorted)
  | _ => none

theorem filters_apply (c : Config) (call : Call) :
    (call.apply c).filters = Table.after c.filters call.filterChange?.toList := by
  cases call <;> rfl

theorem tags_apply (c : Config) (call : Call) : (call.apply c).tags = Table.after c.tags call.tagChange?.toList := by
  cases call <;> rfl

end Config.Call

/-- A configuration after calls. -/
def Config.after (c : Config) (calls : List Config.Call) : Config := calls.foldl Config.Call.apply c

namespace Config

theorem filters_after : ∀ (calls : List Call) (c : Config),
    (c.after calls).filters = Table.after c.filters (calls.filterMap Call.filterChange?)
  | [], _ => rfl
  | call :: calls, c => by
    show ((call.apply c).after calls).filters = _
    rw [filters_after calls, Call.filters_apply, List.filterMap_cons]
    cases call.filterChange? <;> rfl

theorem tags_after : ∀ (calls : List Call) (c : Config),
    (c.after calls).tags = Table.after c.tags (calls.filterMap Call.tagChange?)
  | [], _ => rfl
  | call :: calls, c => by
    show ((call.apply c).after calls).tags = _
    rw [tags_after calls, Call.tags_apply, List.filterMap_cons]
    cases call.tagChange? <;> rfl

end Config
end Folio
