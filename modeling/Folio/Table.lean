/-!
# Tables

A table is a finite map from names to values, kept as a list whose names rise strictly in the order of their code
points.  That order is the one in which a table is listed and printed.  The last value given to a name stands
(`get?_insert`), and inserting keeps the order (`Sorted.insert`).
-/
namespace Folio

abbrev Table (α : Type) := List (String × α)

namespace Table

variable {α : Type}

def get? : List (String × α) → String → Option α
  | [], _ => none
  | (k, v) :: t, name => if k = name then some v else get? t name

def insert (name : String) (value : α) : List (String × α) → List (String × α)
  | [] => [(name, value)]
  | (k, v) :: t =>
    if name < k then (name, value) :: (k, v) :: t
    else if name = k then (name, value) :: t
    else (k, v) :: insert name value t

/-- The entries of `newer` win. -/
def merge (newer older : List (String × α)) : List (String × α) :=
  newer.foldl (fun t e => insert e.1 e.2 t) older

/-- The table of a list of entries, of which the later ones win. -/
def ofEntries (entries : List (String × α)) : List (String × α) := merge entries []

def names (t : List (String × α)) : List String := t.map (·.1)

def contains (t : List (String × α)) (name : String) : Bool := (get? t name).isSome

/-- The names rise strictly. -/
def Sorted (t : List (String × α)) : Prop := (names t).Pairwise (· < ·)

theorem mem_names_iff {name : String} : ∀ {t : List (String × α)}, name ∈ names t ↔ (get? t name).isSome = true
  | [] => by simp [names, get?]
  | (k, v) :: t => by
    have ih : name ∈ t.map (·.1) ↔ (get? t name).isSome = true := mem_names_iff
    by_cases h : k = name
    · simp [names, get?, h]
    · simp [names, get?, h, Ne.symm h, ih]

theorem get?_eq_none_iff {t : List (String × α)} {name : String} : get? t name = none ↔ name ∉ names t := by
  rw [mem_names_iff, Bool.not_eq_true, Option.isSome_eq_false_iff, Option.isNone_iff_eq_none]

theorem get?_insert (t : List (String × α)) (name : String) (value : α) (other : String) :
    get? (insert name value t) other = if name = other then some value else get? t other := by
  induction t with
  | nil => rfl
  | cons e t ih =>
    obtain ⟨k, v⟩ := e
    unfold insert
    split
    · rfl
    · split
      · rename_i h
        subst h
        by_cases h : name = other <;> simp [get?, h]
      · rename_i hne
        by_cases hk : k = other
        · subst hk
          simp [get?, hne]
        · simp [get?, hk, ih]

theorem mem_names_insert (t : List (String × α)) (name : String) (value : α) (other : String) :
    other ∈ names (insert name value t) ↔ other = name ∨ other ∈ names t := by
  induction t with
  | nil => simp [insert, names]
  | cons e t ih =>
    obtain ⟨k, v⟩ := e
    unfold insert
    split
    · simp [names]
    · split
      · rename_i h
        subst h
        simp [names]
      · have : other ∈ (insert name value t).map (·.1) ↔ other = name ∨ other ∈ t.map (·.1) := ih
        simp only [names, List.map_cons, List.mem_cons, this]
        exact or_left_comm

theorem Sorted.insert {t : List (String × α)} (h : Sorted t) (name : String) (value : α) :
    Sorted (insert name value t) := by
  induction t with
  | nil => exact List.pairwise_singleton _ _
  | cons e t ih =>
    obtain ⟨k, v⟩ := e
    obtain ⟨hk, ht⟩ := List.pairwise_cons.1 h
    unfold Table.insert
    split
    · rename_i hlt
      refine List.pairwise_cons.2 ⟨fun a ha => ?_, h⟩
      rcases List.mem_cons.1 ha with rfl | ha
      · exact hlt
      · exact String.lt_trans hlt (hk a ha)
    · split
      · rename_i he
        subst he
        exact List.pairwise_cons.2 ⟨hk, ht⟩
      · rename_i hlt hne
        refine List.pairwise_cons.2 ⟨fun a ha => ?_, ih ht⟩
        rcases (mem_names_insert t name value a).1 ha with rfl | ha
        · exact Decidable.byContradiction fun hl =>
            hne (String.le_antisymm (String.not_lt.1 hl) (String.not_lt.1 hlt))
        · exact hk a ha

end Table
end Folio
