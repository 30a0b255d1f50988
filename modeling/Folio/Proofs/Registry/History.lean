import Mathlib.Data.Set.Card
import Folio.Proofs.Text.Order
import Folio.Table
/-!
# Histories of tables

A table comes about by changes: a name is given a value, or another table is merged in.  After any history a name has
what the last change that speaks of it gave to it, and else what it had at the start (`get?_after`).  A sorted table is
known by what its names have (`Sorted.ext`), so all of its views agree with that (`Shows`).
-/
namespace Folio.Table

variable {α : Type}

namespace Sorted

variable {k : String} {v : α} {s t : List (String × α)}

theorem tail (h : Sorted ((k, v) :: t)) : Sorted t := (List.pairwise_cons.1 h).2

theorem get?_head_tail (h : Sorted ((k, v) :: t)) : get? t k = none := by
  rw [get?_eq_none_iff]
  intro hmem
  exact String.lt_irrefl k ((List.pairwise_cons.1 h).1 k hmem)

theorem lt_of_get? (h : Sorted ((k, v) :: t)) {name : String} (hname : (get? t name).isSome = true) : k < name :=
  (List.pairwise_cons.1 h).1 name (mem_names_iff.2 hname)

/-- Two sorted tables with the same entries start with the same name. -/
theorem head_le {k' : String} {v' : α} (ht : Sorted ((k', v') :: t))
    (h : ∀ name, get? ((k, v) :: s) name = get? ((k', v') :: t) name) : k' ≤ k := by
  have hk := h k
  rw [get?, if_pos rfl] at hk
  unfold get? at hk
  split at hk
  · rename_i heq
    exact heq ▸ String.le_refl k'
  · have hlt : k' < k := ht.lt_of_get? (by rw [← hk]; rfl)
    exact String.not_lt.1 (String.lt_asymm hlt)

/-- **Sorted tables with the same entries are the same.** -/
theorem ext : ∀ {s t : List (String × α)}, Sorted s → Sorted t → (∀ name, get? s name = get? t name) → s = t
  | [], [], _, _, _ => rfl
  | [], (k, v) :: t, _, _, h => by simpa [get?] using h k
  | (k, v) :: s, [], _, _, h => by simpa [get?] using h k
  | (k, v) :: s, (k', v') :: t, hs, ht, h => by
    obtain rfl : k = k' := String.le_antisymm (hs.head_le fun name => (h name).symm) (ht.head_le h)
    obtain rfl : v = v' := by simpa [get?] using h k
    have hrest : ∀ name, get? s name = get? t name := by
      intro name
      by_cases hname : k = name
      · rw [← hname, hs.get?_head_tail, ht.get?_head_tail]
      · simpa [get?, hname] using h name
    rw [ext hs.tail ht.tail hrest]

theorem merge : ∀ {t : List (String × α)}, Sorted t → ∀ s : List (String × α), Sorted (Table.merge s t)
  | _, h, [] => h
  | _, h, (k, v) :: s => (h.insert k v).merge s

theorem nil : Sorted ([] : List (String × α)) := List.Pairwise.nil

theorem nodup (h : Sorted t) : (names t).Nodup := h.imp fun hlt => fun heq => String.lt_irrefl _ (heq ▸ hlt)

end Sorted

/-! ## Entries -/

/-- Where no name is listed twice, a table has its entries. -/
theorem get?_eq_some_iff : ∀ {t : List (String × α)} (_ : (names t).Nodup) {name : String} {value : α},
    get? t name = some value ↔ (name, value) ∈ t
  | [], _, _, _ => by simp [get?]
  | (k, v) :: t, h, name, value => by
    obtain ⟨hk, ht⟩ := List.nodup_cons.1 h
    have ih : get? t name = some value ↔ (name, value) ∈ t := get?_eq_some_iff ht
    by_cases hname : k = name
    · have hnone : (name, value) ∉ t := fun hmem => hk (hname ▸ List.mem_map_of_mem (f := (·.1)) hmem)
      simp [get?, hname, hnone, eq_comm]
    · simp [get?, hname, ih, Ne.symm hname]

theorem get?_eq_of_perm {s t : List (String × α)} (h : s.Perm t) (ht : (names t).Nodup) (name : String) :
    get? s name = get? t name := by
  have hs : (names s).Nodup := (h.map Prod.fst).nodup_iff.2 ht
  refine Option.ext fun value => ?_
  rw [get?_eq_some_iff hs, get?_eq_some_iff ht, h.mem_iff]

/-- The last entry that a list has for a name. -/
def lastOf? (entries : List (String × α)) (name : String) : Option α :=
  (entries.filter (·.1 = name)).getLast?.map (·.2)

theorem lastOf?_cons (e : String × α) (entries : List (String × α)) (name : String) :
    lastOf? (e :: entries) name = (lastOf? entries name).or (if e.1 = name then some e.2 else none) := by
  unfold lastOf?
  by_cases hname : e.1 = name
  · rw [if_pos hname, List.filter_cons_of_pos (by simpa using hname), List.getLast?_cons]
    cases (entries.filter (·.1 = name)).getLast? <;> rfl
  · rw [if_neg hname, List.filter_cons_of_neg (by simpa using hname), Option.or_none]

theorem lastOf?_of_nodup : ∀ {t : List (String × α)}, (names t).Nodup → ∀ name : String, lastOf? t name = get? t name
  | [], _, _ => rfl
  | (k, v) :: t, h, name => by
    obtain ⟨hk, ht⟩ := List.nodup_cons.1 h
    rw [lastOf?_cons, lastOf?_of_nodup ht, get?]
    by_cases hname : k = name
    · rw [← hname, get?_eq_none_iff.2 hk]
      rfl
    · rw [if_neg hname, if_neg hname, Option.or_none]

/-! ## Merging -/

section
variable {a b c : List (String × α)}

/-- **Merging gives each name its last entry**, and leaves the others what they had. -/
theorem get?_merge_entries (name : String) : ∀ entries t : List (String × α),
    get? (merge entries t) name = (lastOf? entries name).or (get? t name)
  | [], _ => rfl
  | e :: entries, t => by
    show get? (merge entries (insert e.1 e.2 t)) name = _
    rw [get?_merge_entries name entries, get?_insert, lastOf?_cons, Option.or_assoc]
    split <;> rfl

theorem get?_merge_of_nodup {s : List (String × α)} (hs : (names s).Nodup) (t : List (String × α)) (name : String) :
    get? (merge s t) name = (get? s name).or (get? t name) := by
  rw [get?_merge_entries, lastOf?_of_nodup hs]

theorem get?_merge {s : List (String × α)} (hs : Sorted s) (t : List (String × α)) (name : String) :
    get? (merge s t) name = (get? s name).or (get? t name) := get?_merge_of_nodup hs.nodup t name

/-- **Merging is associative.** -/
theorem merge_assoc (ha : Sorted a) (hb : Sorted b) (hc : Sorted c) : merge c (merge b a) = merge (merge c b) a := by
  refine ((ha.merge b).merge c).ext (ha.merge _) fun name => ?_
  rw [get?_merge hc, get?_merge hb, get?_merge (hb.merge c), get?_merge hc, Option.or_assoc]

theorem merge_nil (ha : Sorted a) : merge a [] = a := by
  refine Sorted.ext (Sorted.nil.merge a) ha fun name => ?_
  rw [get?_merge ha, get?, Option.or_none]

/-- **A table comes about from its entries in any order.** -/
theorem ofEntries_of_perm (ha : Sorted a) (h : b.Perm a) : ofEntries b = a := by
  refine (Sorted.nil.merge b).ext ha fun name => ?_
  rw [get?_merge_of_nodup ((h.map Prod.fst).nodup_iff.2 ha.nodup), get?, Option.or_none, get?_eq_of_perm h ha.nodup]

end

/-! ## Changes -/

/-- One change of a table. -/
inductive Change (α : Type) where
  | insert (name : String) (value : α)
  /-- The entries of the other table win. -/
  | merge (other : List (String × α)) (sorted : Sorted other)

namespace Change

def apply (t : List (String × α)) : Change α → List (String × α)
  | .insert name value => Table.insert name value t
  | .merge other _ => Table.merge other t

/-- What a change gives to a name. -/
def given? (name : String) : Change α → Option α
  | .insert given value => if given = name then some value else none
  | .merge other _ => get? other name

theorem get?_apply (t : List (String × α)) (c : Change α) (name : String) :
    get? (c.apply t) name = (c.given? name).or (get? t name) := by
  cases c with
  | insert given value =>
    rw [apply, given?, get?_insert]
    split <;> rfl
  | merge other sorted => exact get?_merge sorted t name

theorem sorted_apply {t : List (String × α)} (h : Sorted t) (c : Change α) : Sorted (c.apply t) := by
  cases c with
  | insert name value => exact h.insert name value
  | merge other _ => exact h.merge other

end Change

/-- A table after a history. -/
def after (t : List (String × α)) (changes : List (Change α)) : List (String × α) := changes.foldl Change.apply t

/-- What the last change gave to a name that gave anything to it. -/
def lastGiven (changes : List (Change α)) (name : String) : Option α := changes.reverse.findSome? (·.given? name)

theorem lastGiven_cons (c : Change α) (changes : List (Change α)) (name : String) :
    lastGiven (c :: changes) name = (lastGiven changes name).or (c.given? name) := by
  unfold lastGiven
  rw [List.reverse_cons, List.findSome?_append, List.findSome?_cons, List.findSome?_nil]
  cases c.given? name <;> rfl

/-- **The last change of a name stands.** -/
theorem get?_after : ∀ (changes : List (Change α)) (t : List (String × α)) (name : String),
    get? (after t changes) name = (lastGiven changes name).or (get? t name)
  | [], _, _ => rfl
  | c :: changes, t, name => by
    show get? (after (c.apply t) changes) name = _
    rw [get?_after changes, Change.get?_apply, lastGiven_cons, Option.or_assoc]

theorem sorted_after : ∀ (changes : List (Change α)) {t : List (String × α)}, Sorted t → Sorted (after t changes)
  | [], _, h => h
  | c :: changes, _, h => sorted_after changes (Change.sorted_apply h c)

/-! ## The map of a table -/

/-- All views of a table agree with a map. -/
structure Shows (t : List (String × α)) (map : String → Option α) : Prop where
  get? : ∀ name, Table.get? t name = map name
  contains : ∀ name, Table.contains t name = (map name).isSome
  listed : ∀ name, name ∈ names t ↔ (map name).isSome = true
  /-- In the order of octets. -/
  rising : (names t).Pairwise fun a b => Bytes.ofText a < Bytes.ofText b
  nodup : (names t).Nodup
  length : t.length = {name | (map name).isSome = true}.ncard
  isEmpty : t.isEmpty = true ↔ ∀ name, map name = none

theorem Sorted.shows {t : List (String × α)} (h : Sorted t) : Shows t (Table.get? t) where
  get? _ := rfl
  contains _ := rfl
  listed _ := mem_names_iff
  rising := h.imp Bytes.ofText_lt
  nodup := h.nodup
  length := by
    have hset : {name | (Table.get? t name).isSome = true} = ((names t).toFinset : Set String) := by
      ext name
      rw [Set.mem_ofPred_eq, ← mem_names_iff, Finset.mem_coe, List.mem_toFinset]
    rw [hset, Set.ncard_coe_finset, List.toFinset_card_of_nodup h.nodup, names, List.length_map]
  isEmpty := by
    constructor
    · intro hempty name
      rw [List.isEmpty_iff.1 hempty]
      rfl
    · intro hnone
      cases t with
      | nil => rfl
      | cons e t =>
        have hhead := hnone e.1
        rw [Table.get?, if_pos rfl] at hhead
        cases hhead

theorem shows_after {t : List (String × α)} (h : Sorted t) (changes : List (Change α)) :
    Shows (after t changes) fun name => (lastGiven changes name).or (Table.get? t name) := by
  have hshows := (sorted_after changes h).shows
  have hmap : Table.get? (after t changes) = fun name => (lastGiven changes name).or (Table.get? t name) :=
    funext fun name => get?_after changes t name
  rwa [hmap] at hshows

end Folio.Table
