import Mathlib.Logic.Relation
import Folio.Proofs.Paths.Parts
import Folio.Template.Library
/-!
# Folding paths away

Parts stay below where they start if they have no root and nowhere more `..` than names before it.  Climbing from nothing
fails for all other parts (`foldlM_climb_eq_none_iff`), and leaves what is left when every `..` takes away the name in
front of it (`foldlM_climb_eq_some_iff`).

On top of a directory, parts that stay below lead to names in it (`inside_join_of_climb`); in the working directory no others
do (`foldlM_climb_of_settle`).
-/
namespace Folio.Path

open Template (climb)

def Part.isName : Part → Bool
  | .name _ => true
  | _ => false

/-- Somewhere there have been more `..` than names, with `k` names to start with. -/
def ClimbsOut (k : Nat) (ps : List Part) : Prop :=
  ∃ pre, pre <+: ps ∧ k + pre.countP Part.isName < pre.count .up

/-- No root, and up to no place more `..` than names. -/
structure StaysBelow (ps : List Part) : Prop where
  rootless : .root ∉ ps
  balanced : ∀ pre, pre <+: ps → pre.count .up ≤ pre.countP Part.isName

/-- Takes away a `.`, or a `..` with the name in front of it. -/
inductive Cancels : List Part → List Part → Prop where
  | here (before after : List Part) : Cancels (before ++ .here :: after) (before ++ after)
  | up (before : List Part) (name : Bytes) (after : List Part) :
    Cancels (before ++ .name name :: .up :: after) (before ++ after)

/-! ## Climbing -/

section
variable (k : Nat) (ps : List Part)

theorem not_climbsOut_nil : ¬ ClimbsOut k [] := by
  rintro ⟨pre, hpre, hlt⟩
  rw [List.prefix_nil.1 hpre] at hlt
  simp at hlt

theorem climbsOut_cons (p : Part) : ClimbsOut k (p :: ps) ↔
    ∃ pre, pre <+: ps ∧ k + (p :: pre).countP Part.isName < (p :: pre).count .up := by
  constructor
  · rintro ⟨pre, hpre, hlt⟩
    cases pre with
    | nil => simp at hlt
    | cons q pre =>
      obtain ⟨rfl, htail⟩ := List.cons_prefix_cons.1 hpre
      exact ⟨pre, htail, hlt⟩
  · rintro ⟨pre, hpre, hlt⟩
    exact ⟨p :: pre, by simpa using hpre, hlt⟩

theorem climbsOut_here : ClimbsOut k (.here :: ps) ↔ ClimbsOut k ps := by
  rw [climbsOut_cons]
  simp [ClimbsOut, Part.isName]

theorem climbsOut_name (n : Bytes) : ClimbsOut k (.name n :: ps) ↔ ClimbsOut (k + 1) ps := by
  rw [climbsOut_cons]
  simp only [ClimbsOut, List.countP_cons, List.count_cons, Part.isName]
  simp [Nat.add_assoc, Nat.add_comm 1]

theorem climbsOut_up_zero : ClimbsOut 0 (.up :: ps) :=
  ⟨[.up], by simp, by simp [Part.isName]⟩

theorem climbsOut_up_succ : ClimbsOut (k + 1) (.up :: ps) ↔ ClimbsOut k ps := by
  rw [climbsOut_cons]
  simp only [ClimbsOut, List.countP_cons, List.count_cons, Part.isName]
  simp
  constructor
  · rintro ⟨pre, hpre, hlt⟩
    exact ⟨pre, hpre, by omega⟩
  · rintro ⟨pre, hpre, hlt⟩
    exact ⟨pre, hpre, by omega⟩

end

theorem staysBelow_iff {ps : List Part} : StaysBelow ps ↔ .root ∉ ps ∧ ¬ ClimbsOut 0 ps := by
  constructor
  · intro h
    refine ⟨h.rootless, ?_⟩
    rintro ⟨pre, hpre, hlt⟩
    have := h.balanced pre hpre
    omega
  · rintro ⟨hroot, hbal⟩
    refine ⟨hroot, fun pre hpre => ?_⟩
    by_contra hlt
    exact hbal ⟨pre, hpre, by omega⟩

theorem climb_name (names : List Bytes) (n : Bytes) : climb names (.name n) = some (names ++ [n]) := rfl

theorem climb_up_concat (names : List Bytes) (n : Bytes) : climb (names ++ [n]) .up = some names := by
  simp [climb]

/-- **Climbing fails** at a root, and where there are more `..` than names. -/
theorem foldlM_climb_eq_none_iff : ∀ (ps : List Part) (names : List Bytes),
    ps.foldlM climb names = none ↔ .root ∈ ps ∨ ClimbsOut names.length ps
  | [], names => by simp [not_climbsOut_nil]
  | .root :: ps, names => by simp [climb]
  | .here :: ps, names => by
    have ih := foldlM_climb_eq_none_iff ps names
    simp [climb, ih, climbsOut_here]
  | .name n :: ps, names => by
    have ih := foldlM_climb_eq_none_iff ps (names ++ [n])
    rw [List.length_append, List.length_singleton] at ih
    simp [climb, ih, climbsOut_name]
  | .up :: ps, names => by
    rcases List.eq_nil_or_concat names with rfl | ⟨names, n, rfl⟩
    · simp [climb, climbsOut_up_zero]
    · have ih := foldlM_climb_eq_none_iff ps names
      rw [List.concat_eq_append, List.foldlM_cons, climb_up_concat, List.length_append, List.length_singleton,
        climbsOut_up_succ]
      simp [ih]

/-- **Climbing succeeds for the parts that stay below.** -/
theorem exists_foldlM_climb_iff {ps : List Part} : (∃ names, ps.foldlM climb [] = some names) ↔ StaysBelow ps := by
  rw [staysBelow_iff, ← not_or, ← List.length_nil (α := Bytes), ← foldlM_climb_eq_none_iff ps [], ← ne_eq,
    Option.ne_none_iff_exists']

/-- What is left is counted: the names without those that were taken away. -/
theorem length_of_foldlM_climb : ∀ (ps : List Part) (names left : List Bytes), ps.foldlM climb names = some left →
    left.length + ps.count .up = names.length + ps.countP Part.isName
  | [], names, left, h => by
    obtain rfl : names = left := by simpa using h
    simp
  | .root :: ps, names, left, h => by simp [climb] at h
  | .here :: ps, names, left, h => by
    have ih := length_of_foldlM_climb ps names left (by simpa [climb] using h)
    simpa [Part.isName] using ih
  | .name n :: ps, names, left, h => by
    have ih := length_of_foldlM_climb ps (names ++ [n]) left (by simpa [climb] using h)
    rw [List.length_append, List.length_singleton] at ih
    rw [List.countP_cons_of_pos rfl, List.count_cons_of_ne (by simp)]
    omega
  | .up :: ps, names, left, h => by
    rcases List.eq_nil_or_concat names with rfl | ⟨names, n, rfl⟩
    · simp [climb] at h
    · rw [List.concat_eq_append, List.foldlM_cons, climb_up_concat] at h
      have ih := length_of_foldlM_climb ps names left (by simpa using h)
      rw [List.concat_eq_append, List.length_append, List.length_singleton, List.countP_cons_of_neg (by simp [Part.isName]),
        List.count_cons_self]
      omega

/-- **Where climbing succeeds, going on from anywhere does the same**, for steps that add a name at the end, take one away
at a `..`, and stay at a `.`. -/
theorem foldl_of_climb {β : Type} {step : β → Part → β} (on : List Bytes → β) (hhere : ∀ b, step b .here = b)
    (hname : ∀ names n, step (on names) (.name n) = on (names ++ [n]))
    (hup : ∀ names n, step (on (names ++ [n])) .up = on names) :
    ∀ {ps : List Part} {names left : List Bytes}, ps.foldlM climb names = some left → ps.foldl step (on names) = on left
  | [], names, left, h => by
    obtain rfl : names = left := by simpa using h
    rfl
  | .root :: ps, names, left, h => by simp [climb] at h
  | .here :: ps, names, left, h => by
    rw [List.foldl_cons, hhere]
    exact foldl_of_climb on hhere hname hup (by simpa [climb] using h)
  | .name n :: ps, names, left, h => by
    rw [List.foldl_cons, hname]
    exact foldl_of_climb on hhere hname hup (by simpa [climb] using h)
  | .up :: ps, names, left, h => by
    rcases List.eq_nil_or_concat names with rfl | ⟨names, n, rfl⟩
    · simp [climb] at h
    · rw [List.concat_eq_append, List.foldlM_cons, climb_up_concat] at h
      rw [List.concat_eq_append, List.foldl_cons, hup]
      exact foldl_of_climb on hhere hname hup (by simpa using h)

/-- So it is with steps on parts, behind any parts. -/
theorem foldl_append_of_climb {step : List Part → Part → List Part} (hhere : ∀ out, step out .here = out)
    (hname : ∀ out n, step out (.name n) = out ++ [.name n]) (hup : ∀ out n, step (out ++ [.name n]) .up = out)
    {ps : List Part} {names : List Bytes} (out : List Part) (h : ps.foldlM climb [] = some names) :
    ps.foldl step out = out ++ names.map .name := by
  have hbehind : ps.foldl step (out ++ [].map .name) = out ++ names.map .name := by
    refine foldl_of_climb (fun names => out ++ names.map .name) hhere (fun names n => ?_) (fun names n => ?_) h
    · rw [hname, List.map_append, List.append_assoc]
      rfl
    · rw [List.map_append, ← List.append_assoc]
      exact hup _ n
  rwa [List.map_nil, List.append_nil] at hbehind

/-- **Where climbing fails** without a root, it comes to a `..` with no name left. -/
theorem exists_up_of_climb_eq_none : ∀ {ps : List Part} {names : List Bytes}, .root ∉ ps →
    ps.foldlM climb names = none → ∃ pre post, ps = pre ++ .up :: post ∧ pre.foldlM climb names = some []
  | [], names, _, h => by simp at h
  | .root :: ps, names, hroot, _ => absurd List.mem_cons_self hroot
  | .here :: ps, names, hroot, h => by
    obtain ⟨pre, post, rfl, hpre⟩ :=
      exists_up_of_climb_eq_none (fun hm => hroot (List.mem_cons_of_mem _ hm)) (by simpa [climb] using h)
    exact ⟨.here :: pre, post, rfl, by simpa [climb] using hpre⟩
  | .name n :: ps, names, hroot, h => by
    have hrest : ps.foldlM climb (names ++ [n]) = none := by simpa [climb] using h
    obtain ⟨pre, post, rfl, hpre⟩ :=
      exists_up_of_climb_eq_none (fun hm => hroot (List.mem_cons_of_mem _ hm)) hrest
    exact ⟨.name n :: pre, post, rfl, by simpa [climb] using hpre⟩
  | .up :: ps, names, hroot, h => by
    rcases List.eq_nil_or_concat names with rfl | ⟨names, n, rfl⟩
    · exact ⟨[], ps, rfl, rfl⟩
    · rw [List.concat_eq_append] at h ⊢
      rw [List.foldlM_cons, climb_up_concat] at h
      obtain ⟨pre, post, rfl, hpre⟩ :=
        exists_up_of_climb_eq_none (fun hm => hroot (List.mem_cons_of_mem _ hm)) (by simpa using h)
      refine ⟨.up :: pre, post, rfl, ?_⟩
      rw [List.foldlM_cons, climb_up_concat]
      exact hpre

/-! ## Cancelling -/

theorem foldlM_climb_of_cancels {ps qs : List Part} (h : Cancels ps qs) (names : List Bytes) :
    ps.foldlM climb names = qs.foldlM climb names := by
  cases h with
  | here before after =>
    rw [List.foldlM_append, List.foldlM_append]
    congr 1
  | up before n after =>
    rw [List.foldlM_append, List.foldlM_append]
    congr 1
    funext names
    rw [List.foldlM_cons, climb_name, Option.bind_eq_bind, Option.bind_some, List.foldlM_cons, climb_up_concat,
      Option.bind_eq_bind, Option.bind_some]

theorem foldlM_climb_of_reflTransGen {ps qs : List Part} (h : Relation.ReflTransGen Cancels ps qs)
    (names : List Bytes) : ps.foldlM climb names = qs.foldlM climb names := by
  induction h with
  | refl => rfl
  | tail _ hstep ih => rw [ih, foldlM_climb_of_cancels hstep]

theorem foldlM_climb_names (names before : List Bytes) :
    (names.map Part.name).foldlM climb before = some (before ++ names) := by
  induction names generalizing before with
  | nil => simp
  | cons n names ih =>
    rw [List.map_cons, List.foldlM_cons, climb_name, Option.bind_eq_bind, Option.bind_some, ih]
    simp

theorem cancels_of_foldlM_climb : ∀ (ps : List Part) (names left : List Bytes), ps.foldlM climb names = some left →
    Relation.ReflTransGen Cancels (names.map .name ++ ps) (left.map .name)
  | [], names, left, h => by
    obtain rfl : names = left := by simpa using h
    simp [Relation.ReflTransGen.refl]
  | .root :: ps, names, left, h => by simp [climb] at h
  | .here :: ps, names, left, h => by
    have ih := cancels_of_foldlM_climb ps names left (by simpa [climb] using h)
    exact ih.head (.here _ _)
  | .name n :: ps, names, left, h => by
    have ih := cancels_of_foldlM_climb ps (names ++ [n]) left (by simpa [climb] using h)
    simpa using ih
  | .up :: ps, names, left, h => by
    rcases List.eq_nil_or_concat names with rfl | ⟨names, n, rfl⟩
    · simp [climb] at h
    · rw [List.concat_eq_append] at h ⊢
      rw [List.foldlM_cons, climb_up_concat] at h
      have ih := cancels_of_foldlM_climb ps names left (by simpa using h)
      rw [List.map_append, List.append_assoc]
      exact ih.head (.up _ n _)

/-- **What climbing leaves is what cancelling leaves** when only names are left. -/
theorem foldlM_climb_eq_some_iff {ps : List Part} {names : List Bytes} :
    ps.foldlM climb [] = some names ↔ Relation.ReflTransGen Cancels ps (names.map .name) := by
  constructor
  · intro h
    exact cancels_of_foldlM_climb ps [] names h
  · intro h
    rw [foldlM_climb_of_reflTransGen h, foldlM_climb_names, List.nil_append]

/-! ## On top of a directory -/

/-- One part onto the settled ones: a `..` takes a name away, stays where there is none, and does nothing at the root. -/
def settle (out : List Part) : Part → List Part
  | .here => out
  | .root => [.root]
  | .up =>
    match out.getLast? with
    | some (.name _) => out.dropLast
    | some .root => out
    | _ => out ++ [.up]
  | .name n => out ++ [.name n]

/-- The parts of a path with every `.` and `..` folded away that can be. -/
def settled (p : Path) : List Part := p.parts.foldl settle []

/-- What settles to the parts of a directory and at least one name after them. -/
def Inside (p dir : Path) : Prop := ∃ names : List Bytes, names ≠ [] ∧ p.settled = dir.settled ++ names.map .name

theorem settle_concat_name (out : List Part) (n : Bytes) : settle (out ++ [.name n]) .up = out := by
  simp [settle]

/-- **Joining goes on settling** where the first path ends. -/
theorem settled_join (p q : Path) : (p.join q).settled = q.parts.foldl settle p.settled :=
  foldl_parts_join (fun _ => rfl) (fun _ _ => rfl) p q []

theorem foldl_settle_of_climb {ps : List Part} {names : List Bytes} (out : List Part)
    (h : ps.foldlM climb [] = some names) : ps.foldl settle out = out ++ names.map .name :=
  foldl_append_of_climb (fun _ => rfl) (fun _ _ => rfl) settle_concat_name out h

theorem settled_of_climb {p : Path} {names : List Bytes} (h : p.parts.foldlM climb [] = some names) :
    p.settled = names.map .name :=
  foldl_settle_of_climb [] h

theorem inside_join_of_climb {p : Path} {names : List Bytes} (dir : Path) (h : p.parts.foldlM climb [] = some names)
    (hne : names ≠ []) : (dir.join p).Inside dir :=
  ⟨names, hne, by rw [settled_join, foldl_settle_of_climb _ h]⟩

/-- A root, or a `..` without a name before it, stays in front for good. -/
theorem head?_foldl_settle : ∀ (ps out : List Part), out.head? = some .root ∨ out.head? = some .up →
    (ps.foldl settle out).head? = some .root ∨ (ps.foldl settle out).head? = some .up
  | [], _, h => h
  | p :: ps, out, h => by
    refine head?_foldl_settle ps _ ?_
    obtain ⟨q, out, rfl⟩ : ∃ q rest, out = q :: rest := by
      cases out with
      | nil => simp at h
      | cons q rest => exact ⟨q, rest, rfl⟩
    cases p with
    | root => exact Or.inl rfl
    | here => exact h
    | name n => exact h
    | up =>
      rcases List.eq_nil_or_concat out with rfl | ⟨out, r, rfl⟩
      · rcases h with h | h
        all_goals
          obtain rfl := Option.some.inj h
          simp [settle]
      · rw [List.concat_eq_append, ← List.cons_append, settle, List.getLast?_concat]
        cases r with
        | name n => simpa only [List.dropLast_concat, List.head?_cons] using h
        | root | here | up => exact h

/-- **Only parts that stay below settle to names** when there is nothing to start with. -/
theorem foldlM_climb_of_settle : ∀ (ps : List Part) (names left : List Bytes),
    ps.foldl settle (names.map .name) = left.map .name → ps.foldlM climb names = some left
  | [], names, left, h => by
    have hinj : Function.Injective Part.name := fun _ _ h => Part.name.inj h
    rw [List.foldl_nil] at h
    rw [List.foldlM_nil, List.map_injective_iff.2 hinj h]
    rfl
  | .root :: ps, names, left, h => by
    have hhead := head?_foldl_settle ps [.root] (Or.inl rfl)
    rw [List.foldl_cons, settle] at h
    rw [h, List.head?_map] at hhead
    simp at hhead
  | .here :: ps, names, left, h => by
    have ih := foldlM_climb_of_settle ps names left h
    simpa [climb] using ih
  | .name n :: ps, names, left, h => by
    have ih := foldlM_climb_of_settle ps (names ++ [n]) left (by simpa [settle] using h)
    simpa [climb] using ih
  | .up :: ps, names, left, h => by
    rcases List.eq_nil_or_concat names with rfl | ⟨names, n, rfl⟩
    · have hhead := head?_foldl_settle ps [.up] (Or.inr rfl)
      rw [List.foldl_cons, List.map_nil, show settle [] .up = [.up] from rfl] at h
      rw [h, List.head?_map] at hhead
      simp at hhead
    · rw [List.concat_eq_append, List.map_append, List.foldl_cons, List.map_singleton, settle_concat_name] at h
      have ih := foldlM_climb_of_settle ps names left h
      rw [List.concat_eq_append, List.foldlM_cons, climb_up_concat]
      exact ih

/-- **Parts that stay below and leave a name**, counted. -/
theorem exists_ne_nil_climb_iff {ps : List Part} : (∃ names, names ≠ [] ∧ ps.foldlM climb [] = some names) ↔
    StaysBelow ps ∧ ps.count .up < ps.countP Part.isName := by
  rw [← exists_foldlM_climb_iff]
  constructor
  · rintro ⟨names, hne, h⟩
    have hlength := length_of_foldlM_climb ps [] names h
    have hpos := List.length_pos_of_ne_nil hne
    rw [List.length_nil] at hlength
    exact ⟨⟨names, h⟩, by omega⟩
  · rintro ⟨⟨names, h⟩, hlt⟩
    have hlength := length_of_foldlM_climb ps [] names h
    rw [List.length_nil] at hlength
    refine ⟨names, ?_, h⟩
    rintro rfl
    simp at hlength
    omega

/-- **A path that lies inside of every directory it is joined to** stays below and leaves a name. -/
theorem inside_join_iff (p : Path) : (∀ dir : Path, (dir.join p).Inside dir) ↔
    StaysBelow p.parts ∧ p.parts.count .up < p.parts.countP Part.isName := by
  rw [← exists_ne_nil_climb_iff]
  constructor
  -- The working directory has no names of its own through which a path could come back in.
  · intro h
    obtain ⟨names, hne, hsettled⟩ := h (.ofText ".")
    rw [settled_join, show (Path.ofText ".").settled = [] from rfl, List.nil_append] at hsettled
    exact ⟨names, hne, foldlM_climb_of_settle p.parts [] names hsettled⟩
  · rintro ⟨names, hne, h⟩ dir
    exact inside_join_of_climb dir h hne

end Folio.Path
