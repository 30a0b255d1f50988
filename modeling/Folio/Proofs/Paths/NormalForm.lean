import Folio.Proofs.Paths.Routes
/-!
# Normal forms

The folded parts of a path are the root or nothing, one `..` or nothing, and then names (`NormalForm`): a second `..` takes
the first one back.  They are written so that they are read back as they are (`NormalForm.parts_ofParts`), so a path in
normal form is known by its root, its `..` and its names.

Folding finds nothing to take away in a normal form (`NormalForm.folded_parts`), so a path in normal form is its own normal
form (`normal_normal`).  Behind other parts a relative one is folded as it is only if there are none, or if they are a `..`
and a name that its own `..` takes away (`NormalForm.foldl_fold_eq_iff`).
-/
namespace Folio.Path

open Template (climb)

theorem foldl_fold_of_climb {ps : List Part} {names : List Bytes} (out : List Part)
    (h : ps.foldlM climb [] = some names) : ps.foldl fold out = out ++ names.map .name :=
  foldl_append_of_climb (fun _ => rfl) (fun _ _ => rfl) Route.fold_concat_name out h

theorem foldl_fold_names (out : List Part) (names : List Bytes) :
    (names.map Part.name).foldl fold out = out ++ names.map .name :=
  foldl_fold_of_climb out (foldlM_climb_names names [])

/-- A `..` is left alone just where there was nothing, or a `..` and one more part. -/
theorem fold_up_eq_singleton_iff {out : List Part} :
    fold out .up = [.up] ↔ out = [] ∨ ∃ p, p ≠ .root ∧ out = [.up, p] := by
  constructor
  · intro h
    rcases List.eq_nil_or_concat out with rfl | ⟨out, p, rfl⟩
    · exact .inl rfl
    rw [List.concat_eq_append] at h ⊢
    cases p with
    | root =>
      have hlength := congrArg List.length h
      simp [fold] at hlength
    | here | up | name n =>
      obtain rfl : out = [.up] := by simpa [fold] using h
      exact .inr ⟨_, by simp, rfl⟩
  · rintro (rfl | ⟨p, hp, rfl⟩)
    · rfl
    · cases p with
      | root => exact absurd rfl hp
      | here | up | name n => rfl

/-- What a path folds to: perhaps the root, perhaps one `..`, and names. -/
structure NormalForm where
  rooted : Bool
  up : Bool
  names : List Bytes
  plain : ∀ n ∈ names, IsPlain n

namespace NormalForm

/-- The parts after the root. -/
def steps (f : NormalForm) : List Part := (if f.up then [.up] else []) ++ f.names.map .name

def parts (f : NormalForm) : List Part := (if f.rooted then [.root] else []) ++ f.steps

theorem isStep_of_mem (f : NormalForm) : ∀ p ∈ f.steps, IsStep p := by
  intro p hp
  rcases List.mem_append.1 hp with hp | hp
  · split at hp
    · obtain rfl := List.mem_singleton.1 hp
      exact .up
    · cases hp
  · obtain ⟨n, hn, rfl⟩ := List.mem_map.1 hp
    exact .name (f.plain n hn)

/-- **A normal form is read back as it was written.** -/
theorem parts_ofParts (f : NormalForm) : (ofParts f.parts).parts = f.parts :=
  parts_ofParts_steps f.rooted f.isStep_of_mem

/-- The parts before the names. -/
def front (f : NormalForm) : List Part := (if f.rooted then [.root] else []) ++ if f.up then [.up] else []

theorem parts_eq_front (f : NormalForm) : f.parts = f.front ++ f.names.map .name :=
  (List.append_assoc ..).symm

theorem here_not_mem_parts (f : NormalForm) : .here ∉ f.parts := by
  rw [parts_eq_front, front]
  cases f.rooted <;> cases f.up <;> simp

/-- **After a name there is no `..`.** -/
theorem pairwise_parts (f : NormalForm) : f.parts.Pairwise fun p q => p.isName = true → q ≠ .up := by
  have hfront : f.front.Pairwise fun p q => p.isName = true → q ≠ .up := by
    unfold front
    cases f.rooted <;> cases f.up <;> simp [Part.isName]
  have hnames : (f.names.map Part.name).Pairwise fun p q => p.isName = true → q ≠ .up :=
    List.pairwise_map.2 (List.pairwise_of_forall fun _ _ _ => by simp)
  rw [parts_eq_front]
  refine List.pairwise_append.2 ⟨hfront, hnames, fun p _ q hq _ => ?_⟩
  obtain ⟨n, -, rfl⟩ := List.mem_map.1 hq
  simp

theorem exists_name_of_parts_eq (f : NormalForm) {p : Part} (h : f.parts = [.up, p]) : ∃ n, p = .name n := by
  rw [parts_eq_front, front] at h
  cases hrooted : f.rooted <;> cases hup : f.up
  all_goals simp [hrooted, hup, List.map_eq_cons_iff] at h
  obtain ⟨n, -, rfl⟩ := h
  exact ⟨n, rfl⟩

/-- Folding keeps the names, so all depends on the parts before them. -/
theorem foldl_fold_parts (f : NormalForm) (out : List Part) :
    f.parts.foldl fold out = f.front.foldl fold out ++ f.names.map .name := by
  rw [parts_eq_front, List.foldl_append, foldl_fold_names]

/-- **Folding finds nothing to take away** in a normal form. -/
theorem folded_parts (f : NormalForm) : folded f.parts = f.parts := by
  rw [folded, foldl_fold_parts, parts_eq_front]
  congr 1
  unfold front
  cases f.rooted <;> cases f.up <;> rfl

/-- **Behind the parts of another normal form**, one is folded to itself if it starts at the root, if there are none, or if
its `..` takes away a name that another `..` stands before. -/
theorem foldl_fold_eq_iff (f g : NormalForm) : f.parts.foldl fold g.parts = f.parts ↔
    .root ∈ f.parts ∨ g.parts = [] ∨ ((∃ n, g.parts = [.up, .name n]) ∧ f.parts.head? = some .up) := by
  rw [foldl_fold_parts, f.parts_eq_front, List.append_left_inj, front]
  cases f.rooted with
  | true => exact iff_of_true (by cases f.up <;> rfl) (.inl List.mem_cons_self)
  | false =>
    cases f.up with
    | false => simp
    | true =>
      show fold g.parts .up = [.up] ↔ _
      rw [fold_up_eq_singleton_iff]
      constructor
      · rintro (hnil | ⟨p, -, hg⟩)
        · exact .inr (.inl hnil)
        · obtain ⟨n, rfl⟩ := g.exists_name_of_parts_eq hg
          exact .inr (.inr ⟨⟨n, hg⟩, rfl⟩)
      · rintro (h | hnil | ⟨⟨n, hg⟩, -⟩)
        · simp at h
        · exact .inl hnil
        · exact .inr ⟨.name n, by simp, hg⟩

end NormalForm

/-- **Every path has a normal form.** -/
theorem exists_normalForm (p : Path) : ∃ f : NormalForm, p.normal = ofParts f.parts := by
  refine ⟨⟨p.route.rooted, p.route.climbed % 2 == 1, p.route.names, fun _ => isPlain_of_mem_route⟩, ?_⟩
  rw [normal, folded_eq_route]
  unfold Route.parts Route.opening NormalForm.parts NormalForm.steps
  rw [List.append_assoc]
  rcases Nat.mod_two_eq_zero_or_one p.route.climbed with h | h
  · rw [h]
    rfl
  · rw [h]
    rfl

/-- **A normal form is its own normal form.** -/
theorem normal_normal (p : Path) : p.normal.normal = p.normal := by
  obtain ⟨f, hf⟩ := p.exists_normalForm
  rw [hf, normal, f.parts_ofParts, f.folded_parts]

/-- **A path in normal form is the same behind another path** if it is absolute, if the other comes to nothing, or if
its `..` takes away the name that the other comes to behind a `..`. -/
theorem normal_join_eq_iff {p q : Path} (h : p.normal = p) : (q.join p).normal = p ↔
    p.isAbsolute = true ∨ q.normal.parts = [] ∨
      ((∃ n, q.normal.parts = [.up, .name n]) ∧ p.parts.head? = some .up) := by
  obtain ⟨f, hf⟩ := p.exists_normalForm
  obtain ⟨g, hg⟩ := q.exists_normalForm
  have hp : p.parts = f.parts := by rw [← h, hf, f.parts_ofParts]
  have hq : q.normal.parts = g.parts := by rw [hg, g.parts_ofParts]
  have hfolded : folded (q.join p).parts = f.parts.foldl fold g.parts := by
    rw [← hp, ← hq, parts_normal_eq_folded]
    exact foldl_parts_join (fun _ => rfl) (fun _ _ => rfl) q p []
  have hsame : (q.join p).normal = p ↔ f.parts.foldl fold g.parts = f.parts := by
    rw [← hfolded]
    constructor
    · intro hjoin
      rw [← parts_normal_eq_folded, hjoin, hp]
    · intro hjoin
      rw [normal, hjoin, ← hf, h]
  rw [hsame, f.foldl_fold_eq_iff g, ← hp, ← hq, root_mem_parts_iff]

end Folio.Path
