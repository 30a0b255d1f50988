import Mathlib.Data.Set.List
import Folio.Proofs.Paths.NormalForm
import Folio.Proofs.Template.Names
/-!
# Down from a directory

The parts of a template name are folded in two ways.  A library folds them by themselves and gives up at a `..` that finds
no name.  A scope folds them behind a directory, and there such a `..` finds the directory itself.

From a directory that leads straight down from the root, the two ways agree.  As long as the first goes on, the second is
below the directory, at the names that the first is left with (`foldl_fold_of_climb`).  And where the first gives up, the
second is at the directory with a `..` ahead, and leaves it (`Straight.not_descends_fold_up`).
-/
namespace Folio.Path

open Template (climb)

/-- From the root down by names; a `.` that is written between them is not among the parts. -/
structure Straight (dir : Path) : Prop where
  absolute : dir.isAbsolute = true
  up_not_mem : .up ∉ dir.parts

/-- The parts of a directory, and on by names only. -/
def Descends (dir out : List Part) : Prop := ∃ names : List Bytes, out = dir ++ names.map .name

namespace Straight

variable {dir : Path} (h : dir.Straight)
include h

theorem octets_ne_nil : dir.octets ≠ [] := by
  obtain ⟨bs, hbs⟩ := isAbsolute_iff.1 h.absolute
  rw [hbs]
  exact List.cons_ne_nil _ _

theorem exists_names : ∃ names : List Bytes, (∀ n ∈ names, IsPlain n) ∧ dir.parts = .root :: names.map .name := by
  have hparts := parts_of_isAbsolute h.absolute
  have hinner : ∀ p ∈ inner dir.octets, p ∈ Set.range Part.name := by
    intro p hp
    cases p with
    | root => exact absurd hp (root_not_mem_inner _)
    | here => exact absurd hp (here_not_mem_inner _)
    | up => exact absurd (hparts ▸ List.mem_cons_of_mem _ hp) h.up_not_mem
    | name n => exact ⟨n, rfl⟩
  obtain ⟨names, hnames⟩ : inner dir.octets ∈ Set.range (List.map Part.name) := by
    rw [Set.range_list_map]
    exact hinner
  refine ⟨names, fun n hn => isPlain_of_mem_parts (p := dir) ?_, by rw [hparts, hnames]⟩
  rw [hparts, ← hnames]
  exact List.mem_cons_of_mem _ (List.mem_map_of_mem hn)

theorem folded_parts : folded dir.parts = dir.parts := by
  obtain ⟨names, -, hparts⟩ := h.exists_names
  rw [hparts, folded, List.foldl_cons]
  exact foldl_fold_names [.root] names

/-- The parent of the directory, or the `..` that stays behind the root. -/
theorem fold_up : fold dir.parts .up = if dir.parts = [.root] then [.root, .up] else dir.parts.dropLast := by
  obtain ⟨names, -, hparts⟩ := h.exists_names
  rw [hparts]
  rcases List.eq_nil_or_concat names with rfl | ⟨names, n, rfl⟩
  · rfl
  · rw [List.concat_eq_append, List.map_append, List.map_singleton, ← List.cons_append, Route.fold_concat_name,
      List.dropLast_concat]
    simp

/-- **A `..` at the directory leaves it.** -/
theorem not_descends_fold_up : ¬ Descends dir.parts (fold dir.parts .up) := by
  rw [h.fold_up]
  rintro ⟨names, hnames⟩
  split at hnames
  · rename_i hroot
    rw [hroot] at hnames
    cases names <;> simp at hnames
  · have hlength := congrArg List.length hnames
    obtain ⟨above, -, hparts⟩ := h.exists_names
    rw [hparts] at hlength
    simp at hlength
    omega

/-- What is folded behind the directory goes on from its parts. -/
theorem folded_append (ps : List Part) : folded (dir.parts ++ ps) = ps.foldl fold dir.parts := by
  rw [folded, List.foldl_append, ← folded, h.folded_parts]

theorem parts_join {p : Path} (hp : ¬ p.isAbsolute = true) : (dir.join p).parts = dir.parts ++ inner p.octets := by
  rw [Path.parts_join hp, if_neg h.octets_ne_nil]

/-- In normal form the directory is written as names behind the root, and names below it are written on. -/
theorem join_names (hnormal : dir.normal = dir) {names : List Bytes} (hplain : ∀ n ∈ names, IsPlain n)
    (hne : names ≠ []) : dir.join (ofParts (names.map .name)) = ofParts (dir.parts ++ names.map .name) := by
  obtain ⟨above, habove, hparts⟩ := h.exists_names
  have hdir : dir = ofParts (.root :: above.map .name) := by
    rw [← hparts, ← h.folded_parts]
    exact hnormal.symm
  have hjoin := join_ofParts_steps (isStep_of_plain habove) (isStep_of_plain hplain) (by simpa using hne)
  rw [← hdir] at hjoin
  rw [hjoin, hparts, List.cons_append]

end Straight

/-! ## Climbing and folding side by side -/

theorem not_isAbsolute_of_climb {p : Path} {names : List Bytes} (h : p.parts.foldlM climb [] = some names) :
    ¬ p.isAbsolute = true := by
  intro habsolute
  rw [(foldlM_climb_eq_none_iff p.parts []).2 (.inl (root_mem_parts_iff.2 habsolute))] at h
  cases h

/-- A leading `.` makes no difference to climbing. -/
theorem foldlM_climb_inner {p : Path} (hp : ¬ p.isAbsolute = true) (names : List Bytes) :
    (inner p.octets).foldlM climb names = p.parts.foldlM climb names := by
  rw [parts_eq]
  rcases opening_of_not_isAbsolute hp with hopening | hopening
  · rw [hopening, List.nil_append]
  · rw [hopening]
    rfl

namespace Straight

variable {dir p : Path} (h : dir.Straight)
include h

/-- **While climbing goes on, folding is below the directory.** -/
theorem descends_of_prefix {names : List Bytes} (hclimb : p.parts.foldlM climb [] = some names) {pre : List Part}
    (hdir : dir.parts <+: pre) (hpre : pre <+: (dir.join p).parts) : Descends dir.parts (folded pre) := by
  have hp := not_isAbsolute_of_climb hclimb
  obtain ⟨q, rfl⟩ := hdir
  rw [h.parts_join hp, List.prefix_append_right_inj] at hpre
  obtain ⟨rest, hrest⟩ := hpre
  rw [← foldlM_climb_inner hp, ← hrest, List.foldlM_append] at hclimb
  obtain ⟨left, hleft, -⟩ := Option.bind_eq_some_iff.1 hclimb
  exact ⟨left, by rw [h.folded_append, foldl_fold_of_climb _ hleft]⟩

theorem folded_join {names : List Bytes} (hclimb : p.parts.foldlM climb [] = some names) :
    folded (dir.join p).parts = dir.parts ++ names.map .name := by
  have hp := not_isAbsolute_of_climb hclimb
  rw [← foldlM_climb_inner hp] at hclimb
  rw [h.parts_join hp, h.folded_append, foldl_fold_of_climb _ hclimb]

/-- **Where climbing fails, folding is at the directory with a `..` ahead.** -/
theorem exists_exit (hp : ¬ p.isAbsolute = true) (hclimb : p.parts.foldlM climb [] = none) :
    ∃ pre, dir.parts <+: pre ∧ pre ++ [.up] <+: (dir.join p).parts ∧ folded pre = dir.parts ∧
      folded (pre ++ [.up]) = fold dir.parts .up := by
  rw [← foldlM_climb_inner hp] at hclimb
  obtain ⟨pre, post, hps, hpre⟩ := exists_up_of_climb_eq_none (root_not_mem_inner _) hclimb
  have hback : folded (dir.parts ++ pre) = dir.parts := by
    rw [h.folded_append, foldl_fold_of_climb _ hpre]
    exact List.append_nil _
  refine ⟨dir.parts ++ pre, List.prefix_append .., ⟨post, ?_⟩, hback, ?_⟩
  · rw [h.parts_join hp, hps]
    simp
  · rw [folded, List.foldl_append, ← folded, hback]
    rfl

end Straight

end Folio.Path

namespace Folio.Template

open Path (Descends)

/-- **The two ways to fold a template name agree below a directory** that leads straight down from the root.  If the name
leads to names, then behind the directory it is folded to the directory followed by these: an equal path, and written
alike if the directory is in normal form and there is a name.  And a relative name leads nowhere exactly if folding leaves
the directory at some point of the name: it comes back to the directory and finds a `..` there, which leads to the
directory's parent, or stays behind the root. -/
theorem normalizers_agree {dir : Path} (h : dir.Straight) (name : String) :
    let target := dir.join (.ofText name)
    (∀ names, relativeNames? name = some names →
      target.normal.parts = (dir.join (relativePath names)).parts ∧
      (dir.normal = dir → names ≠ [] → target.normal = dir.join (relativePath names))) ∧
    (¬ (Path.ofText name).isAbsolute = true →
      (relativeNames? name = none ↔
        ∃ pre, dir.parts <+: pre ∧ pre <+: target.parts ∧ ¬ Descends dir.parts (Path.folded pre)) ∧
      (relativeNames? name = none →
        ∃ pre, dir.parts <+: pre ∧ pre ++ [.up] <+: target.parts ∧ Path.folded pre = dir.parts ∧
          Path.folded (pre ++ [.up]) = if dir.parts = [.root] then [.root, .up] else dir.parts.dropLast)) := by
  intro target
  refine ⟨fun names hnames => ?_, fun hrelative => ⟨⟨fun hnone => ?_, ?_⟩, fun hnone => ?_⟩⟩
  · have hplain := isPlain_of_relativeNames? hnames
    have hfolded : Path.folded target.parts = dir.parts ++ names.map .name := h.folded_join hnames
    refine ⟨?_, fun hnormal hne => ?_⟩
    · rw [Path.parts_normal_eq_folded, hfolded, parts_join_relativePath dir hplain]
    · rw [relativePath, h.join_names hnormal hplain hne, Path.normal, hfolded]
  · obtain ⟨pre, hdir, hpre, -, hup⟩ := h.exists_exit hrelative hnone
    exact ⟨pre ++ [.up], hdir.trans (List.prefix_append ..), hpre, hup ▸ h.not_descends_fold_up⟩
  · rintro ⟨pre, hdir, hpre, hleaves⟩
    by_contra hsome
    obtain ⟨names, hnames⟩ := Option.ne_none_iff_exists'.1 hsome
    exact hleaves (h.descends_of_prefix hnames hdir hpre)
  · rw [← h.fold_up]
    exact h.exists_exit hrelative hnone

/-- Two names below a directory: one stays there, and one climbs out of it and comes back. -/
theorem normalizers_agree_detours :
    let dir : Path := .ofText "/site/lib"
    let inside := "a/.././b//c.html"
    let around := "b/../../lib/c.html"
    let names := [Bytes.ofText "b", Bytes.ofText "c.html"]
    dir.Straight ∧ dir.normal = dir ∧ relativeNames? inside = some names ∧
    (dir.join (.ofText inside)).normal = dir.join (relativePath names) ∧
    ¬ (Path.ofText around).isAbsolute = true ∧ relativeNames? around = none ∧
    (dir.join (.ofText around)).normal = .ofText "/site/lib/c.html" ∧
    ∃ pre, dir.parts <+: pre ∧ pre <+: (dir.join (.ofText around)).parts ∧ ¬ Descends dir.parts (Path.folded pre) := by
  intro dir inside around names
  have hdir : dir.Straight := ⟨by decide +kernel, by decide +kernel⟩
  have hnormal : dir.normal = dir := by decide +kernel
  have hinside : relativeNames? inside = some names := by decide +kernel
  have hrelative : ¬ (Path.ofText around).isAbsolute = true := by decide +kernel
  have haround : relativeNames? around = none := by decide +kernel
  obtain ⟨hsame, -⟩ := normalizers_agree hdir inside
  obtain ⟨-, hleaves⟩ := normalizers_agree hdir around
  exact ⟨hdir, hnormal, hinside, (hsame names hinside).2 hnormal (by decide), hrelative, haround, by decide +kernel,
    (hleaves hrelative).1.1 haround⟩

end Folio.Template
