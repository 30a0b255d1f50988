import Folio.Proofs.Paths.NormalForm
import Folio.Proofs.Stack.Nesting
import Folio.Proofs.Tree.Walking
import Mathlib.Data.Fintype.Prod
/-!
# There is always room for one more file

Evaluation counts down the files that are rendered one inside of the other, and never comes to the end of its count.  Every
file on the stack is there under a path of its own; a file has at most four paths in normal form, so there are no more
paths to enter than `renders` says (`unvisited_le_renders`), and each path that is entered leaves fewer of them
(`unvisited_entered`).  So the runner of a page serves every stack, and the runners in a file that it enters serve the
stack with this file on top (`runner_serves`, `Serves.inside`).
-/
namespace Folio

open Path (NormalForm)

/-! ## The paths of a file -/

namespace FileTree

/-- The place from which the names of a normal form lead on. -/
def base (t : FileTree) (rooted up : Bool) : Place :=
  if rooted then [] else if up then t.home.dropLast else t.home

theorem landing_ofParts (t : FileTree) (f : NormalForm) :
    t.landing (Path.ofParts f.parts) = t.base f.rooted f.up ++ f.names := by
  unfold landing
  rw [f.parts_ofParts]
  unfold NormalForm.parts NormalForm.steps base
  rw [List.foldl_append, List.foldl_append, foldl_land_names]
  cases f.rooted <;> cases f.up <;> rfl

/-- The path in normal form that leads to a place from the root, or from the working directory, or from the one above. -/
def pathTo (t : FileTree) (rooted up : Bool) (place : Place) : Path :=
  .ofParts ((if rooted then [.root] else []) ++
    ((if up then [.up] else []) ++ (place.drop (t.base rooted up).length).map .name))

theorem pathTo_landing (t : FileTree) (f : NormalForm) :
    t.pathTo f.rooted f.up (t.landing (.ofParts f.parts)) = .ofParts f.parts := by
  unfold pathTo
  rw [landing_ofParts, List.drop_left]
  rfl

end FileTree

namespace Scope

/-- A path in normal form that can be read leads to one of the nodes, in one of four ways. -/
theorem readable_subset (scope : Scope) : {key | scope.Readable key} ⊆
    (Finset.univ ×ˢ (scope.tree.nodes.map (·.1)).toFinset).image
      fun way : (Bool × Bool) × Place => scope.tree.pathTo way.1.1 way.1.2 way.2 := by
  rintro key ⟨⟨p, rfl⟩, octets, hread⟩
  obtain ⟨f, hf⟩ := p.exists_normalForm
  have hnode := FileTree.node?_of_arrive_file (FileTree.read_eq_ok_iff.1 hread)
  rw [hf] at hnode ⊢
  let place := scope.tree.landing (.ofParts f.parts)
  refine Finset.mem_coe.2 (Finset.mem_image.2 ⟨((f.rooted, f.up), place), ?_, scope.tree.pathTo_landing f⟩)
  refine Finset.mem_product.2 ⟨Finset.mem_univ _, List.mem_toFinset.2 ?_⟩
  unfold FileTree.node? at hnode
  split at hnode
  · cases hnode
  · obtain ⟨node, hfind, -⟩ := Option.map_eq_some_iff.1 hnode
    have hfound := List.find?_some hfind
    have hplace : node.1 = place := beq_iff_eq.1 hfound
    show place ∈ scope.tree.nodes.map (·.1)
    rw [← hplace]
    exact List.mem_map_of_mem (List.mem_of_find?_eq_some hfind)

theorem ncard_readable_le (scope : Scope) : {key | scope.Readable key}.ncard ≤ Template.renders scope.tree := by
  calc {key | scope.Readable key}.ncard
      ≤ ((Finset.univ ×ˢ (scope.tree.nodes.map (·.1)).toFinset).image
          fun way : (Bool × Bool) × Place => scope.tree.pathTo way.1.1 way.1.2 way.2).card := by
        rw [← Set.ncard_coe_finset]
        exact Set.ncard_le_ncard scope.readable_subset (Finset.finite_toSet _)
    _ ≤ (Finset.univ ×ˢ (scope.tree.nodes.map (·.1)).toFinset : Finset ((Bool × Bool) × Place)).card :=
        Finset.card_image_le
    _ = 4 * (scope.tree.nodes.map (·.1)).toFinset.card := by rw [Finset.card_product]; rfl
    _ ≤ 4 * scope.tree.nodes.length := by
        have hplaces := (scope.tree.nodes.map (·.1)).toFinset_card_le
        rw [List.length_map] at hplaces
        exact Nat.mul_le_mul_left 4 hplaces

/-! ## What can still be entered -/

/-- How many paths in normal form can be read and are not on a stack. -/
noncomputable def unvisited (scope : Scope) (paths : List Path) : Nat :=
  {key | scope.Readable key ∧ key ∉ paths}.ncard

theorem unvisited_le_renders (scope : Scope) (paths : List Path) :
    scope.unvisited paths ≤ Template.renders scope.tree :=
  (Set.ncard_le_ncard (fun _ h => h.1) scope.readable_finite).trans scope.ncard_readable_le

/-- A path that is entered is one less. -/
theorem unvisited_entered {scope : Scope} {paths : List Path} {key : Path} (hkey : scope.Readable key)
    (hfresh : key ∉ paths) : scope.unvisited (paths ++ [key]) < scope.unvisited paths := by
  refine Set.ncard_lt_ncard ⟨fun k hk => ⟨hk.1, fun hmem => hk.2 (List.mem_append_left _ hmem)⟩, fun hsubset => ?_⟩
    (scope.readable_finite.subset fun _ h => h.1)
  exact (hsubset ⟨hkey, hfresh⟩).2 (List.mem_append_right _ (List.mem_singleton_self key))

end Scope

/-! ## Runners with room -/

namespace Template

/-- A runner, and the calls beside it, with room for every file that can still be entered on a stack. -/
def Serves (env : Environment) (paths : List Path) (run : Runner) (watch : Watch) : Prop :=
  ∃ k, env.scope.unvisited paths ≤ k ∧ ∀ here body, here.env = env →
    run.file here body = evaluateFile k here body ∧ watch.file here body = watchFile k here body

/-- **The runner of a page serves every stack.** -/
theorem runner_serves (env : Environment) (paths : List Path) (n : Nat) : Serves env paths (runner n) (watcher n) := by
  refine ⟨renders env.scope.tree, env.scope.unvisited_le_renders paths, ?_⟩
  rintro here body rfl
  exact ⟨rfl, rfl⟩

/-- Whatever file a runner enters on a stack is evaluated by runners that serve the stack with the file on top. -/
def ServesInside (env : Environment) (paths : List Path) (run : Runner) (watch : Watch) : Prop :=
  ∀ key, env.scope.Readable key → key ∉ paths → ∃ file watchFile,
    (∀ here body, here.env = env →
      run.file here body = Runner.within file (levels env.scope.tree) here body ∧
      watch.file here body = Watch.within file watchFile (levels env.scope.tree) here body) ∧
    ∀ n, Serves env (paths ++ [key]) (.within file n) (.within file watchFile n)

theorem Serves.inside {env : Environment} {paths : List Path} {run : Runner} {watch : Watch}
    (h : Serves env paths run watch) : ServesInside env paths run watch := by
  intro key hkey hfresh
  obtain ⟨k, hk, hfile⟩ := h
  have hless := Scope.unvisited_entered hkey hfresh
  obtain ⟨k, rfl⟩ : ∃ j, k = j + 1 := Nat.exists_eq_add_one.2 (by omega)
  refine ⟨evaluateFile k, Template.watchFile k, ?_, fun n => ⟨k, by omega, fun _ _ _ => ⟨rfl, rfl⟩⟩⟩
  rintro here body rfl
  exact hfile here body rfl

end Template
end Folio
