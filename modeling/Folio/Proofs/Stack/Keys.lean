import Folio.Config
import Folio.Proofs.Paths.NormalForm
import Folio.Proofs.Stack.Guards
/-!
# Paths on the stack

A path is resolved when it is put on the stack.  So whatever shows of the stack, the current file or the path and the chain
of a refusal, is in normal form, and it is its own normal form (`Path.normal_normal`).

To resolve it again is to take it from the root once more.  That leaves an absolute path alone, and a relative one only if
the root comes to nothing, or to a `..` and a name that the path's own `..` takes away (`Path.normal_join_eq_iff`).
-/
namespace Folio

namespace Scope

/-- The paths that show of the stack: the current file, and the path and the chain of a refusal. -/
inductive Shows (scope : Scope) (s : Session RenderStack) : Path → Prop where
  | current {key : Path} (first : s.engine.current? = some key) : Shows scope s key
  | refused {p key : Path} {chain : List Path} (refusal : scope.enter p s = .error (.cyclic key chain)) :
    Shows scope s key
  | chain {p refused key : Path} {chain : List Path} (refusal : scope.enter p s = .error (.cyclic refused chain))
    (mem : key ∈ chain) : Shows scope s key

/-- A path in normal form that is absolute if the root is.  It is resolved to itself exactly if it is absolute, if the root
comes to nothing, or if its own `..` takes away the name that the root comes to behind a `..`. -/
structure StableKey (scope : Scope) (key : Path) : Prop where
  normal : key.normal = key
  absolute : scope.root.isAbsolute = true → key.isAbsolute = true
  again : scope.resolve key = key ↔ key.isAbsolute = true ∨ scope.root.normal.parts = [] ∨
    ((∃ n, scope.root.normal.parts = [.up, .name n]) ∧ key.parts.head? = some .up)

theorem stableKey_resolve (scope : Scope) (p : Path) : scope.StableKey (scope.resolve p) where
  normal := (scope.root.join p).normal_normal
  absolute habsolute := (Path.isAbsolute_normal _).2 (Path.isAbsolute_join habsolute p)
  again := Path.normal_join_eq_iff (scope.root.join p).normal_normal

variable {scope : Scope} {s : Session RenderStack} {key : Path}

/-- Who is refused is told the path and the whole stack. -/
theorem enter_eq_cyclic {p : Path} {chain : List Path} (h : scope.enter p s = .error (.cyclic key chain)) :
    key ∈ s.engine.paths ∧ chain = s.engine.paths := by
  by_cases hp : scope.resolve p ∈ s.engine.paths
  · rw [enter_of_mem hp] at h
    cases h
    exact ⟨hp, rfl⟩
  · rw [enter_of_not_mem hp] at h
    cases h

theorem Shows.mem (h : scope.Shows s key) : key ∈ s.engine.paths := by
  cases h with
  | current first => exact List.mem_of_head? first
  | refused refusal => exact (enter_eq_cyclic refusal).1
  | chain refusal mem => exact (enter_eq_cyclic refusal).2 ▸ mem

end Scope

/-- **Normal forms are stable, and so are absolute paths on the stack.**  A normal form has no `.` and no `..` after a name,
and is its own normal form.  Whatever guards are taken and dropped, all that shows of the stack is in normal form, and so is
all that is on the stack at any moment of a render.  Resolved again, such a path stays the same exactly if it is absolute,
as it is whenever the root is, or if the root comes to nothing, or to a `..` and a name that the `..` in front of the path
takes away. -/
theorem keys_stable (scope : Scope) :
    (∀ p : Path, .here ∉ p.normal.parts ∧ (p.normal.parts.Pairwise fun a b => a.isName = true → b ≠ .up) ∧
      p.normal.normal = p.normal) ∧
    (∀ (channel : Channel) (steps : List GuardStep), ∀ g ∈ steps.scanl (Guarded.step scope) (.start channel),
      ∀ key, scope.Shows g.session key → scope.StableKey key) ∧
    ∀ (env : Template.Environment) (page : Page) (s : Session RenderStack), env.scope = scope → s.engine.paths = [] →
      ∃ moments, (env.render page s).2.engine.history = moments ++ s.engine.history ∧
        ∀ m ∈ moments, ∀ key ∈ m, scope.StableKey key := by
  refine ⟨fun p => ?_, fun channel steps g hg key hkey => ?_, ?_⟩
  · obtain ⟨f, hf⟩ := p.exists_normalForm
    have hparts : p.normal.parts = f.parts := by rw [hf, f.parts_ofParts]
    rw [hparts]
    exact ⟨f.here_not_mem_parts, f.pairwise_parts, p.normal_normal⟩
  · have hstart : (Guarded.start channel).Resolved scope := fun _ hmem => nomatch hmem
    obtain ⟨p, rfl⟩ := hstart.scanl steps g hg key hkey.mem
    exact scope.stableKey_resolve p
  · rintro env page s rfl hs
    have hread : ∀ {p : Path} {matter : FrontMatter.Split}, env.scope.readMatter p = .ok matter →
        env.scope.StableKey (env.scope.resolve p) := fun _ => env.scope.stableKey_resolve _
    obtain ⟨-, moments, hhistory, -, habove⟩ := render_course_of env hread page s
    rw [hs] at habove
    refine ⟨moments, hhistory, fun m hm => ?_⟩
    obtain rfl | ⟨above, rfl, hstable⟩ := habove m hm
    · exact fun _ hk => nomatch hk
    · exact List.forall_mem_cons.2 ⟨env.scope.stableKey_resolve _, hstable⟩

/-- Below `../site` a path one level up is resolved to itself, and a path two levels up is not. -/
theorem keys_stable_siblings :
    let scope := ((Config.default (.ofText "/work")).withRoot (.ofText "../site")).scope (.empty []) ⟨0, 0, 0⟩
    let g := ((Guarded.start .empty).step scope (.enter (.ofText "../a.md"))).step scope (.enter (.ofText "../../b.md"))
    scope.Shows g.session (.ofText "../a.md") ∧ scope.resolve (.ofText "../a.md") = .ofText "../a.md" ∧
    scope.Shows g.session (.ofText "b.md") ∧ scope.resolve (.ofText "b.md") ≠ .ofText "b.md" := by
  intro scope g
  have hg : g ∈ [GuardStep.enter (.ofText "../a.md"), .enter (.ofText "../../b.md")].scanl (Guarded.step scope)
      (.start .empty) := by
    simp only [List.scanl_cons, List.scanl_nil, List.mem_cons]
    exact .inr (.inr (.inl rfl))
  have hcurrent : scope.Shows g.session (.ofText "../a.md") := .current rfl
  have hrefused : scope.enter (.ofText "../a.md") g.session =
      .error (.cyclic (.ofText "../a.md") [.ofText "../a.md", .ofText "b.md"]) := rfl
  have hchain : scope.Shows g.session (.ofText "b.md") := .chain hrefused (by simp)
  have hroot : scope.root.normal.parts = [.up, .name (Bytes.ofText "site")] := by decide +kernel
  obtain ⟨-, hshown, -⟩ := keys_stable scope
  refine ⟨hcurrent, ?_, hchain, fun hsame => ?_⟩
  · exact (hshown .empty _ g hg _ hcurrent).again.2 (.inr (.inr ⟨⟨_, hroot⟩, by decide +kernel⟩))
  · obtain habsolute | hnil | ⟨-, hhead⟩ := (hshown .empty _ g hg _ hchain).again.1 hsame
    · exact absurd habsolute (by decide +kernel)
    · rw [hroot] at hnil
      cases hnil
    · exact absurd hhead (by decide +kernel)

/-- **Below a relative root a path from the stack is resolved to another one**, which is let in. -/
theorem relative_key_resolved_elsewhere :
    let scope := ((Config.default (.ofText "/work")).withRoot (.ofText "site")).scope (.empty []) ⟨0, 0, 0⟩
    let g := (Guarded.start .empty).step scope (.enter (.ofText "a.html"))
    g.session.engine.current? = some (.ofText "site/a.html") ∧
    scope.resolve (.ofText "site/a.html") = .ofText "site/site/a.html" ∧
    Path.ofText "site/site/a.html" ≠ .ofText "site/a.html" ∧
    ∃ entered, scope.enter (.ofText "site/a.html") g.session = .ok entered :=
  ⟨rfl, by decide +kernel, by decide +kernel, _, rfl⟩

end Folio
