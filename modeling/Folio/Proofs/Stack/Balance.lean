import Mathlib.Data.List.Nodup
import Folio.Proofs.Template.Steady
/-!
# Rendering is balanced on the stack

A stack goes from one state to another by paths that are put on top and taken away again (`RenderStack.Course`); its
history lists the states in between.  A nested render is an excursion: whatever it does stands on the stack as it was,
and at its end the stack is as it was (`RenderStack.Excursion`).  Excursions follow each other and enclose each other,
so every evaluation is one, and so is the render of a page (`render_balanced`).
-/
namespace Folio

namespace RenderStack

/-- The stacks on the way from one stack to another, the latest first: each is the one before with a new path on top, or
without the path on top. -/
inductive Course (start : List Path) : List (List Path) → List Path → Prop where
  | stay : Course start [] start
  | push {moments : List (List Path)} {paths : List Path} {key : Path} (course : Course start moments paths)
    (fresh : key ∉ paths) : Course start ((paths ++ [key]) :: moments) (paths ++ [key])
  | pop {moments : List (List Path)} {paths : List Path} {key : Path} (course : Course start moments (paths ++ [key])) :
    Course start (paths :: moments) paths

namespace Course

variable {start paths paths' : List Path} {moments later : List (List Path)}

theorem trans (h : Course start moments paths) (h' : Course paths later paths') :
    Course start (later ++ moments) paths' := by
  induction h' with
  | stay => exact h
  | push _ fresh ih => exact ih.push fresh
  | pop _ ih => exact ih.pop

/-- On its course a stack never comes to have a path twice. -/
theorem nodup (h : Course start moments paths) (hstart : start.Nodup) :
    paths.Nodup ∧ ∀ m ∈ moments, m.Nodup := by
  induction h with
  | stay => exact ⟨hstart, fun _ hm => nomatch hm⟩
  | push _ fresh ih =>
    have hnew := ih.1.concat fresh
    rw [List.concat_eq_append] at hnew
    exact ⟨hnew, List.forall_mem_cons.2 ⟨hnew, ih.2⟩⟩
  | pop _ ih =>
    have hrest := (List.nodup_append.1 ih.1).1
    exact ⟨hrest, List.forall_mem_cons.2 ⟨hrest, ih.2⟩⟩

end Course

/-- Nothing that lasts has happened to a stack: it is what it was, it took a course from there, and all that was put on
top in the meantime was allowed to be there. -/
structure Excursion (allowed : Path → Prop) (s s' : RenderStack) : Prop where
  paths : s'.paths = s.paths
  moments : ∃ moments, s'.history = moments ++ s.history ∧ Course s.paths moments s'.paths ∧
    ∀ m ∈ moments, ∃ above, m = s.paths ++ above ∧ ∀ key ∈ above, allowed key

namespace Excursion

variable {allowed : Path → Prop} {a b c : RenderStack}

theorem refl (s : RenderStack) : Excursion allowed s s :=
  ⟨rfl, [], rfl, .stay, fun _ hm => nomatch hm⟩

theorem trans (h : Excursion allowed a b) (h' : Excursion allowed b c) : Excursion allowed a c := by
  obtain ⟨hpaths, moments, hhistory, hcourse, habove⟩ := h
  obtain ⟨hpaths', later, hhistory', hcourse', habove'⟩ := h'
  refine ⟨hpaths'.trans hpaths, later ++ moments, ?_, hcourse.trans hcourse', fun m hm => ?_⟩
  · rw [hhistory', hhistory, List.append_assoc]
  · rcases List.mem_append.1 hm with hm | hm
    · rw [← hpaths]
      exact habove' m hm
    · exact habove m hm

end Excursion

/-- **What happens between entering a path and leaving it** stands on this path, and then the stack is as it was. -/
theorem Excursion.within {allowed : Path → Prop} {s after : RenderStack} {key : Path} (hfresh : key ∉ s.paths)
    (h : Excursion allowed (s.become (s.paths ++ [key])) after) :
    after.leave.paths = s.paths ∧
    ∃ moments, after.leave.history = moments ++ s.history ∧ Course s.paths moments after.leave.paths ∧
      ∀ m ∈ moments, m = s.paths ∨ ∃ above, m = s.paths ++ key :: above ∧ ∀ k ∈ above, allowed k := by
  obtain ⟨hpaths, moments, hhistory, hcourse, habove⟩ := h
  have hentered : (s.become (s.paths ++ [key])).paths = s.paths ++ [key] := rfl
  rw [hentered] at hpaths hcourse habove
  have hleft : after.leave.paths = s.paths := by
    show after.paths.dropLast = s.paths
    rw [hpaths, List.dropLast_concat]
  have hcourse' : Course s.paths (moments ++ [s.paths ++ [key]]) (s.paths ++ [key]) :=
    (Course.stay.push hfresh).trans (hpaths ▸ hcourse)
  refine ⟨hleft, s.paths :: (moments ++ [s.paths ++ [key]]), ?_, ?_, fun m hm => ?_⟩
  · show after.leave.paths :: after.history = _
    rw [hleft, hhistory, List.cons_append, List.append_assoc]
    rfl
  · rw [hleft]
    exact hcourse'.pop
  · rcases List.mem_cons.1 hm with rfl | hm
    · exact .inl rfl
    · refine .inr ?_
      rcases List.mem_append.1 hm with hm | hm
      · obtain ⟨above, rfl, hallowed⟩ := habove m hm
        exact ⟨above, List.append_assoc .., hallowed⟩
      · exact ⟨[], List.mem_singleton.1 hm, fun _ hk => nomatch hk⟩

end RenderStack

/-! ## Evaluations -/

/-- A path in normal form of which a file could be read. -/
def Scope.Readable (scope : Scope) (key : Path) : Prop :=
  (∃ p : Path, key = p.normal) ∧ ∃ octets, scope.tree.read key = .ok octets

theorem Scope.readable_of_readMatter {scope : Scope} {p : Path} {matter : FrontMatter.Split}
    (h : scope.readMatter p = .ok matter) : scope.Readable (scope.resolve p) := by
  refine ⟨⟨_, rfl⟩, ?_⟩
  unfold readMatter at h
  cases hr : scope.tree.read (scope.resolve p) with
  | error denial =>
    rw [hr] at h
    cases h
  | ok octets => exact ⟨octets, rfl⟩

/-- Every nested render is of a file that was read, so evaluations put no other paths on the stack. -/
theorem steady_excursion (scope : Scope) {allowed : Path → Prop}
    (hallowed : ∀ {p matter}, scope.readMatter p = .ok matter → allowed (scope.resolve p)) :
    Template.Steady scope fun s s' => s.engine.Excursion allowed s'.engine where
  refl s := .refl s.engine
  trans := .trans
  report _ _ s := .refl s.engine
  loading _ s := ⟨rfl, [], rfl, .stay, fun _ hm => nomatch hm⟩
  within := by
    intro path matter s entered after hm he ha
    obtain ⟨hfresh, rfl⟩ := Scope.enter_eq_ok_iff.1 he
    obtain ⟨hpaths, moments, hhistory, hcourse, habove⟩ := ha.within hfresh
    refine ⟨hpaths, moments, hhistory, hcourse, fun m hmem => ?_⟩
    -- Whatever stands above the stack stands on the path of the file, which was read before it was entered.
    obtain rfl | ⟨above, rfl, habove⟩ := habove m hmem
    · exact ⟨[], (List.append_nil _).symm, fun _ hk => nomatch hk⟩
    · exact ⟨_, rfl, List.forall_mem_cons.2 ⟨hallowed hm, habove⟩⟩

/-- The stacks of a render: the stack as it was, and on it the page with paths of files that were read. -/
theorem render_course_of (env : Template.Environment) {allowed : Path → Prop}
    (hallowed : ∀ {p matter}, env.scope.readMatter p = .ok matter → allowed (env.scope.resolve p)) (page : Page)
    (s : Session RenderStack) :
    (env.render page s).2.engine.paths = s.engine.paths ∧
    ∃ moments, (env.render page s).2.engine.history = moments ++ s.engine.history ∧
      RenderStack.Course s.engine.paths moments s.engine.paths ∧
      ∀ m ∈ moments, m = s.engine.paths ∨
        ∃ above, m = s.engine.paths ++ env.scope.resolve (.ofText page.name) :: above ∧ ∀ key ∈ above, allowed key := by
  obtain ⟨f, -, hr⟩ | ⟨answer, entered, after, he, ha, hr⟩ := (steady_excursion env.scope hallowed).render_cases page s
  · rw [hr]
    exact ⟨rfl, [], rfl, .stay, fun _ hm => nomatch hm⟩
  · rw [hr]
    obtain ⟨hfresh, rfl⟩ := Scope.enter_eq_ok_iff.1 he
    obtain ⟨hpaths, moments, hhistory, hcourse, habove⟩ := ha.within hfresh
    exact ⟨hpaths, moments, hhistory, hpaths ▸ hcourse, habove⟩

/-- **The stacks of a render**: the stack as it was, and on it the page with files that could be read above. -/
theorem render_course (env : Template.Environment) (page : Page) (s : Session RenderStack) :
    (env.render page s).2.engine.paths = s.engine.paths ∧
    ∃ moments, (env.render page s).2.engine.history = moments ++ s.engine.history ∧
      RenderStack.Course s.engine.paths moments s.engine.paths ∧
      ∀ m ∈ moments, m = s.engine.paths ∨
        ∃ above, m = s.engine.paths ++ env.scope.resolve (.ofText page.name) :: above ∧
          ∀ key ∈ above, env.scope.Readable key :=
  render_course_of env Scope.readable_of_readMatter page s

/-- **Rendering is balanced on the stack.**  Whether a page is rendered or fails, the stack is in the end what it was.
In the meantime it goes from one moment to the next by a new path that is put on top or a path that is taken away; it
has the old stack below at every moment, and comes to have no path twice. -/
theorem render_balanced (env : Template.Environment) (page : Page) (s : Session RenderStack) :
    ∃ answer after moments, env.render page s = (answer, after) ∧
      after.engine.paths = s.engine.paths ∧
      after.engine.history = moments ++ s.engine.history ∧
      RenderStack.Course s.engine.paths moments after.engine.paths ∧
      ∀ m ∈ moments, s.engine.paths <+: m ∧ (s.engine.paths.Nodup → m.Nodup) := by
  obtain ⟨hpaths, moments, hhistory, hcourse, habove⟩ := render_course env page s
  refine ⟨_, _, moments, rfl, hpaths, hhistory, hpaths.symm ▸ hcourse, fun m hm => ⟨?_, fun hs => ?_⟩⟩
  · obtain rfl | ⟨above, rfl, -⟩ := habove m hm
    · exact List.prefix_rfl
    · exact List.prefix_append ..
  · exact (hcourse.nodup hs).2 m hm

end Folio
