import Folio.Proofs.Template.Agreement
/-!
# What evaluation does to its session

A template changes the session in three ways only: a filter that fails is reported, a template that is found is loaded, and
the filter `render` renders a file after its path was entered and before it is left.  So a relation between an earlier
session and a later one that is reflexive and transitive and holds across these steps (`Steady`) holds across every
evaluation, whether it fails or not (`runner_keeps`), and across every render (`render_keeps`).  An evaluation side by side
with itself shows it, in the worlds of the sessions in which a render started (`Steady.simulation`).
-/
namespace Folio.Template

/-- A relation between sessions that holds across all that templates do to a session. -/
structure Steady (scope : Scope) (R : Session RenderStack → Session RenderStack → Prop) : Prop where
  refl : ∀ s, R s s
  trans : ∀ {a b c}, R a b → R b c → R a c
  report : ∀ name failure s, R s (s.report (filterReport name failure s))
  loading : ∀ names s, R s (s.loading names)
  within : ∀ {path matter s entered after}, scope.readMatter path = .ok matter → scope.enter path s = .ok entered →
    R entered after → R s after.leave

/-- A step of evaluation relates the sessions before and after it, also when it fails. -/
def Keeps {α : Type} (R : Session RenderStack → Session RenderStack → Prop) (x : Eval α) : Prop :=
  ∀ r, R r.session (final (x r)).session

/-- A runner relates the sessions before and after whatever it evaluates in an environment. -/
def RunnerKeeps (env : Environment) (R : Session RenderStack → Session RenderStack → Prop) (run : Runner) : Prop :=
  ∀ here body, here.env = env → Keeps R (run here body)

/-- The same session twice, and what it has come to since another one. -/
def Since (R : Session RenderStack → Session RenderStack → Prop) (start s s' : Session RenderStack) : Prop :=
  s = s' ∧ R start s

namespace Steady

variable {env : Environment} {R : Session RenderStack → Session RenderStack → Prop} (h : Steady env.scope R)
include h

theorem simulation : Simulation env env.filters (Since R) := by
  refine .ofSame ?_ (fun hs => by rw [hs.1]) ?_ ?_
  · rintro start s _ name ⟨rfl, hs⟩
    exact ⟨rfl, h.trans hs (h.loading _ s)⟩
  · rintro start s _ name failure ⟨rfl, hs⟩
    exact ⟨rfl, h.trans hs (h.report name failure s)⟩
  · rintro start s _ path matter hm ⟨rfl, hs⟩
    cases he : env.scope.enter path s with
    | error f => exact .inl ⟨f, f, rfl, rfl, fun name => ⟨rfl, h.trans hs (h.report name f s)⟩⟩
    | ok entered =>
      refine .inr ⟨entered, entered, entered, rfl, rfl, ⟨rfl, h.refl entered⟩, ?_⟩
      rintro after _ ⟨rfl, ha⟩
      exact ⟨rfl, h.trans hs (h.within hm he ha)⟩

/-- **What holds across reports and nested renders holds across whole templates**, at every level of nesting. -/
theorem runner_keeps (n : Nat) : RunnerKeeps env R (runner n) := by
  rintro here body rfl r
  have hr := h.simulation.runner_agrees n here body rfl (i := r.session) (.intro ⟨rfl, h.refl r.session⟩)
  have hself : here.withFilters here.env.filters = here := rfl
  rw [hself] at hr
  exact hr.related.2

theorem across_renderNamed (n : Nat) (name source : String) (context : Fields) (s : Session RenderStack) :
    R s (renderNamed (runner n) env name source context s).2 := by
  unfold renderNamed
  cases read name source with
  | error f => exact h.refl s
  | ok t =>
    have hr := h.runner_keeps n ⟨env, name, env.escapes name, none⟩ t.body rfl (.start t context s)
    dsimp only
    cases hrt : runner n ⟨env, name, env.escapes name, none⟩ t.body (.start t context s) with
    | ok a r =>
      rw [hrt] at hr
      exact hr
    | error f r =>
      rw [hrt] at hr
      exact hr

/-- The render of a page is refused, or it goes on between entering its path and leaving it. -/
theorem render_cases (page : Page) (s : Session RenderStack) :
    (∃ f, env.scope.enter (.ofText page.name) s = .error f ∧ env.render page s = (.error f, s)) ∨
    ∃ answer entered after, env.scope.enter (.ofText page.name) s = .ok entered ∧ R entered after ∧
      env.render page s = (answer, after.leave) := by
  unfold Environment.render
  cases he : env.scope.enter (.ofText page.name) s with
  | error f => exact .inl ⟨f, rfl, rfl⟩
  | ok entered =>
    have hr := h.across_renderNamed (levels env.scope.tree) page.name page.source page.context (entered.loading [])
    dsimp only
    generalize renderNamed _ env page.name page.source page.context (entered.loading []) = y at hr
    obtain ⟨answer, after⟩ := y
    have hpage : R entered (after.loading s.engine.loaded) :=
      h.trans (h.loading [] entered) (h.trans hr (h.loading s.engine.loaded after))
    cases answer with
    | ok text => exact .inr ⟨_, entered, _, rfl, hpage, rfl⟩
    | error fault => exact .inr ⟨_, entered, _, rfl, hpage, rfl⟩

theorem render_keeps {page : Page} {s : Session RenderStack}
    (hpage : ∀ {entered after}, env.scope.enter (.ofText page.name) s = .ok entered → R entered after →
      R s after.leave) : R s (env.render page s).2 := by
  obtain ⟨f, -, hr⟩ | ⟨answer, entered, after, he, ha, hr⟩ := h.render_cases page s
  · rw [hr]
    exact h.refl s
  · rw [hr]
    exact hpage he ha

end Steady
end Folio.Template
