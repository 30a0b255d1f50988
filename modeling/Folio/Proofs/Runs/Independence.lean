import Folio.Proofs.Runs.Conservation
import Folio.Proofs.Stack.Balance
/-!
# Files do not influence one another

A render notices nothing of its session but the stack, since what is loaded for a page is loaded for it alone, and leaves
nothing behind but reports.  So in two sessions with
the same stack and the same reports waiting (`Session.Twin`) it comes to the same answer and to such sessions again
(`render_twin`).  Between two files the stack is empty and no report is waiting (`Session.Idle`), as in a session that
has just been started; so a file comes to the result that it has in a run of its own, whatever was processed before it
and whatever became of the files of the tree in the meantime (`live_eq_afresh`).
-/
namespace Folio

/-! ## Sessions that a render cannot tell apart -/

/-- Two sessions with the same stack and the same reports waiting; who listens and what was heard may differ. -/
structure Session.Twin (s s' : Session RenderStack) : Prop where
  pending : s.channel.pending = s'.channel.pending
  paths : s.engine.paths = s'.engine.paths

namespace Session.Twin

variable {s s' : Session RenderStack} (h : s.Twin s')
include h

theorem report (r : Report) : (s.report r).Twin (s'.report r) where
  pending := by
    show s.channel.pending ++ [r] = s'.channel.pending ++ [r]
    rw [h.pending]
  paths := h.paths

theorem filterReport_eq (name : String) (f : Failure) :
    Template.filterReport name f s = Template.filterReport name f s' := by
  unfold Template.filterReport RenderStack.current?
  rw [h.paths]

theorem reportFilter (name : String) (f : Failure) :
    (s.report (Template.filterReport name f s)).Twin (s'.report (Template.filterReport name f s')) := by
  rw [h.filterReport_eq]
  exact h.report _

theorem leave : s.leave.Twin s'.leave where
  pending := h.pending
  paths := congrArg List.dropLast h.paths

theorem enter (scope : Scope) (p : Path) :
    (∃ f, scope.enter p s = .error f ∧ scope.enter p s' = .error f) ∨
    ∃ entered entered', scope.enter p s = .ok entered ∧ scope.enter p s' = .ok entered' ∧ entered.Twin entered' := by
  by_cases hp : scope.resolve p ∈ s.engine.paths
  · refine .inl ⟨_, Scope.enter_of_mem hp, ?_⟩
    rw [Scope.enter_of_mem (h.paths ▸ hp), h.paths]
  · refine .inr ⟨_, _, Scope.enter_of_not_mem hp, Scope.enter_of_not_mem (h.paths ▸ hp), h.pending, ?_⟩
    exact congrArg (· ++ [scope.resolve p]) h.paths

end Session.Twin

/-- Inside of a page they have the same templates loaded, too. -/
def Session.TwinInside (s s' : Session RenderStack) : Prop := s.Twin s' ∧ s.engine.loaded = s'.engine.loaded

theorem twin_simulation (env : Template.Environment) :
    Template.Simulation env env.filters fun _ : Unit => Session.TwinInside := by
  refine .ofSame (fun name h => ⟨⟨h.1.pending, h.1.paths⟩, congrArg (List.insert name) h.2⟩) (fun h => h.2)
    (fun name f h => ⟨h.1.reportFilter name f, h.2⟩) fun {_ s s' path _} _ h => ?_
  by_cases hp : env.scope.resolve path ∈ s.engine.paths
  · refine .inl ⟨_, _, Scope.enter_of_mem hp, Scope.enter_of_mem (h.1.paths ▸ hp), fun name => ?_⟩
    rw [h.1.paths]
    exact ⟨h.1.reportFilter name _, h.2⟩
  · refine .inr ⟨(), _, _, Scope.enter_of_not_mem hp, Scope.enter_of_not_mem (h.1.paths ▸ hp), ?_, fun ha => ?_⟩
    · exact ⟨⟨h.1.pending, congrArg (· ++ [env.scope.resolve path]) h.1.paths⟩, h.2⟩
    · exact ⟨ha.1.leave, ha.2⟩

/-- **A render comes to the same answer in sessions that it cannot tell apart.** -/
theorem render_twin (env : Template.Environment) (page : Page) {s s' : Session RenderStack} (h : s.Twin s') :
    (env.render page s).1 = (env.render page s').1 ∧ (env.render page s).2.Twin (env.render page s').2 := by
  refine (twin_simulation env).render_alike (fun _ => Session.Twin) (i := ()) ?_
  obtain ⟨f, hf, hf'⟩ | ⟨entered, entered', he, he', hentered⟩ := h.enter env.scope (.ofText page.name)
  · exact .inl ⟨f, hf, hf', h⟩
  · refine .inr ⟨(), entered, entered', he, he', ⟨⟨hentered.pending, hentered.paths⟩, rfl⟩, fun ha => ?_⟩
    exact Session.Twin.leave ⟨ha.1.pending, ha.1.paths⟩

/-- A file comes to the same in sessions that a render cannot tell apart. -/
theorem renderWith_twin (env : Template.Environment) (globals : Fields) (extensions : List String) (f : ContentFile)
    {s s' : Session RenderStack} (h : s.Twin s') :
    (f.renderWith env.render globals extensions s).1 = (f.renderWith env.render globals extensions s').1 ∧
    (f.renderWith env.render globals extensions s).2.1 = (f.renderWith env.render globals extensions s').2.1 ∧
    (f.renderWith env.render globals extensions s).2.2.Twin (f.renderWith env.render globals extensions s').2.2 := by
  unfold ContentFile.renderWith
  split
  · exact ⟨rfl, rfl, h.report _⟩
  · cases f.page? globals extensions with
    | none => exact ⟨rfl, rfl, h⟩
    | some page =>
      obtain ⟨hanswer, hafter⟩ := render_twin env page h
      dsimp only
      generalize env.render page s = y at hanswer hafter
      generalize env.render page s' = y' at hanswer hafter
      obtain ⟨answer, after⟩ := y
      obtain ⟨answer', after'⟩ := y'
      obtain rfl : answer = answer' := hanswer
      cases answer with
      | ok text => exact ⟨rfl, rfl, hafter⟩
      | error failure => exact ⟨rfl, rfl, hafter.report _⟩

theorem Config.process_twin (c : Config) (t : FileTree) (now : Calendar.Moment) (f : ContentFile)
    {s s' : Session RenderStack} (h : s.Twin s') : (c.process t now f s).1 = (c.process t now f s').1 := by
  obtain ⟨hfile, hstatus, hafter⟩ := renderWith_twin (c.environment t now) c.globals c.htmlExtensions f h
  rcases hr : f.renderWith (c.environment t now).render c.globals c.htmlExtensions s with ⟨g, status, after⟩
  rcases hr' : f.renderWith (c.environment t now).render c.globals c.htmlExtensions s' with ⟨g', status', after'⟩
  rw [hr, hr'] at hfile hstatus hafter
  obtain rfl : g = g' := hfile
  obtain rfl : status = status' := hstatus
  unfold process
  rw [transform_of_renderWith hr, transform_of_renderWith hr', hafter.pending]

/-! ## Between two files -/

/-- Nothing is being rendered, and no report is waiting. -/
structure Session.Idle (s : Session RenderStack) : Prop where
  pending : s.channel.pending = []
  paths : s.engine.paths = []

theorem Session.Idle.start : RunSession.start.Idle := ⟨rfl, rfl⟩

theorem Session.Idle.twin {s s' : Session RenderStack} (h : s.Idle) (h' : s'.Idle) : s.Twin s' :=
  ⟨h.pending.trans h'.pending.symm, h.paths.trans h'.paths.symm⟩

theorem transform_paths (env : Template.Environment) (globals : Fields) (extensions : List String) (f : ContentFile)
    (s : Session RenderStack) :
    s.engine.paths = (transform env.render globals extensions f s).2.engine.paths := by
  rw [transform_of_renderWith rfl]
  exact f.renderWith_keeps (R := fun s s' => s.engine.paths = s'.engine.paths) (fun _ => rfl) Eq.trans
    (fun _ _ => rfl) (fun page s => (render_course env page s).1.symm) globals extensions s

theorem Session.Idle.process {s : Session RenderStack} (h : s.Idle) (c : Config) (t : FileTree) (now : Calendar.Moment)
    (f : ContentFile) : (c.process t now f s).2.Idle where
  pending := rfl
  paths := (transform_paths (c.environment t now) c.globals c.htmlExtensions f s).symm.trans h.paths

/-- The result of a file in a run of its own. -/
def Config.alone (c : Config) (t : FileTree) (now : Calendar.Moment) (f : ContentFile) : Transformed :=
  (c.process t now f RunSession.start).1

theorem Config.process_of_idle (c : Config) (t : FileTree) (now : Calendar.Moment) (f : ContentFile)
    {s : Session RenderStack} (h : s.Idle) : (c.process t now f s).1 = c.alone t now f :=
  c.process_twin t now f (h.twin Session.Idle.start)

/-! ## Histories -/

/-- What happens between a run's start and its end. -/
inductive RunEvent where
  | process (now : Calendar.Moment) (f : ContentFile)
  /-- Files are written or removed. -/
  | edit (change : FileTree → FileTree)

/-- The results of a history in one session. -/
def Config.live (c : Config) : List RunEvent → FileTree → RunSession → List Transformed × RunSession
  | [], _, s => ([], s)
  | .process now f :: events, t, s =>
    let (done, s) := c.process t now f s
    let (rest, s) := c.live events t s
    (done :: rest, s)
  | .edit change :: events, t, s => c.live events (change t) s

/-- The results of a history, each file's in a run of its own over the tree of the moment. -/
def Config.afresh (c : Config) : List RunEvent → FileTree → List Transformed
  | [], _ => []
  | .process now f :: events, t => c.alone t now f :: c.afresh events t
  | .edit change :: events, t => c.afresh events (change t)

theorem Config.live_of_idle (c : Config) : ∀ (events : List RunEvent) (t : FileTree) {s : RunSession}, s.Idle →
    (c.live events t s).1 = c.afresh events t ∧ (c.live events t s).2.Idle
  | [], _, _, hs => ⟨rfl, hs⟩
  | .process now f :: events, t, s, hs => by
    obtain ⟨hrest, hafter⟩ := c.live_of_idle events t (hs.process c t now f)
    refine ⟨?_, hafter⟩
    show (c.process t now f s).1 :: (c.live events t (c.process t now f s).2).1 = _
    rw [hrest, c.process_of_idle t now f hs]
    rfl
  | .edit change :: events, t, _, hs => c.live_of_idle events (change t) hs

theorem Config.results_of_idle (c : Config) (t : FileTree) (now : Calendar.Moment) : ∀ (files : List ContentFile)
    {s : RunSession}, s.Idle → (results (c.process t now) files s).1 = files.map (c.alone t now)
  | [], _, _ => rfl
  | f :: files, s, hs => by
    rw [results_cons, List.map_cons, c.process_of_idle t now f hs, c.results_of_idle t now files (hs.process c t now f)]

/-- **Files do not influence one another.**  In any history of processing and of changes of the tree, every file comes
to the result that it has in a run of its own over the tree of the moment.  So a lenient run sums up the results that its
files have by themselves, and its files in another order have the same results in that order. -/
theorem files_independent (c : Config) {s : RunSession} (hs : s.Idle) :
    (∀ events t, (c.live events t s).1 = c.afresh events t ∧ (c.live events t s).2.Idle) ∧
    (c.failOnError = false → ∀ t now files,
      (results (c.process t now) files s).1 = files.map (c.alone t now) ∧
      (∃ after, c.run t now files s =
        (.ok ((files.map (c.alone t now)).foldl Summary.record .empty), after)) ∧
      ∀ files' : List ContentFile, files.Perm files' →
        (files.zip (results (c.process t now) files s).1).Perm
          (files'.zip (results (c.process t now) files' s).1)) := by
  refine ⟨fun events t => c.live_of_idle events t hs, fun hc t now files => ?_⟩
  have hresults := fun fs => c.results_of_idle t now fs hs
  refine ⟨hresults files, ⟨_, (c.run_lenient hc t now files s).trans (by rw [hresults])⟩, fun files' hperm => ?_⟩
  -- Every file is paired with a result that depends on it alone, and such a list follows its files in any order.
  rw [hresults, hresults, ← List.map_prod_left_eq_zip, ← List.map_prod_left_eq_zip]
  exact hperm.map _

/-- A page is processed before and after a template that it includes is removed, while someone listens: each time it
comes to what a run of its own makes of it at that moment. -/
theorem files_independent_include :
    (⟨Channel.empty.subscribe, .empty⟩ : RunSession).Idle ∧
    let c := (Config.default (.ofText "/")).withPath (.ofText "/layouts")
    let place := [Bytes.ofText "layouts", Bytes.ofText "t.html"]
    let t : FileTree := ⟨[(place, .file (Bytes.ofText "hi")), ([Bytes.ofText "layouts"], .directory)], []⟩
    let page : ContentFile :=
      ⟨.ofText "a.html", .buffer (Bytes.ofText "\x7b% include 't.html' %\x7d"), some [], .at ⟨0, 0, 0⟩⟩
    (c.live [.process ⟨0, 0, 0⟩ page, .edit (·.remove place), .process ⟨0, 0, 0⟩ page] t
      ⟨Channel.empty.subscribe, .empty⟩).1 =
      [c.alone t ⟨0, 0, 0⟩ page, c.alone (t.remove place) ⟨0, 0, 0⟩ page] := by
  have hidle : (⟨Channel.empty.subscribe, .empty⟩ : RunSession).Idle := ⟨rfl, rfl⟩
  refine ⟨hidle, ?_⟩
  intro c place t page
  exact ((files_independent c hidle).1 _ t).1

end Folio
