import Folio.Proofs.Layout.Wrapping
import Folio.Proofs.Template.InBlock
/-!
# Pass-through layouts

A layout that is nothing but its content block puts a body through as it is.  A wrapped body takes its turn as the block
of the layout, and there it evaluates as it does alone in that place (`runner_wrap`), so the page comes to the same text
(`render_wrap`); only after an opening brace it comes to nothing (`render_wrap_brace`).
-/
namespace Folio.Template

/-- The run of a page in its place, once the page has been entered. -/
def Run.startAt (p : Placement) (t : Template) (page : Page) (entered : Session RenderStack) : Run :=
  { Run.start t page.context (entered.loading p.loaded) with inherited := p.inherited, outerDepth := p.depth }

/-- Where nothing has happened since, the page is left as it was entered. -/
theorem Run.leave_startAt {scope : Scope} {path : Path} {session entered : Session RenderStack}
    (henter : scope.enter path session = .ok entered) (p : Placement) (t : Template) (page : Page) :
    ((Run.startAt p t page entered).session.loading session.engine.loaded).leave = entered.leave := by
  have hstart : (Run.startAt p t page entered).session = entered.loading p.loaded := rfl
  rw [hstart, Session.loading_loading, Scope.loading_of_enter henter]

/-- The renderer of pages in their places. -/
def Environment.renderAt (env : Environment) (p : Placement) : Renderer RenderStack := fun page session =>
  match env.scope.enter (.ofText page.name) session with
  | .error f => (.error f, session)
  | .ok entered =>
    match readAt p page.name page.source with
    | .error f => (.error (.ofFault f), (entered.loading session.engine.loaded).leave)
    | .ok t =>
      match runner p.levels ⟨env, page.name, env.escapes page.name, none⟩ t.body (.startAt p t page entered) with
      | .ok _ r => (.ok r.sink.text, (r.session.loading session.engine.loaded).leave)
      | .error f r => (.error (.ofFault f), (r.session.loading session.engine.loaded).leave)

/-- A page renders if it is entered and read, and its statements are evaluated. -/
theorem renderAt_eq_ok {env : Environment} {p : Placement} {page : Page} {session after : Session RenderStack}
    {text : String} : env.renderAt p page session = (.ok text, after) ↔
      ∃ entered t r, env.scope.enter (.ofText page.name) session = .ok entered ∧
        readAt p page.name page.source = .ok t ∧
        runner p.levels ⟨env, page.name, env.escapes page.name, none⟩ t.body (.startAt p t page entered) = .ok () r ∧
        text = r.sink.text ∧ after = (r.session.loading session.engine.loaded).leave := by
  unfold Environment.renderAt
  constructor
  · intro h
    cases henter : env.scope.enter (.ofText page.name) session with
    | error f =>
      rw [henter] at h
      cases h
    | ok entered =>
      rw [henter] at h
      cases hread : readAt p page.name page.source with
      | error f =>
        rw [hread] at h
        cases h
      | ok t =>
        rw [hread] at h
        dsimp only at h
        cases hrun : runner p.levels ⟨env, page.name, env.escapes page.name, none⟩ t.body (.startAt p t page entered) with
        | error f r =>
          rw [hrun] at h
          cases h
        | ok _ r =>
          rw [hrun] at h
          cases h
          exact ⟨entered, t, r, rfl, rfl, hrun, rfl, rfl⟩
  · rintro ⟨entered, t, r, henter, hread, hrun, rfl, rfl⟩
    rw [henter]
    dsimp only
    rw [hread]
    dsimp only
    rw [hrun]

theorem renderAt_alone (env : Environment) : env.renderAt (.alone env.scope.tree) = env.render := by
  funext page session
  unfold Environment.renderAt Environment.render renderNamed
  cases env.scope.enter (.ofText page.name) session with
  | error f => rfl
  | ok entered =>
    dsimp only
    rw [readAt_alone]
    cases read page.name page.source with
    | error f => rfl
    | ok t =>
      dsimp only
      show (match runner (levels env.scope.tree) ⟨env, page.name, env.escapes page.name, none⟩ t.body
          (Run.start t page.context (entered.loading [])) with
        | .ok _ r => (Except.ok r.sink.text, (r.session.loading session.engine.loaded).leave)
        | .error f r => (.error (Failure.ofFault f), (r.session.loading session.engine.loaded).leave)) = _
      cases runner (levels env.scope.tree) ⟨env, page.name, env.escapes page.name, none⟩ t.body
        (Run.start t page.context (entered.loading [])) <;> rfl

theorem runner_ofText (n : Nat) (here : Here) {r : Run} (hempty : r.sink = .empty) (hparent : r.parent = none)
    (source : String) :
    ∃ s, runner (n + 1) here (Stmt.ofText source) r = .ok () s ∧ s.sink.text = source ∧ s.session = r.session := by
  obtain ⟨session, frames, scopes, sink, blocks, inherited, parent, outerDepth, origins⟩ := r
  cases hempty
  cases hparent
  unfold Stmt.ofText
  cases hsource : source.toList with
  | nil =>
    refine ⟨_, rfl, ?_, rfl⟩
    rw [← String.ofList_toList (s := source), hsource]
    rfl
  | cons c cs =>
    refine ⟨_, rfl, ?_, rfl⟩
    show String.join [source] = source
    simp

/-- **Text without marks renders as itself** in every place. -/
theorem renderAt_unmarked {env : Environment} {p : Placement} (hlevels : 1 ≤ p.levels) {page : Page}
    (hpage : Unmarked page.source.toList) {session entered : Session RenderStack}
    (henter : env.scope.enter (.ofText page.name) session = .ok entered) :
    env.renderAt p page session = (.ok page.source, entered.leave) := by
  let t : Template := ⟨page.name, Stmt.ofText page.source, []⟩
  have hempty : (Run.startAt p t page entered).sink = .empty := rfl
  obtain ⟨n, hn⟩ := Nat.exists_eq_add_of_le' hlevels
  obtain ⟨s, hrun, htext, hsession⟩ := runner_ofText n ⟨env, page.name, env.escapes page.name, none⟩ hempty rfl page.source
  rw [← hn] at hrun
  refine renderAt_eq_ok.2 ⟨entered, t, s, henter, readAt_unmarked hpage p page.name, hrun, htext.symm, ?_⟩
  rw [hsession, Run.leave_startAt henter]

end Folio.Template

namespace Folio.Layout

open Template

/-! ## Rendering a wrapped body -/

theorem checkDepth_of_le {here : Here} {line : Nat} {r : Run} (h : r.depth ≤ deepestFrame) :
    checkDepth here line r = .ok () r := by
  refine Eval.bind_eq_ok.2 ⟨_, _, rfl, ?_⟩
  rw [if_neg (Nat.not_lt.2 h)]
  rfl

/-- There are levels left for what is two levels further in. -/
theorem three_le_levels (tree : FileTree) : 3 ≤ levels tree := by
  have hpath : 1 ≤ (tree.nodes.length + 1) * (FileTree.longestPath + 1) := Nat.mul_pos (Nat.succ_pos _) (Nat.succ_pos _)
  have hframes : 1 * 501 ≤ (tree.nodes.length + 1) * (FileTree.longestPath + 1) * (deepestFrame + 1) :=
    Nat.mul_le_mul hpath (Nat.le_refl 501)
  calc 3 ≤ 1 * 501 * 2 := by decide
    _ ≤ (tree.nodes.length + 1) * (FileTree.longestPath + 1) * (deepestFrame + 1) * (tree.nodes.length + 2) :=
      Nat.mul_le_mul hframes (Nat.le_add_left 2 _)

theorem readAt_stays {p : Placement} {name source : String} (h : Without layoutWords (Lexemes.ofText source).items)
    {u : Template} (hread : readAt p name source = .ok u) : u.blocks = [] ∧ Stmt.StayAll u.body := by
  unfold readAt at hread
  have hwithout : Without layoutWords (scan (.outside false) p.line source.toList).items := by
    unfold Without
    rw [tagWords_congr (tokens_scan source.toList (.outside false) p.line 1)]
    exact h
  dsimp only at hread
  split at hread
  · rename_i ss c hbody
    cases hread
    have hnone : Stmt.StayAll [] := trivial
    obtain ⟨-, hblocks, hstays⟩ := (stmtYields _).body [] hnone _ hwithout ss c hbody
    exact ⟨congrArg List.reverse hblocks, hstays⟩
  · cases hread

section

variable {env : Environment} {layout : String} (hlayout : source? env.scope.tree env.paths layout = .ok (some passThrough))
include hlayout

theorem template_passThrough :
    env.template layout = .ok (some ⟨layout, [.block 1 contentBlock], [(contentBlock, [])]⟩) := by
  unfold Environment.template
  rw [hlayout]
  dsimp only
  rw [read_passThrough]

/-- The layout takes the block of the page in front of its own, and what the page prints is lost from there on. -/
theorem exec_extends (run : Runner) (here : Here) (hhere : here.env = env) (page : String) (ss : List Stmt) (r : Run)
    (hblocks : r.blocks = [(contentBlock, ⟨[(page, ss)], 0⟩)]) (hparent : r.parent = none) (hinherited : r.inherited = [])
    (line : Nat) :
    Stmt.execAll run here [.inherit 1 (.constant 1 (.text layout)), .block line contentBlock] r =
      .ok () { r with
        session := r.session.load layout
        inherited := [layout]
        blocks := [(contentBlock, ⟨[(page, ss), (layout, [])], 0⟩)]
        parent := some (layout, [.block 1 contentBlock])
        sink := { r.sink with discarding := true } } := by
  obtain ⟨session, frames, scopes, sink, blocks, inherited, parent, outerDepth, origins⟩ := r
  cases hblocks
  cases hparent
  cases hinherited
  subst hhere
  have hinherit : inheritFrom here 1 (.plain layout) ⟨session, frames, scopes, sink, [(contentBlock, ⟨[(page, ss)], 0⟩)], [],
      none, outerDepth, origins⟩ = .ok () ⟨session.load layout, frames, scopes, { sink with discarding := true },
        [(contentBlock, ⟨[(page, ss), (layout, [])], 0⟩)], [layout], some (layout, [.block 1 contentBlock]), outerDepth, origins⟩ := by
    refine Eval.bind_eq_ok.2 ⟨_, _, rfl, Eval.bind_eq_ok.2 ⟨_, _, rfl, ?_⟩⟩
    dsimp only
    unfold findTemplate
    rw [template_passThrough hlayout]
    rfl
  simp only [Stmt.execAll, Stmt.exec, Expr.eval]
  exact Eval.bind_eq_ok.2 ⟨(), _, Eval.bind_eq_ok.2 ⟨.plain layout, _, rfl, hinherit⟩, rfl⟩

omit hlayout in
/-- The content block of the layout, which is the body of the page. -/
theorem runner_block {n : Nat} {here : Here} {page : String} {ss : List Stmt} {layers : List (String × List Stmt)} {r s : Run}
    (hblocks : r.blocks = [(contentBlock, ⟨(page, ss) :: layers, 0⟩)]) (hparent : r.parent = none)
    (hprints : r.sink.discarding = false) (hdepth : r.depth ≤ deepestFrame) (line : Nat)
    (hbody : runner n { here with template := page, block := some contentBlock } ss
      { r with frames := .empty :: r.frames } = .ok () s) :
    runner (n + 1) here [.block line contentBlock] r = .ok () { s with frames := s.frames.tail } := by
  have hnone := (runner_parent hbody).trans hparent
  obtain ⟨session, frames, scopes, ⟨pieces, discarding⟩, blocks, inherited, parent, outerDepth, origins⟩ := r
  cases hblocks
  cases hparent
  cases hprints
  have hcall : callBlock (runner n) here line contentBlock ⟨session, frames, scopes, ⟨pieces, false⟩,
      [(contentBlock, ⟨(page, ss) :: layers, 0⟩)], inherited, none, outerDepth, origins⟩ =
      .ok () { s with frames := s.frames.tail } := by
    refine Eval.bind_eq_ok.2 ⟨_, _, rfl, ?_⟩
    show inFrame here line .empty _ _ = _
    refine Eval.bind_eq_ok.2 ⟨(), _, checkDepth_of_le hdepth, Eval.bind_eq_ok.2 ⟨(), _, rfl, ?_⟩⟩
    exact Eval.bind_eq_ok.2 ⟨(), s, hbody, rfl⟩
  have hstatements : Stmt.execAll (runner n) here [.block line contentBlock] ⟨session, frames, scopes, ⟨pieces, false⟩,
      [(contentBlock, ⟨(page, ss) :: layers, 0⟩)], inherited, none, outerDepth, origins⟩ =
      .ok () { s with frames := s.frames.tail } := by
    simp only [Stmt.execAll, Stmt.exec]
    exact Eval.bind_eq_ok.2 ⟨(), _, Eval.bind_eq_ok.2 ⟨_, _, rfl, hcall⟩, rfl⟩
  rw [runner]
  refine Eval.bind_eq_ok.2 ⟨_, _, rfl, Eval.bind_eq_ok.2 ⟨(), _, rfl, Eval.bind_eq_ok.2 ⟨(), _, hstatements, ?_⟩⟩⟩
  refine Eval.bind_eq_ok.2 ⟨_, _, rfl, ?_⟩
  obtain ⟨session', frames', scopes', sink', blocks', inherited', parent', outerDepth', origins'⟩ := s
  cases hnone
  rfl

/-- **Inside the block the body evaluates as it does alone in its place.** -/
theorem runner_wrap {n : Nat} {page : String} {escaping : Bool} {u : Template} (hblocks : u.blocks = [])
    (hstays : Stmt.StayAll u.body) {context : Fields} {session : Session RenderStack} {s : Run}
    (h : runner n ⟨env, page, escaping, none⟩ u.body
      { Run.start u context (session.load layout) with inherited := [layout], outerDepth := 1 } = .ok () s) (ss : List Stmt) (line : Nat) :
    ∃ s', runner (n + 2) ⟨env, page, escaping, none⟩
        [.inherit 1 (.constant 1 (.text layout)), .block line contentBlock]
        (Run.start ⟨page, ss, [(contentBlock, u.body)]⟩ context session) = .ok () s' ∧
      s'.sink = s.sink ∧ s'.session = s.session := by
  let given : Variables := context.map fun e => (e.1, .ofDatum e.2)
  -- The run in which the layout goes on.
  let r : Run := ⟨session.load layout, [⟨[], none, .given given, none⟩], [], .empty,
    [(contentBlock, ⟨[(page, u.body), (layout, [])], 0⟩)], [layout], none, 0, []⟩
  have hin : InBlock given False 0
      { Run.start u context (session.load layout) with inherited := [layout], outerDepth := 1 }
      { r with frames := .empty :: r.frames } := {
    session := rfl
    scopes := rfl
    sink := rfl
    inherited := rfl
    parent := rfl
    frames := .outermost .empty
    outerDepth := rfl
    origins := rfl
    same := False.elim
    stays := fun _ => ⟨by simp only [Run.start, addBlocks, hblocks, List.foldl_nil], rfl⟩ }
  obtain ⟨t, hbody, ht⟩ := runner_stays n (.intro (some contentBlock) (.inl rfl)) hstays 0 _ _ hin _ _ h
  have hdepth : r.depth ≤ deepestFrame := Nat.le_add_left 1 499
  have hblock : runner (n + 1) ⟨env, layout, escaping, none⟩ [.block 1 contentBlock] r =
      .ok () { t with frames := t.frames.tail } := runner_block rfl rfl rfl hdepth 1 hbody
  have hextends := exec_extends hlayout (runner (n + 1)) ⟨env, page, escaping, none⟩ rfl page u.body
    (Run.start ⟨page, ss, [(contentBlock, u.body)]⟩ context session) rfl rfl rfl line
  refine ⟨{ t with frames := t.frames.tail, parent := none }, ?_, ht.sink, ht.session⟩
  rw [runner]
  refine Eval.bind_eq_ok.2 ⟨_, _, rfl, Eval.bind_eq_ok.2 ⟨(), _, rfl, Eval.bind_eq_ok.2 ⟨(), _, hextends, ?_⟩⟩⟩
  refine Eval.bind_eq_ok.2 ⟨_, _, rfl, Eval.bind_eq_ok.2 ⟨(), _, rfl, Eval.bind_eq_ok.2 ⟨(), _, hblock, rfl⟩⟩⟩

/-- **A wrapped body comes to the same text as in its place.** -/
theorem render_wrap {page : Page} {session after : Session RenderStack} {text : String}
    (hlast : Apart page.source.toList) (htags : Without layoutWords (Lexemes.ofText page.source).items)
    (hrender : env.renderAt (.inside env.scope.tree layout) page session = (.ok text, after)) :
    env.render { page with source := wrap page.source layout } session = (.ok text, after) := by
  obtain ⟨entered, u, s, henter, hread, hrun, rfl, rfl⟩ := renderAt_eq_ok.1 hrender
  obtain ⟨hblocks, hstays⟩ := readAt_stays htags hread
  have hinside : runner (levels env.scope.tree - 2) ⟨env, page.name, env.escapes page.name, none⟩ u.body
      { Run.start u page.context ((entered.loading []).load layout) with inherited := [layout], outerDepth := 1 } =
      .ok () s := hrun
  obtain ⟨s', hrun', hsink, hsession⟩ := runner_wrap hlayout hblocks hstays hinside
    [.inherit 1 (.constant 1 (.text layout)), .block (1 + newlines layout.toList) contentBlock]
    (1 + newlines layout.toList)
  have hlevels : levels env.scope.tree - 2 + 2 = levels env.scope.tree :=
    Nat.sub_add_cancel (Nat.le_of_succ_le (three_le_levels env.scope.tree))
  rw [hlevels] at hrun'
  rw [← renderAt_alone]
  exact renderAt_eq_ok.2 ⟨entered, _, s', henter, read_wrap hlast hread hblocks, hrun', congrArg Sink.text hsink.symm,
    congrArg (fun s => (Session.loading s session.engine.loaded).leave) hsession.symm⟩

end

/-- A wrapped body that ends with a brace does not render. -/
theorem render_wrap_brace {env : Environment} {page : Page} {session after : Session RenderStack} {text : String}
    (hrender : env.render page session = (.ok text, after))
    (htags : Without ["endblock"] (Lexemes.ofText page.source).items)
    (hlast : page.source.toList.getLast? = some '\x7b') (layout : String) :
    ∃ f session', env.render { page with source := wrap page.source layout } session = (.error f, session') := by
  rw [← renderAt_alone] at hrender ⊢
  obtain ⟨entered, u, -, -, hread, -⟩ := renderAt_eq_ok.1 hrender
  obtain ⟨f, hfail⟩ := read_wrap_brace hread htags hlast layout
  cases hwrap : env.renderAt (.alone env.scope.tree) { page with source := wrap page.source layout } session with
  | mk answer session' =>
    cases answer with
    | error f => exact ⟨f, session', rfl⟩
    | ok text =>
      obtain ⟨_, t, -, -, hread', -⟩ := renderAt_eq_ok.1 hwrap
      cases hfail.symm.trans hread'

end Folio.Layout
