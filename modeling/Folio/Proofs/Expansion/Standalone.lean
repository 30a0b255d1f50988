import Folio.Proofs.Expansion.Supply
import Folio.Proofs.Runs.Conservation
/-!
# A file expands to what it renders to alone

The filter `render` hands nothing of the run around it to the file that it renders: no variable, no block, no frame.  What
is left is the stack, which says which paths are refused, the channel, to which reports are added, and the engine itself.
Of the engine a file can see which templates are loaded, but only by calling `debug`.  Two evaluations of a file that does
not are compared of which the first one stands on more files than the second one (`Beside`).  They come to the same values,
and to reports that say the same, as long as nothing is refused to the first one; and if both stand on the same files, in
any case.

So what such a call of the filter comes to depends on the environment, which has the files and the one reading of the clock
that a run goes by, on the path and on the stack (`expansion_blind`); and where no file is met again it is what the file
comes to as a page of its own (`expansion_alone`).
-/
namespace Folio

/-- What a report says, whichever file the run was rendering. -/
def Report.said (r : Report) : ReportKind × String := (r.kind, r.message)

namespace Template

/-- The call was refused: its file is already being rendered. -/
def Call.isCyclic (c : Call) : Bool :=
  match c.answer with
  | .error (.cyclic _ _) => true
  | _ => false

/-! ## The same evaluation on more files -/

/-- Two sessions of which the first one has other files below the stack of the second one.  Since their channels were
given, they have had reports that say the same; with nothing below, the same reports. -/
structure Beside (below : List Path) (c c' : Channel) (paths : List Path) (s s' : Session RenderStack) : Prop where
  first : s.engine.paths = below ++ paths
  second : s'.engine.paths = paths
  reports : ∃ rs rs', s.channel = c.reportAll rs ∧ s'.channel = c'.reportAll rs' ∧
    rs.map Report.said = rs'.map Report.said ∧ (below = [] → rs = rs')

namespace Beside

variable {below paths : List Path} {c c' : Channel} {s s' after after' : Session RenderStack} {key : Path}

theorem report (h : Beside below c c' paths s s') (name : String) (f : Failure) :
    Beside below c c' paths (s.report (filterReport name f s)) (s'.report (filterReport name f s')) where
  first := h.first
  second := h.second
  reports := by
    obtain ⟨rs, rs', hrs, hrs', hsaid, hsame⟩ := h.reports
    refine ⟨rs ++ [filterReport name f s], rs' ++ [filterReport name f s'], ?_, ?_, ?_, fun hbelow => ?_⟩
    · rw [Channel.reportAll_append, ← hrs]
      rfl
    · rw [Channel.reportAll_append, ← hrs']
      rfl
    · rw [List.map_append, List.map_append, hsaid]
      rfl
    · have hstacks : s.engine.paths = s'.engine.paths := by
        rw [h.first, h.second, hbelow, List.nil_append]
      unfold filterReport RenderStack.current?
      rw [hsame hbelow, hstacks]

theorem enter (h : Beside below c c' paths s s') :
    Beside below c c' (paths ++ [key]) { s with engine := s.engine.become (s.engine.paths ++ [key]) }
      { s' with engine := s'.engine.become (s'.engine.paths ++ [key]) } where
  first := by
    show s.engine.paths ++ [key] = below ++ (paths ++ [key])
    rw [h.first, List.append_assoc]
  second := congrArg (· ++ [key]) h.second
  reports := h.reports

theorem leave (h : Beside below c c' (paths ++ [key]) after after') :
    Beside below c c' paths after.leave after'.leave where
  first := by
    show after.engine.paths.dropLast = below ++ paths
    rw [h.first, ← List.append_assoc, List.dropLast_concat]
  second := by
    show after'.engine.paths.dropLast = paths
    rw [h.second, List.dropLast_concat]
  reports := h.reports

/-- Which templates are loaded makes no difference. -/
theorem loading (h : Beside below c c' paths s s') (names : List String) :
    Beside below c c' paths s (s'.loading names) :=
  ⟨h.first, h.second, h.reports⟩

end Beside

/-- There is room in both evaluations for every file that can still be entered, and for one more. -/
def Roomy (scope : Scope) (below : List Path) (k k' : Nat) (paths : List Path) : Prop :=
  scope.unvisited (below ++ paths) < k ∧ scope.unvisited paths < k'

/-- In the sessions of evaluations with room for so many files. -/
def BesideWith (scope : Scope) (below : List Path) (c c' : Channel) (k k' : Nat) (paths : List Path)
    (s s' : Session RenderStack) : Prop :=
  Roomy scope below k k' paths ∧ Beside below c c' paths s s'

section
variable (env : Environment) (below : List Path) (c c' : Channel)

/-- The calls of filters that are not refused, or all of them if nothing is below. -/
def Admitted (e : Event) : Prop := ∃ call, e = .filter call ∧ (below = [] ∨ call.isCyclic = false)

theorem beside_tracking (k k' : Nat) : Tracking env env.filters (fun paths _ => paths) (Admitted below)
    (BesideWith env.scope below c c' (k + 1) (k' + 1)) (BesideWith env.scope below c c' k k') where
  entries name := by
    rcases Table.get? env.filters name with _ | b | f
    · exact .absent
    · exact .builtin b
    · refine .custom fun args paths s s' h => ?_
      cases f args with
      | ok w => exact ⟨rfl, h⟩
      | error failure => exact ⟨rfl, h.1, h.2.report name failure⟩
  value _ _ _ h := h
  report _ failure _ h := ⟨h.1, h.2.report _ failure⟩
  load _ h := ⟨h.1, h.2.first, h.2.second, h.2.reports⟩
  debug := by
    rintro _ _ _ ⟨call, hcall, -⟩
    cases hcall
  enter := by
    intro paths s s' path matter hm ⟨hroom, h⟩
    let key := env.scope.resolve path
    by_cases hmarked : key ∈ below ++ paths
    · -- Where something is below, only calls that are not refused are admitted.
      refine .inl ⟨_, Scope.enter_of_mem (h.first ▸ hmarked), fun name args _ hadmitted => ?_⟩
      obtain ⟨_, hcall, hadmitted⟩ := hadmitted
      cases hcall
      obtain hbelow : below = [] := hadmitted.resolve_right (nomatch ·)
      have hstacks : s'.engine.paths = s.engine.paths := by
        rw [h.first, h.second, hbelow, List.nil_append]
      refine ⟨_, Scope.enter_of_mem (hstacks.trans h.first ▸ hmarked), ?_⟩
      rw [hstacks]
      exact ⟨hroom, h.report name _⟩
    · have hinner : key ∉ paths := fun hmem => hmarked (List.mem_append_right _ hmem)
      have hreadable := Scope.readable_of_readMatter hm
      have hless := Scope.unvisited_entered hreadable hmarked
      have hless' := Scope.unvisited_entered hreadable hinner
      rw [List.append_assoc] at hless
      refine .inr ⟨paths ++ [key], _, _, Scope.enter_of_not_mem (h.first ▸ hmarked),
        Scope.enter_of_not_mem (h.second ▸ hinner), ⟨⟨?_, ?_⟩, h.enter⟩, fun calls after after' ha => ?_⟩
      · exact Nat.lt_of_lt_of_le hless (Nat.le_of_lt_succ hroom.1)
      · exact Nat.lt_of_lt_of_le hless' (Nat.le_of_lt_succ hroom.2)
      · rw [List.foldl_fixed] at ha ⊢
        exact ⟨hroom, ha.2.leave⟩

/-- **With room for the files that can still be entered, it does not matter for how many more there would be.** -/
theorem evaluateFile_beside : ∀ k k' : Nat, EvaluatorAgrees env env.filters (fun paths _ => paths) (Admitted below)
    (BesideWith env.scope below c c' k k') (evaluateFile k) (evaluateFile k') (watchFile k)
  | 0, _ => fun _ _ _ _ _ _ hr _ => absurd hr.related.1.1 (Nat.not_lt_zero _)
  | _, 0 => fun _ _ _ _ _ _ hr _ => absurd hr.related.1.2 (Nat.not_lt_zero _)
  | k + 1, k' + 1 => fun here body hh =>
    (beside_tracking env below c c' k k').within_agrees (evaluateFile_beside k k') (levels here.env.scope.tree) here body
      hh

/-- Likewise in a page, which is evaluated by itself. -/
theorem evaluateFile_beside_page : ∀ k : Nat, EvaluatorAgrees env env.filters (fun paths _ => paths) (Admitted below)
    (BesideWith env.scope below c c' k (renders env.scope.tree + 1)) (evaluateFile k)
    (runner (levels env.scope.tree)).evaluate (watchFile k)
  | 0 => fun _ _ _ _ _ _ hr _ => absurd hr.related.1.1 (Nat.not_lt_zero _)
  | k + 1 => by
    rintro here body rfl
    refine (beside_tracking here.env below c c' k _).within_agrees (fun there body hh => ?_) _ here body rfl
    have hnested : evaluateNested (there.withFilters here.env.filters) body =
        evaluateFile (renders here.env.scope.tree) (there.withFilters here.env.filters) body := by
      unfold evaluateNested
      rw [Here.withFilters_env hh]
    rw [hnested]
    exact evaluateFile_beside here.env below c c' k _ there body hh

end

/-! ## Calls of the filter -/

section
variable {env : Environment} {run run' : Runner} {watch watch' : Watch} {name text : String}

/-- A call on a path from two stacks of which the first one has more below. -/
theorem renderFile_beside {below paths : List Path} {c c' : Channel} {s s' : Session RenderStack} {k k' : Nat}
    (hfile : EvaluatorAgrees env env.filters (fun paths _ => paths) (Admitted below)
      (BesideWith env.scope below c c' k k') run.file run'.file watch.file)
    (hname : Table.get? env.filters name = some (.builtin .render)) (hroom : env.scope.unvisited (below ++ paths) ≤ k)
    (hroom' : env.scope.unvisited paths ≤ k') (hs : Beside below c c' paths s s') (v : Value) (args : List Value)
    (hinside : ∀ call ∈ Calls.ofFile watch env v s, Admitted below call)
    (hcall : Admitted below
      (.filter ⟨name, args, (renderFile run env v s).1, (renderFile run env v s).2.engine.current?⟩)) :
    SettleAlike (Beside below c c' paths) name (renderFile run env v s) (renderFile run' env v s') := by
  have hstart : BesideWith env.scope below c c' (k + 1) (k' + 1) paths s s' :=
    ⟨⟨Nat.lt_succ_of_le hroom, Nat.lt_succ_of_le hroom'⟩, hs⟩
  have hsettled := (beside_tracking env below c c' k k').renderFile_alike hfile (Filters.isBuiltin_of_get? hname) args v
    hstart hinside hcall
  rw [List.foldl_fixed] at hsettled
  exact ⟨hsettled.value, hsettled.session.2⟩

/-- Events among which the engine is not asked for its state. -/
theorem admitted_of_not_mem {below : List Path} {events : List Event} (hsees : .debug ∉ events)
    (hmet : below = [] ∨ ∀ c ∈ events.filterMap Event.call?, c.isCyclic = false) : ∀ e ∈ events, Admitted below e := by
  intro e he
  cases e with
  | filter c => exact ⟨c, rfl, hmet.imp_right fun h => h c (List.mem_filterMap.2 ⟨_, he, rfl⟩)⟩
  | debug => exact absurd he hsees

/-- A call of a filter with whatever it is made from: the runner, the place in a template, the run with its variables, and
arguments that the filter does not use.  It is made on a stack, and the runner serves the stack. -/
structure Caller (env : Environment) (stack : List Path) where
  run : Runner
  watch : Watch
  here : Here
  line : Nat
  safe : Bool
  args : Arguments
  start : Run
  serves : Serves env stack run watch
  inside : here.env = env
  stands : start.session.engine.paths = stack

namespace Caller

variable {stack : List Path} (c : Caller env stack) (name text : String)

/-- What the call comes to on a path. -/
def expand : EStateM.Result Fault Run Value := applyFilter c.run c.here c.line name (.text text c.safe) c.args c.start

/-- The calls that are made in it, and the call itself. -/
def events : List Event := Calls.ofFilter c.run c.watch c.here name (.text text c.safe) c.args c.start

variable {c name text}

theorem expand_eq (hname : Table.get? env.filters name = some (.builtin .render)) :
    c.expand name text = .ok (settled name (renderFile c.run env (.text text c.safe) c.start.session)).1
      { c.start with session := (settled name (renderFile c.run env (.text text c.safe) c.start.session)).2 } := by
  obtain ⟨run, watch, here, line, safe, args, start, -, rfl, -⟩ := c
  exact applyFilter_of_get? hname line (.text text safe) args start

/-- Two calls on one stack settle alike if one of them does not ask for the state of the engine. -/
theorem settle_alike (hname : Table.get? env.filters name = some (.builtin .render))
    (hsees : .debug ∉ c.events name text) (d : Caller env stack) :
    SettleAlike (Beside [] c.start.session.channel d.start.session.channel stack) name
      (renderFile c.run env (.text text c.safe) c.start.session)
      (renderFile d.run env (.text text d.safe) d.start.session) := by
  obtain ⟨run, watch, here, line, safe, args, start, ⟨k, hk, hfile⟩, rfl, hstack⟩ := c
  obtain ⟨k', hk', hfile'⟩ := d.serves
  have hagree : EvaluatorAgrees here.env here.env.filters (fun paths _ => paths) (Admitted [])
      (BesideWith here.env.scope [] start.session.channel d.start.session.channel k k') run.file d.run.file watch.file := by
    intro there body hh
    rw [(hfile there body hh).1, (hfile there body hh).2, (hfile' _ body (Here.withFilters_env hh)).1]
    exact evaluateFile_beside here.env [] _ _ k k' there body hh
  have hstart : Beside [] start.session.channel d.start.session.channel stack start.session d.start.session :=
    ⟨hstack, d.stands, [], [], rfl, rfl, rfl, fun _ => rfl⟩
  unfold events at hsees
  rw [Calls.ofFilter_of_get? hname] at hsees
  have hadmitted := admitted_of_not_mem hsees (.inl rfl)
  obtain ⟨hinside, hcall⟩ := List.forall_mem_append.1 hadmitted
  exact renderFile_beside hagree hname hk hk' hstart (.text text safe) _ hinside (hcall _ (List.mem_singleton_self _))

end Caller

/-- **The filter `render` cannot see its caller, unless the file asks the engine for its state.**  If one call of the filter
on a path, made on a stack, comes to its end without a call of `debug`, then there are one value and one list of reports such
that every call of the filter on the path that is made on the stack comes to the value and adds the reports, whatever
template and whatever variables it is made from and whatever was loaded before.  The runners that make such calls, in pages
and in the files in them, are all among those compared. -/
theorem expansion_blind (env : Environment) {name : String}
    (hname : Table.get? env.filters name = some (.builtin .render)) (text : String) (stack : List Path) :
    (∀ n, Serves env stack (runner n) (watcher n)) ∧
    (∀ run watch, Serves env stack run watch → ServesInside env stack run watch) ∧
    ∀ c : Caller env stack, .debug ∉ c.events name text →
      ∃ (value : Value) (reports : List Report), ∀ d : Caller env stack, ∃ after,
        d.expand name text = .ok value { d.start with session := after } ∧
        after.engine.paths = stack ∧ after.channel = d.start.session.channel.reportAll reports := by
  refine ⟨runner_serves env stack, fun _ _ hserves => hserves.inside, fun c hsees => ?_⟩
  -- The reports of the call itself, which are those of every other one.
  obtain ⟨reports, -, hreports, -⟩ := (Caller.settle_alike hname hsees c).session.reports
  refine ⟨(settled name (renderFile c.run env (.text text c.safe) c.start.session)).1, reports, fun d => ?_⟩
  obtain ⟨hvalue, hsession⟩ := Caller.settle_alike hname hsees d
  obtain ⟨rs, rs', hrs, hrs', -, hsame⟩ := hsession.reports
  refine ⟨_, ?_, hsession.second, ?_⟩
  · rw [d.expand_eq hname, hvalue]
  · rw [hrs', ← hsame rfl, Channel.reportAll_inj (hreports.symm.trans hrs)]

/-- Whatever a page has for its variable, and whatever level its runner has. -/
theorem expansion_blind_variable :
    let tree : FileTree := ⟨[([Bytes.ofText "b.html"], .file (Bytes.ofText "B\x7b\x7b x \x7d\x7d"))], []⟩
    let env : Environment :=
      ⟨⟨tree, .ofText "/", ["html"], .ok, fun _ format => .ok format, ⟨0, 0, 0⟩⟩, [], false, Filters.standard, []⟩
    let inside : Session RenderStack := ⟨.empty, ⟨[.ofText "/a.html"], [], []⟩⟩
    Table.get? env.filters "render" = some (.builtin .render) ∧
    ∃ (value : Value) (reports : List Report), ∀ (n : Nat) (x : Int), ∃ after,
      applyFilter (runner n) ⟨env, "a.html", false, none⟩ 1 "render" (.plain "b.html") ⟨[], []⟩
          (.start ⟨"a.html", [], []⟩ [("x", .int x)] inside) =
        .ok value (.start ⟨"a.html", [], []⟩ [("x", .int x)] after) ∧
      after.channel = Channel.empty.reportAll reports := by
  intro tree env inside
  have hname : Table.get? env.filters "render" = some (.builtin .render) := rfl
  obtain ⟨hserves, -, hcalls⟩ := expansion_blind env hname "b.html" [.ofText "/a.html"]
  let caller (n : Nat) (x : Int) : Caller env [.ofText "/a.html"] :=
    ⟨runner n, watcher n, ⟨env, "a.html", false, none⟩, 1, false, ⟨[], []⟩,
      .start ⟨"a.html", [], []⟩ [("x", .int x)] inside, hserves n, rfl, rfl⟩
  have hsees : .debug ∉ Calls.ofFilter (runner 0) (watcher 0) ⟨env, "a.html", false, none⟩ "render" (.plain "b.html") ⟨[], []⟩
      (.start ⟨"a.html", [], []⟩ [("x", .int 0)] inside) := by decide +kernel
  obtain ⟨value, reports, hvalue⟩ := hcalls (caller 0 0) hsees
  refine ⟨hname, value, reports, fun n x => ?_⟩
  obtain ⟨after, hcall, -, hreports⟩ := hvalue (caller n x)
  exact ⟨after, hcall, hreports⟩

/-- **A file that asks for the state of the engine sees what its caller has loaded**: on one stack, two pages of one path
have other values for it. -/
theorem expansion_sees_loaded :
    let tree : FileTree := ⟨[([Bytes.ofText "x.html"], .file []),
      ([Bytes.ofText "p.html"], .file (Bytes.ofText "\x7b\x7b 'x.html' in debug() \x7d\x7d"))], []⟩
    let env : Environment :=
      ⟨⟨tree, .ofText "/", ["html"], .ok, fun _ format => .ok format, ⟨0, 0, 0⟩⟩, [.ofText "/"], false, Filters.standard, []⟩
    let start : Session RenderStack := ⟨.empty, .empty⟩
    let plain : Page := ⟨"a.html", "\x7b\x7b 'p.html' | render \x7d\x7d", []⟩
    let including : Page := { plain with source := "\x7b% include 'x.html' %\x7d" ++ plain.source }
    (env.render plain start).1 = .ok "False" ∧ (env.render including start).1 = .ok "True" ∧
    ∀ page ∈ [plain, including], (env.calls page start).map (fun c => (c.name, c.args.map Value.shown, c.path)) =
      [("render", ["\"p.html\""], some (.ofText "/a.html"))] := by
  intro tree env start plain including
  exact ⟨eq_ok_of_mapError (by decide +kernel), eq_ok_of_mapError (by decide +kernel), by decide +kernel⟩

theorem settled_loading (answer : Except Failure Value × Session RenderStack) (names : List String) :
    settled name (answer.1, answer.2.loading names) = ((settled name answer).1, (settled name answer).2.loading names) := by
  rcases answer with ⟨failure | w, after⟩
  · rfl
  · rfl

/-- A call of the filter on the path of HTML is the render of a page where nothing is loaded, if the runner evaluates files
as pages. -/
theorem renderFile_eq_render {matter : FrontMatter.Split} (hhtml : env.scope.isHtml (.ofText text) = true)
    (hread : env.scope.readMatter (.ofText text) = .ok matter)
    (hfile : run.file = (runner (levels env.scope.tree)).evaluate) (safe : Bool) (s : Session RenderStack) :
    let alone := env.render ⟨text, matter.body, matter.attributes⟩ s
    let answer := renderFile run env (.text text safe) (s.loading [])
    (alone.1.map Value.safe, alone.2) = (answer.1, answer.2.loading s.engine.loaded) := by
  unfold renderFile Environment.render pathText
  dsimp only
  rw [hread, hhtml, hfile, Scope.enter_loading]
  cases env.scope.enter (.ofText text) s with
  | error f => rfl
  | ok entered =>
    dsimp only [Except.map]
    rw [if_pos rfl]
    dsimp only
    rcases renderNamed (runner (levels env.scope.tree)).evaluate env text matter.body matter.attributes
      (entered.loading []) with ⟨fault | out, after⟩
    · rfl
    · rfl

/-- A call on the path of HTML beside a render of the file on an empty stack, where no call is refused and none asks for the
state of the engine. -/
theorem renderFile_alone {matter : FrontMatter.Split} {s s' : Session RenderStack}
    (hserves : Serves env s.engine.paths run watch) (hname : Table.get? env.filters name = some (.builtin .render))
    (hhtml : env.scope.isHtml (.ofText text) = true) (hread : env.scope.readMatter (.ofText text) = .ok matter)
    (hs' : s'.engine.paths = []) (safe : Bool) (args : List Value)
    (hinside : ∀ e ∈ Calls.ofFile watch env (.text text safe) s, Admitted s.engine.paths e)
    (hcall : Admitted s.engine.paths (.filter ⟨name, args, (renderFile run env (.text text safe) s).1,
      (renderFile run env (.text text safe) s).2.engine.current?⟩)) :
    let alone := env.render ⟨text, matter.body, matter.attributes⟩ s'
    SettleAlike (Beside s.engine.paths s.channel s'.channel []) name (renderFile run env (.text text safe) s)
      (alone.1.map Value.safe, alone.2) := by
  intro alone
  obtain ⟨k, hk, hfile⟩ := hserves
  -- The render of the page as a call of the filter.
  let page : Runner := ⟨(runner 0).evaluate, (runner (levels env.scope.tree)).evaluate⟩
  have hpage : (alone.1.map Value.safe, alone.2) = ((renderFile page env (.text text safe) (s'.loading [])).1,
      (renderFile page env (.text text safe) (s'.loading [])).2.loading s'.engine.loaded) :=
    renderFile_eq_render hhtml hread rfl safe s'
  have hagree : EvaluatorAgrees env env.filters (fun paths _ => paths) (Admitted s.engine.paths)
      (BesideWith env.scope s.engine.paths s.channel s'.channel k (renders env.scope.tree + 1))
      run.file page.file watch.file := by
    intro there body hh
    rw [(hfile there body hh).1, (hfile there body hh).2]
    exact evaluateFile_beside_page env _ _ _ k there body hh
  have hstart : Beside s.engine.paths s.channel s'.channel [] s (s'.loading []) :=
    ⟨(List.append_nil _).symm, hs', [], [], rfl, rfl, rfl, fun _ => rfl⟩
  have hsettled := renderFile_beside hagree hname (by rw [List.append_nil]; exact hk)
    (Nat.le_succ_of_le (env.scope.unvisited_le_renders [])) hstart (.text text safe) args hinside hcall
  rw [hpage]
  refine ⟨?_, ?_⟩
  · rw [settled_loading]
    exact hsettled.value
  · rw [settled_loading]
    exact hsettled.session.loading _

/-- Reports of which the last one is known by what it says. -/
theorem exists_last_of_said {reports inner' : List Report} {last' : Report}
    (h : reports.map Report.said = (inner' ++ [last']).map Report.said) :
    ∃ inner last, reports = inner ++ [last] ∧ inner.map Report.said = inner'.map Report.said ∧
      last.said = last'.said := by
  rw [List.map_append] at h
  obtain ⟨inner, final, rfl, hinner, hfinal⟩ := List.map_eq_append_iff.1 h
  obtain ⟨last, rfl, hlast⟩ := List.map_eq_singleton_iff.1 hfinal
  exact ⟨inner, last, rfl, hinner, hlast⟩

/-- **A file expands to what it renders to alone, unless it asks the engine for its state.**  Where no call in it is refused
and none is one of `debug`, and the file is not refused itself, a call of the filter on the path of HTML comes to the text
that a render of the file's body under its path and with its attributes comes to on an empty stack; if that render fails, the
call has no value, and adds one last report with the failure.  From inside the file both have reports that say the same, in
the same order. -/
theorem expansion_alone {here : Here} {r : Run} {matter : FrontMatter.Split} {s : Session RenderStack}
    (hserves : Serves here.env r.session.engine.paths run watch)
    (hname : Table.get? here.env.filters name = some (.builtin .render))
    (hhtml : here.env.scope.isHtml (.ofText text) = true)
    (hread : here.env.scope.readMatter (.ofText text) = .ok matter) (hs : s.engine.paths = []) (line : Nat) (safe : Bool)
    (args : Arguments) (hsees : .debug ∉ Calls.ofFilter run watch here name (.text text safe) args r)
    (hmet : ∀ c ∈ (Calls.ofFilter run watch here name (.text text safe) args r).filterMap Event.call?,
      c.isCyclic = false) :
    let alone := here.env.render ⟨text, matter.body, matter.attributes⟩ s
    ∃ (value : Value) (after : Session RenderStack) (inner inner' : List Report),
      applyFilter run here line name (.text text safe) args r = .ok value { r with session := after } ∧
      after.engine.paths = r.session.engine.paths ∧
      alone.2.channel = s.channel.reportAll inner' ∧ inner.map Report.said = inner'.map Report.said ∧
      match alone.1 with
      | .ok out => value = .safe out ∧ after.channel = r.session.channel.reportAll inner
      | .error e => value = .undefined ∧ ∃ last : Report, last.said = (.filter, name ++ ": " ++ e.message) ∧
          after.channel = r.session.channel.reportAll (inner ++ [last]) := by
  intro alone
  have hadmitted : ∀ e ∈ _, Admitted r.session.engine.paths e := admitted_of_not_mem hsees (.inr hmet)
  rw [Calls.ofFilter_of_get? hname] at hadmitted
  obtain ⟨hinside, hcall⟩ := List.forall_mem_append.1 hadmitted
  obtain ⟨hvalue, hsession⟩ := renderFile_alone hserves hname hhtml hread hs safe (.text text safe :: args.flat) hinside
    (hcall _ (List.mem_singleton_self _))
  obtain ⟨reports, reports', hreports, hreports', hsaid, -⟩ := hsession.reports
  have hresult : applyFilter run here line name (.text text safe) args r =
      .ok (settled name (alone.1.map Value.safe, alone.2)).1
        { r with session := (settled name (renderFile run here.env (.text text safe) r.session)).2 } := by
    rw [applyFilter_of_get? hname]
    exact congrArg (EStateM.Result.ok · _) hvalue
  have hpaths : (settled name (renderFile run here.env (.text text safe) r.session)).2.engine.paths =
      r.session.engine.paths := hsession.first.trans (List.append_nil _)
  cases halone : alone.1 with
  | ok out =>
    rw [halone] at hresult hreports'
    exact ⟨_, _, reports, reports', hresult, hpaths, hreports', hsaid, rfl, hreports⟩
  | error e =>
    rw [halone] at hresult hreports'
    -- The last report of the call is not one of the render.
    obtain ⟨inner', hinner'⟩ := render_reporting here.env ⟨text, matter.body, matter.attributes⟩ s
    have hlast : reports' = inner' ++ [filterReport name e alone.2] := by
      refine Channel.reportAll_inj (hreports'.symm.trans ?_)
      rw [Channel.reportAll_append, ← hinner']
      rfl
    rw [hlast] at hsaid
    obtain ⟨inner, last, rfl, hinner, hsaid⟩ := exists_last_of_said hsaid
    exact ⟨_, _, inner, inner', hresult, hpaths, hinner', hinner, rfl, last, hsaid, hreports⟩

/-- A file in which a filter of the caller fails, inside of a page and alone. -/
theorem expansion_alone_failing :
    let f : Callable := fun _ => .error (.argument "two")
    let octets := Bytes.ofText "B\x7b\x7b 2 | number \x7d\x7d"
    let env : Environment :=
      ⟨⟨⟨[([Bytes.ofText "b.html"], .file octets)], []⟩, .ofText "/", ["html"], .ok, fun _ format => .ok format, ⟨0, 0, 0⟩⟩,
        [], false, Table.insert "number" (.custom f) Filters.standard, []⟩
    let r : Run := .start ⟨"a.html", [], []⟩ [("x", .int 1)] ⟨.empty, ⟨[.ofText "/a.html"], [], []⟩⟩
    let matter := FrontMatter.splitOctets octets
    let alone := env.render ⟨"b.html", matter.body, matter.attributes⟩ ⟨.empty, .empty⟩
    alone.1 = .ok "B" ∧
    ∃ (after : Session RenderStack) (inner inner' : List Report),
      applyFilter (runner 0) ⟨env, "a.html", false, none⟩ 1 "render" (.plain "b.html") ⟨[], []⟩ r =
        .ok (.safe "B") { r with session := after } ∧
      after.channel = Channel.empty.reportAll inner ∧ inner.map Report.said = inner'.map Report.said ∧
      alone.2.channel = Channel.empty.reportAll inner' := by
  intro f octets env r matter alone
  let here : Here := ⟨env, "a.html", false, none⟩
  have hname : Table.get? here.env.filters "render" = some (.builtin .render) := by rfl
  have hhtml : here.env.scope.isHtml (.ofText "b.html") = true := by decide +kernel
  have hread : here.env.scope.readMatter (.ofText "b.html") = .ok matter := by rfl
  have hsees : .debug ∉ Calls.ofFilter (runner 0) (watcher 0) here "render" (.plain "b.html") ⟨[], []⟩ r := by
    decide +kernel
  have hmet : ∀ c ∈ (Calls.ofFilter (runner 0) (watcher 0) here "render" (.plain "b.html") ⟨[], []⟩ r).filterMap
      Event.call?, c.isCyclic = false := by decide +kernel
  have halone : alone.1 = .ok "B" := eq_ok_of_mapError (by decide +kernel)
  have hserves : Serves here.env r.session.engine.paths (runner 0) (watcher 0) := runner_serves _ _ 0
  have hempty : (⟨.empty, .empty⟩ : Session RenderStack).engine.paths = [] := by rfl
  obtain ⟨value, after, inner, inner', hcall, -, hreports, hsaid, hend⟩ :=
    expansion_alone hserves hname hhtml hread hempty 1 false ⟨[], []⟩ hsees hmet
  simp only [alone] at halone
  rw [halone] at hend
  obtain ⟨rfl, hafter⟩ := hend
  exact ⟨halone, after, inner, inner', hcall, hafter, hsaid, hreports⟩

/-- **A file that asks for the state of the engine need not expand to what it renders to alone**: behind an inclusion it
comes to another text, though no call is refused. -/
theorem expansion_alone_sees_loaded :
    let octets := Bytes.ofText "\x7b\x7b 'x.html' in debug() \x7d\x7d"
    let tree : FileTree := ⟨[([Bytes.ofText "x.html"], .file []), ([Bytes.ofText "p.html"], .file octets)], []⟩
    let env : Environment :=
      ⟨⟨tree, .ofText "/", ["html"], .ok, fun _ format => .ok format, ⟨0, 0, 0⟩⟩, [.ofText "/"], false, Filters.standard, []⟩
    let matter := FrontMatter.splitOctets octets
    let start : Session RenderStack := ⟨.empty, .empty⟩
    let page : Page := ⟨"a.html", "\x7b% include 'x.html' %\x7d\x7b\x7b 'p.html' | render \x7d\x7d", []⟩
    (env.render ⟨"p.html", matter.body, matter.attributes⟩ start).1 = .ok "False" ∧
    (env.render page start).1 = .ok "True" ∧ ∀ c ∈ env.calls page start, c.isCyclic = false := by
  intro octets tree env matter start page
  exact ⟨eq_ok_of_mapError (by decide +kernel), eq_ok_of_mapError (by decide +kernel), by decide +kernel⟩

end
end Template
end Folio
