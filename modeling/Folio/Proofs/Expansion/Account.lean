import Folio.Proofs.Channel
import Folio.Proofs.Template.Agreement
/-!
# The calls of a render account for its reports

Every call in the trace of a render was made on a stack that has the page on it and below it what was there before
(`Made`), and the reports of the render are those of the calls that failed, one for each, in their order
(`render_accounts`).  Both hold of every step of evaluation, on whatever stack it is made, and then the stack is as it was
(`Accounts`); so they hold of whole templates and of the files in them.
-/
namespace Folio.Template

variable {α : Type} {env : Environment} {paths : List Path} {s s' s'' : Session RenderStack}

/-- A call as it is made of a filter of the environment, on a stack that starts with the given paths. -/
def Made (env : Environment) (paths : List Path) (c : Call) : Prop :=
  ∃ (run : Runner) (f : Filter) (v : Value) (args : List Value) (s : Session RenderStack),
    Table.get? env.filters c.name = some f ∧ paths <+: s.engine.paths ∧ c.args = v :: args ∧
      c.answer = (callFilter run env f v args s).1 ∧ c.path = s.engine.current?

theorem Made.below {c : Call} {key : Path} (h : Made env (paths ++ [key]) c) : Made env paths c := by
  obtain ⟨run, f, v, args, s, hname, hstack, hcall⟩ := h
  exact ⟨run, f, v, args, s, hname, (List.prefix_append _ _).trans hstack, hcall⟩

/-- What lies between two sessions is accounted for by calls: the stack is as it was, and the calls that failed were
reported. -/
structure Accounts (env : Environment) (paths : List Path) (s s' : Session RenderStack) (calls : List Event) : Prop where
  stack : s'.engine.paths = paths
  channel : s'.channel = s.channel.reportAll (calls.filterMap Event.report?)
  made : ∀ c, .filter c ∈ calls → Made env paths c

namespace Accounts

variable {calls calls' : List Event}

theorem refl (hs : s.engine.paths = paths) : Accounts env paths s s [] := ⟨hs, rfl, fun _ hc => nomatch hc⟩

theorem trans (h : Accounts env paths s s' calls) (h' : Accounts env paths s' s'' calls') :
    Accounts env paths s s'' (calls ++ calls') where
  stack := h'.stack
  channel := by rw [h'.channel, h.channel, List.filterMap_append, Channel.reportAll_append]
  made c hc := (List.mem_append.1 hc).elim (h.made c) (h'.made c)

/-- Between entering a path and leaving it. -/
theorem within {entered after : Session RenderStack} {key : Path} (h : Accounts env (paths ++ [key]) entered after calls)
    (hchannel : entered.channel = s.channel) : Accounts env paths s after.leave calls where
  stack := by
    show after.engine.paths.dropLast = paths
    rw [h.stack, List.dropLast_concat]
  channel := hchannel ▸ h.channel
  made c hc := (h.made c hc).below

/-- After what a call came to inside comes the call itself, which is reported if it failed. -/
theorem settle {name : String} {args : List Value} {answer : Except Failure Value × Session RenderStack}
    (h : Accounts env paths s answer.2 calls) (hmade : Made env paths ⟨name, args, answer.1, answer.2.engine.current?⟩) :
    Accounts env paths s (settled name answer).2
      (calls ++ [.filter ⟨name, args, answer.1, answer.2.engine.current?⟩]) := by
  refine h.trans ⟨?_, ?_, fun c hc => Event.filter.inj (List.mem_singleton.1 hc) ▸ hmade⟩
  · rcases answer with ⟨failure | w, after⟩
    · exact h.stack
    · exact h.stack
  · rcases answer with ⟨failure | w, after⟩
    · rfl
    · rfl

end Accounts

/-- A step of evaluation is accounted for by its calls wherever it is made on a stack. -/
def Accounted (env : Environment) (paths : List Path) (x : Eval α) (t : Calls) : Prop :=
  ∀ r, r.session.engine.paths = paths → Accounts env paths r.session (final (x r)).session (t r)

theorem accounted_lockstep (env : Environment) (paths : List Path) :
    Lockstep (fun {_} x _ t _ => Accounted env paths x t) where
  pure _ _ hr := .refl hr
  throw _ _ hr := .refl hr
  bind := by
    intro _ _ x _ f _ t _ k _ hx hf r hr
    have hfirst := hx r hr
    show Accounts env paths r.session (final (EStateM.bind x f r)).session (t r ++ Calls.after x k r)
    unfold EStateM.bind Calls.after
    generalize x r = y at hfirst
    cases y with
    | ok a r' => exact hfirst.trans (hf a r' hfirst.stack)
    | error e r' =>
      rw [List.append_nil]
      exact hfirst
  catching := by
    intro _ x _ f _ t _ hx hf r hr
    have hfirst := hx r hr
    show Accounts env paths r.session (final (EStateM.tryCatch x f r)).session (t r)
    unfold EStateM.tryCatch
    generalize x r = y at hfirst
    cases y with
    | ok a r' => exact hfirst
    | error e r' =>
      have hthen : Accounts env paths r.session (final (f e r')).session (t r ++ []) :=
        hfirst.trans (hf e r' hfirst.stack)
      rw [List.append_nil] at hthen
      exact hthen
  look hf r hr := hf r r.session r hr
  change := by
    intro f hf r hr
    have hsession : (f r).session = r.session := by
      have h := congrArg Run.session (hf r r.session)
      exact h
    show Accounts env paths r.session (f r).session []
    rw [hsession]
    exact .refl hr
  load _ _ hr := ⟨hr, rfl, fun _ hc => nomatch hc⟩
  debug _ hr := ⟨hr, rfl, fun _ hc => nomatch List.mem_singleton.1 hc⟩

/-! ## Filters -/

section
variable {run : Runner} {watch : Watch}

theorem renderNamed_accounts {evaluate : Evaluator} {watcher : Watcher}
    (heval : ∀ here body, here.env = env → Accounted env paths (evaluate here body) (watcher here body))
    (name source : String) (context : Fields) (hs : s.engine.paths = paths) :
    Accounts env paths s (renderNamed evaluate env name source context s).2
      (Calls.ofSource watcher env name source context s) := by
  unfold renderNamed Calls.ofSource
  cases read name source with
  | error f => exact .refl hs
  | ok t =>
    have hbody := heval ⟨env, name, env.escapes name, none⟩ t.body rfl (.start t context s) hs
    dsimp only
    generalize evaluate _ t.body (.start t context s) = y at hbody
    cases y with
    | ok _ r => exact hbody
    | error f r => exact hbody

variable (hfile : ∀ key here body, here.env = env →
  Accounted env (paths ++ [key]) (run.file here body) (watch.file here body))
include hfile

theorem renderFile_accounts (v : Value) (hs : s.engine.paths = paths) :
    Accounts env paths s (renderFile run env v s).2 (Calls.ofFile watch env v s) := by
  unfold renderFile Calls.ofFile
  cases pathText v with
  | error f => exact .refl hs
  | ok text =>
    dsimp only
    cases env.scope.readMatter (.ofText text) with
    | error f => exact .refl hs
    | ok matter =>
      dsimp only
      cases he : env.scope.enter (.ofText text) s with
      | error f => exact .refl hs
      | ok entered =>
        obtain ⟨-, hentered⟩ := Scope.enter_eq_ok_iff.1 he
        have hstack : entered.engine.paths = paths ++ [env.scope.resolve (.ofText text)] := by
          rw [hentered, ← hs]
          rfl
        have hchannel : entered.channel = s.channel := by rw [hentered]
        dsimp only
        cases (if env.scope.isHtml (.ofText text) then Except.ok matter.body else env.scope.markdown matter.body) with
        | error f => exact (Accounts.refl hstack).within hchannel
        | ok source =>
          have hinside := renderNamed_accounts (hfile (env.scope.resolve (.ofText text))) text source matter.attributes
            hstack
          have hleft := hinside.within hchannel
          dsimp only
          generalize renderNamed run.file env text source matter.attributes entered = y at hleft
          obtain ⟨fault | out, after⟩ := y
          · exact hleft
          · exact hleft

theorem callFilter_accounts (f : Filter) (v : Value) (args : List Value) (hs : s.engine.paths = paths) :
    Accounts env paths s (callFilter run env f v args s).2 (Calls.inside watch env f v s) := by
  cases f with
  | custom f => exact .refl hs
  | builtin b =>
    cases b with
    | render => exact renderFile_accounts hfile v hs
    | _ => exact .refl hs

theorem applyFilter_accounted {here : Here} (hh : here.env = env) (line : Nat) (name : String) (v : Value)
    (args : Arguments) :
    Accounted env paths (applyFilter run here line name v args) (.ofFilter run watch here name v args) := by
  subst hh
  intro r hr
  cases ho : Table.get? here.env.filters name with
  | none =>
    unfold applyFilter Calls.ofFilter
    rw [ho]
    dsimp only
    cases standardFilter? name with
    | none => exact .refl hr
    | some f =>
      exact ((accounted_lockstep here.env paths).steps here.env here.env.filters).lift ⟨rfl, rfl⟩ line (f v args) r hr
  | some f =>
    have hinside := callFilter_accounts hfile f v args.flat hr
    have hpath : (callFilter run here.env f v args.flat r.session).2.engine.current? = r.session.engine.current? := by
      unfold RenderStack.current?
      rw [hinside.stack, hr]
    rw [applyFilter_of_get? ho, Calls.ofFilter_of_get? ho]
    exact hinside.settle ⟨run, f, v, args.flat, r.session, ho, hr ▸ List.prefix_rfl, rfl, rfl, hpath⟩

end

/-! ## Levels and pages -/

theorem within_accounted {file : Evaluator} {watchFile : Watcher}
    (hfile : ∀ key here body, here.env = env → Accounted env (paths ++ [key]) (file here body) (watchFile here body))
    (n : Nat) (here : Here) (body : List Stmt) (hh : here.env = env) :
    Accounted env paths (evaluateAt file n here body) (watchAt file watchFile n here body) := by
  refine @Lockstep.within (fun {_} x _ t _ => Accounted env paths x t) (accounted_lockstep env paths) env env.filters file
    file watchFile watchFile (fun n here line name v args hh => ?_) n here body hh
  refine applyFilter_accounted ?_ hh line name v args
  exact hfile

theorem evaluateFile_accounted : ∀ (k : Nat) (paths : List Path) (here : Here) (body : List Stmt), here.env = env →
    Accounted env paths (evaluateFile k here body) (watchFile k here body)
  | 0, paths, _, _, _ => (accounted_lockstep env paths).throw _
  | k + 1, paths, here, body, hh =>
    within_accounted (fun key => evaluateFile_accounted k (paths ++ [key])) (levels here.env.scope.tree) here body hh

/-- **The calls of a render account for it.**  Its reports are those of the calls that failed, one for each, in their
order; and every call was made on a stack that has the page on it, above what was there before. -/
theorem render_accounts (env : Environment) (page : Page) (s : Session RenderStack) :
    (env.render page s).2.channel = s.channel.reportAll ((env.calls page s).filterMap Call.report?) ∧
    ∀ c ∈ env.calls page s, Made env (s.engine.paths ++ [env.scope.resolve (.ofText page.name)]) c := by
  -- The calls of filters are those events that are.
  have hcalls : ∀ c, c ∈ env.calls page s → .filter c ∈ env.events page s := by
    intro c hc
    obtain ⟨e, he, hcall⟩ := List.mem_filterMap.1 hc
    cases e with
    | filter d => exact Option.some.inj hcall ▸ he
    | debug => cases hcall
  suffices h : (env.render page s).2.channel = s.channel.reportAll ((env.events page s).filterMap Event.report?) ∧
      ∀ c, .filter c ∈ env.events page s → Made env (s.engine.paths ++ [env.scope.resolve (.ofText page.name)]) c by
    refine ⟨?_, fun c hc => h.2 c (hcalls c hc)⟩
    rw [h.1, Environment.calls, List.filterMap_filterMap]
    rfl
  clear hcalls
  unfold Environment.render Environment.events
  cases he : env.scope.enter (.ofText page.name) s with
  | error f => exact ⟨rfl, fun _ hc => nomatch hc⟩
  | ok entered =>
    obtain ⟨-, rfl⟩ := Scope.enter_eq_ok_iff.1 he
    have hbody : ∀ here body, here.env = env → Accounted env (s.engine.paths ++ [env.scope.resolve (.ofText page.name)])
        (runner (levels env.scope.tree) here body) (watcher (levels env.scope.tree) here body) := by
      refine within_accounted (fun key here body hh => ?_) (levels env.scope.tree)
      exact evaluateFile_accounted (renders here.env.scope.tree) _ here body hh
    have hstack : (s.engine.become (s.engine.paths ++ [env.scope.resolve (.ofText page.name)])).paths =
        s.engine.paths ++ [env.scope.resolve (.ofText page.name)] := rfl
    have hpage := renderNamed_accounts (s := Session.loading ⟨s.channel, s.engine.become _⟩ []) hbody page.name page.source
      page.context hstack
    dsimp only
    generalize renderNamed _ env page.name page.source page.context _ = y at hpage ⊢
    obtain ⟨fault | out, after⟩ := y
    · exact ⟨hpage.channel, hpage.made⟩
    · exact ⟨hpage.channel, hpage.made⟩

end Folio.Template
