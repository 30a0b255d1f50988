import Folio.Proofs.Template.Lockstep
import Mathlib.Data.List.Basic
/-!
# Evaluations side by side

Two evaluations of the same piece of template start in runs that differ in their sessions only (`Alike`).  They go the
same way and end alike (`Agree`) as long as their sessions stay related, and a template does little to its session: a
filter that fails is reported, the filter `render` enters the path of a file and leaves it, and a template that is found is
loaded.  So it is enough to look at these (`Tracking`).  What is loaded has to be the same where a template asks for it.

The relation comes in worlds.  A world moves on with every call that the first evaluation makes, so that it can keep account
of the calls; and in the render of a file another relation may hold than around it.  Where the calls do
not matter the worlds stay as they are (`Simulation`).  Nothing is said of evaluations in which a call is not admitted.
The two evaluations may have runners of their own, and the second one other filters of the caller.
-/
namespace Folio.Template

variable {ι α β : Type}

/-- Two runs that differ in their sessions only. -/
inductive Alike (S : Session RenderStack → Session RenderStack → Prop) : Run → Run → Prop where
  | intro {r : Run} {s' : Session RenderStack} (related : S r.session s') : Alike S r { r with session := s' }

/-- Two steps of evaluation that came to the same value or to the same fault, in runs that are alike. -/
inductive EndAlike (S : Session RenderStack → Session RenderStack → Prop) :
    EStateM.Result Fault Run α → EStateM.Result Fault Run α → Prop where
  | ok (a : α) {r r' : Run} (alike : Alike S r r') : EndAlike S (.ok a r) (.ok a r')
  | error (f : Fault) {r r' : Run} (alike : Alike S r r') : EndAlike S (.error f r) (.error f r')

/-- The run in which a step of evaluation ended. -/
def final : EStateM.Result Fault Run α → Run
  | .ok _ r | .error _ r => r

theorem Alike.related {S : Session RenderStack → Session RenderStack → Prop} {r r' : Run} (h : Alike S r r') :
    S r.session r'.session := by
  cases h with
  | intro related => exact related

theorem EndAlike.related {S : Session RenderStack → Session RenderStack → Prop} {y y' : EStateM.Result Fault Run α}
    (h : EndAlike S y y') : S (final y).session (final y').session := by
  cases h with
  | ok _ alike => exact alike.related
  | error _ alike => exact alike.related

/-- Two steps of evaluation that end alike whenever they start alike, in the world to which the calls lead, if all of the
calls are admitted. -/
def Agree (move : ι → Event → ι) (admits : Event → Prop) (S : ι → Session RenderStack → Session RenderStack → Prop)
    (x x' : Eval α) (t : Calls) : Prop :=
  ∀ i r r', Alike (S i) r r' → (∀ c ∈ t r, admits c) → EndAlike (S ((t r).foldl move i)) (x r) (x' r')

/-- Whatever is in an environment evaluates as it does with another evaluator and other filters. -/
def EvaluatorAgrees (env : Environment) (fs : Filters) (move : ι → Event → ι) (admits : Event → Prop)
    (S : ι → Session RenderStack → Session RenderStack → Prop) (evaluate evaluate' : Evaluator) (watcher : Watcher) :
    Prop :=
  ∀ here body, here.env = env →
    Agree move admits S (evaluate here body) (evaluate' (here.withFilters fs) body) (watcher here body)

/-- Steps that agree go in lockstep. -/
theorem Agree.lockstep {move : ι → Event → ι} {admits : Event → Prop}
    {S : ι → Session RenderStack → Session RenderStack → Prop}
    (load : ∀ {i s s'} name, S i s s' → S i (s.load name) (s'.load name))
    (debug : ∀ {i s s'}, admits .debug → S i s s' → s.engine.loaded = s'.engine.loaded ∧ S (move i .debug) s s') :
    Lockstep (fun {_} x x' t _ => Agree move admits S x x' t) where
  pure a _ _ _ h _ := .ok a h
  throw f _ _ _ h _ := .error f h
  bind := by
    intro _ _ x x' f f' t _ k _ hx hf i r r' h hadmits
    obtain ⟨hfirst, hthen⟩ := List.forall_mem_append.1 hadmits
    have hr := hx i r r' h hfirst
    show EndAlike (S ((t r ++ Calls.after x k r).foldl move i)) (EStateM.bind x f r) (EStateM.bind x' f' r')
    unfold EStateM.bind
    unfold Calls.after at hthen ⊢
    rw [List.foldl_append]
    generalize x r = y at hr hthen
    generalize x' r' = y' at hr
    cases hr with
    | ok a alike => exact hf a _ _ _ alike hthen
    | error e alike => exact .error e alike
  catching := by
    intro _ x x' f f' _ _ hx hf i r r' h hadmits
    have hr := hx i r r' h hadmits
    show EndAlike _ (EStateM.tryCatch x f r) (EStateM.tryCatch x' f' r')
    unfold EStateM.tryCatch
    generalize x r = y at hr
    generalize x' r' = y' at hr
    cases hr with
    | ok a alike => exact .ok a alike
    | error e alike => exact hf e _ _ _ alike fun _ hc => nomatch hc
  look := by
    rintro _ f f' _ _ hf i r _ ⟨related⟩
    exact hf r _ i r _ (.intro related)
  change := by
    intro f hf i r r' h _
    cases h with | @intro s' related
    have hsession : (f r).session = r.session := by
      have h := congrArg Run.session (hf r r.session)
      exact h
    show EndAlike (S i) (.ok () (f r)) (.ok () (f { r with session := s' }))
    rw [hf r s']
    exact .ok () (.intro (hsession ▸ related))
  load := by
    rintro name i r _ ⟨related⟩ _
    exact .ok () (.intro (load name related))
  debug := by
    rintro i r _ ⟨related⟩ hadmits
    obtain ⟨hloaded, hmoved⟩ := debug (hadmits _ (List.mem_singleton_self _)) related
    rename_i s'
    show EndAlike (S (move i .debug)) (.ok r.session.engine.loaded r) (.ok s'.engine.loaded { r with session := s' })
    rw [hloaded]
    exact .ok _ (.intro hmoved)

/-! ## Filters -/

/-- What a call of a filter comes to: its value, or no value and a report. -/
def settled (name : String) : Except Failure Value × Session RenderStack → Value × Session RenderStack
  | (.ok w, s) => (w, s)
  | (.error f, s) => (.undefined, s.report (filterReport name f s))

theorem get_bind_apply (f : Run → Eval α) (r : Run) : (get >>= f) r = f r r := rfl

theorem applyFilter_of_get? {run : Runner} {here : Here} {name : String} {f : Filter}
    (hf : Table.get? here.env.filters name = some f) (line : Nat) (v : Value) (args : Arguments) (r : Run) :
    applyFilter run here line name v args r =
      .ok (settled name (callFilter run here.env f v args.flat r.session)).1
        { r with session := (settled name (callFilter run here.env f v args.flat r.session)).2 } := by
  unfold applyFilter
  rw [hf]
  dsimp only
  rw [get_bind_apply]
  rcases callFilter run here.env f v args.flat r.session with ⟨failure | w, after⟩
  · rfl
  · rfl

/-- The calls inside of a filter come first. -/
theorem Calls.ofFilter_of_get? {run : Runner} {watch : Watch} {here : Here} {name : String} {f : Filter}
    (hf : Table.get? here.env.filters name = some f) (v : Value) (args : Arguments) (r : Run) :
    Calls.ofFilter run watch here name v args r = Calls.inside watch here.env f v r.session ++
      [.filter ⟨name, v :: args.flat, (callFilter run here.env f v args.flat r.session).1,
        (callFilter run here.env f v args.flat r.session).2.engine.current?⟩] := by
  unfold ofFilter
  rw [hf]

/-- Two calls of a filter that come to the same value in sessions that are related. -/
structure SettleAlike (S : Session RenderStack → Session RenderStack → Prop) (name : String)
    (answer answer' : Except Failure Value × Session RenderStack) : Prop where
  value : (settled name answer).1 = (settled name answer').1
  session : S (settled name answer).2 (settled name answer').2

/-- What two registries have under a name: nothing, the same filter of the run, or filters of the caller that settle
alike. -/
inductive SameEntry (move : ι → Event → ι) (S : ι → Session RenderStack → Session RenderStack → Prop) (name : String) :
    Option Filter → Option Filter → Prop where
  | absent : SameEntry move S name none none
  | builtin (b : Builtin) : SameEntry move S name (some (.builtin b)) (some (.builtin b))
  | custom {f f' : Callable} (alike : ∀ args i s s', S i s s' →
      SettleAlike (S (move i (.filter ⟨name, args, f args, s.engine.current?⟩))) name (f args, s) (f' args, s')) :
    SameEntry move S name (some (.custom f)) (some (.custom f'))

/-- A relation between sessions, in worlds, that holds across all that templates do to sessions by admitted calls.  In
the render of a file another relation holds than around it. -/
structure Tracking (env : Environment) (fs : Filters) (move : ι → Event → ι) (admits : Event → Prop)
    (S inside : ι → Session RenderStack → Session RenderStack → Prop) : Prop where
  entries : ∀ name, SameEntry move S name (Table.get? env.filters name) (Table.get? fs name)
  /-- A filter of the run has a value. -/
  value : ∀ {i s s' name} args w, env.filters.isBuiltin name = true → S i s s' →
    S (move i (.filter ⟨name, args, .ok w, s.engine.current?⟩)) s s'
  /-- A filter of the run fails, in both sessions for the same reason. -/
  report : ∀ {i s s' name} args failure, env.filters.isBuiltin name = true → S i s s' →
    S (move i (.filter ⟨name, args, .error failure, s.engine.current?⟩)) (s.report (filterReport name failure s))
      (s'.report (filterReport name failure s'))
  /-- A template is loaded. -/
  load : ∀ {i s s'} name, S i s s' → S i (s.load name) (s'.load name)
  /-- Both sessions have the same templates loaded, unless it is not admitted to ask for them. -/
  debug : ∀ {i s s'}, admits .debug → S i s s' → s.engine.loaded = s'.engine.loaded ∧ S (move i .debug) s s'
  /-- A path is refused to both sessions, unless the refusal is not admitted, or entered in both; then the relation for
  files holds in some world until both leave. -/
  enter : ∀ {i s s' path matter}, env.scope.readMatter path = .ok matter → S i s s' →
    (∃ f, env.scope.enter path s = .error f ∧ ∀ name args, env.filters.isBuiltin name = true →
      admits (.filter ⟨name, args, .error f, s.engine.current?⟩) → ∃ f', env.scope.enter path s' = .error f' ∧
        S (move i (.filter ⟨name, args, .error f, s.engine.current?⟩)) (s.report (filterReport name f s))
          (s'.report (filterReport name f' s'))) ∨
    ∃ j entered entered', env.scope.enter path s = .ok entered ∧ env.scope.enter path s' = .ok entered' ∧
      inside j entered entered' ∧ ∀ (calls : List Event) {after after'}, inside (calls.foldl move j) after after' →
        S (calls.foldl move i) after.leave after'.leave

theorem Filters.isBuiltin_of_get? {fs : Filters} {name : String} {b : Builtin}
    (h : Table.get? fs name = some (.builtin b)) : fs.isBuiltin name = true := by
  unfold Filters.isBuiltin
  rw [h]

namespace Tracking

variable {env : Environment} {fs : Filters} {move : ι → Event → ι} {admits : Event → Prop}
  {S inside : ι → Session RenderStack → Session RenderStack → Prop} {run run' : Runner} {watch : Watch}
  {i : ι} {s s' : Session RenderStack}

theorem renderNamed_alike {evaluate evaluate' : Evaluator} {watcher : Watcher}
    (heval : EvaluatorAgrees env fs move admits S evaluate evaluate' watcher) (name source : String) (context : Fields)
    (hs : S i s s') (hadmits : ∀ c ∈ Calls.ofSource watcher env name source context s, admits c) :
    (renderNamed evaluate env name source context s).1 =
        (renderNamed evaluate' { env with filters := fs } name source context s').1 ∧
      S ((Calls.ofSource watcher env name source context s).foldl move i)
        (renderNamed evaluate env name source context s).2
        (renderNamed evaluate' { env with filters := fs } name source context s').2 := by
  unfold renderNamed
  unfold Calls.ofSource at hadmits ⊢
  cases hread : read name source with
  | error f => exact ⟨rfl, hs⟩
  | ok t =>
    rw [hread] at hadmits
    have hr := heval ⟨env, name, env.escapes name, none⟩ t.body rfl i (.start t context s) (.start t context s')
      (.intro (r := .start t context s) hs) hadmits
    dsimp only [Here.withFilters, Environment.escapes] at hr ⊢
    generalize evaluate ⟨env, name, _, none⟩ t.body _ = y at hr ⊢
    generalize evaluate' _ t.body (.start t context s') = y' at hr ⊢
    cases hr with
    | ok a alike =>
      obtain ⟨related⟩ := alike
      exact ⟨rfl, related⟩
    | error f alike =>
      obtain ⟨related⟩ := alike
      exact ⟨rfl, related⟩

section

variable (h : Tracking env fs move admits S inside)
include h

theorem lockstep : Lockstep (fun {_} x x' t _ => Agree move admits S x x' t) := Agree.lockstep h.load h.debug

/-- A filter of the run comes to the same answer in two sessions and leaves them as they are. -/
theorem settle_same (hs : S i s s') {name : String} (hname : env.filters.isBuiltin name = true) (args : List Value) :
    ∀ answer : Except Failure Value,
      SettleAlike (S (move i (.filter ⟨name, args, answer, s.engine.current?⟩))) name (answer, s) (answer, s')
  | .ok w => ⟨rfl, h.value args w hname hs⟩
  | .error failure => ⟨rfl, h.report args failure hname hs⟩

theorem renderFile_alike (hfile : EvaluatorAgrees env fs move admits inside run.file run'.file watch.file) {name : String}
    (hname : env.filters.isBuiltin name = true) (args : List Value) (v : Value) (hs : S i s s')
    (hinside : ∀ c ∈ Calls.ofFile watch env v s, admits c)
    (hcall : admits (.filter ⟨name, args, (renderFile run env v s).1, (renderFile run env v s).2.engine.current?⟩)) :
    SettleAlike (S (move ((Calls.ofFile watch env v s).foldl move i)
        (.filter ⟨name, args, (renderFile run env v s).1, (renderFile run env v s).2.engine.current?⟩))) name
      (renderFile run env v s) (renderFile run' { env with filters := fs } v s') := by
  unfold Calls.ofFile at hinside ⊢
  unfold renderFile at hcall ⊢
  cases hv : pathText v with
  | error f => exact h.settle_same hs hname args _
  | ok text =>
    rw [hv] at hinside hcall
    dsimp only at hinside hcall ⊢
    cases hm : env.scope.readMatter (Path.ofText text) with
    | error f => exact h.settle_same hs hname args _
    | ok matter =>
      rw [hm] at hinside hcall
      dsimp only at hinside hcall ⊢
      obtain ⟨f, hf, hr⟩ | ⟨j, entered, entered', he, he', hj, hleave⟩ := h.enter hm hs
      · rw [hf] at hcall ⊢
        obtain ⟨f', hf', hr⟩ := hr name args hname hcall
        rw [hf']
        exact ⟨rfl, hr⟩
      · rw [he] at hinside ⊢
        rw [he']
        dsimp only at hinside ⊢
        cases hsource : (if env.scope.isHtml (Path.ofText text) then Except.ok matter.body
          else env.scope.markdown matter.body) with
        | error f => exact h.settle_same (hleave [] hj) hname args _
        | ok source =>
          rw [hsource] at hinside
          obtain ⟨hanswer, hafter⟩ := renderNamed_alike hfile text source matter.attributes hj hinside
          have hleft := hleave _ hafter
          dsimp only
          generalize renderNamed run.file env text source matter.attributes entered = y at hanswer hleft
          generalize renderNamed run'.file { env with filters := fs } text source matter.attributes entered' = y'
            at hanswer hleft
          obtain ⟨answer, after⟩ := y
          obtain ⟨answer', after'⟩ := y'
          obtain rfl : answer = answer' := hanswer
          cases answer with
          | ok text => exact h.settle_same hleft hname args _
          | error fault => exact h.settle_same hleft hname args _

theorem agree_applyFilter (hfile : EvaluatorAgrees env fs move admits inside run.file run'.file watch.file) {here : Here}
    (hh : here.env = env) (line : Nat) (name : String) (v : Value) (args : Arguments) :
    Agree move admits S (applyFilter run here line name v args) (applyFilter run' (here.withFilters fs) line name v args)
      (.ofFilter run watch here name v args) := by
  subst hh
  have hentry := h.entries name
  generalize ho : Table.get? here.env.filters name = o at hentry
  generalize ho' : Table.get? fs name = o' at hentry
  have hfs : Table.get? (here.withFilters fs).env.filters name = o' := ho'
  intro i r r' hr hadmits
  cases hr with | @intro s' hs
  -- A call in both registries, after the calls inside of it.
  have hcalls : ∀ {f f'}, o = some f → o' = some f' →
      ((∀ c ∈ Calls.inside watch here.env f v r.session, admits c) →
        admits (.filter ⟨name, v :: args.flat, (callFilter run here.env f v args.flat r.session).1,
          (callFilter run here.env f v args.flat r.session).2.engine.current?⟩) →
        SettleAlike (S (move ((Calls.inside watch here.env f v r.session).foldl move i)
            (.filter ⟨name, v :: args.flat, (callFilter run here.env f v args.flat r.session).1,
              (callFilter run here.env f v args.flat r.session).2.engine.current?⟩))) name
          (callFilter run here.env f v args.flat r.session)
          (callFilter run' { here.env with filters := fs } f' v args.flat s')) →
      EndAlike (S ((Calls.ofFilter run watch here name v args r).foldl move i))
        (applyFilter run here line name v args r)
        (applyFilter run' (here.withFilters fs) line name v args { r with session := s' }) := by
    intro f f' hf hf' hsettle
    rw [Calls.ofFilter_of_get? (ho.trans hf)] at hadmits ⊢
    obtain ⟨hinside, hcall⟩ := List.forall_mem_append.1 hadmits
    have hsettled := hsettle hinside (hcall _ (List.mem_singleton_self _))
    rw [applyFilter_of_get? (ho.trans hf), applyFilter_of_get? (hfs.trans hf'), hsettled.value, List.foldl_append]
    exact .ok _ (.intro hsettled.session)
  cases hentry with
  | absent =>
    unfold applyFilter Calls.ofFilter
    rw [ho, hfs]
    dsimp only
    cases standardFilter? name with
    | none => exact .error _ (.intro hs)
    | some f =>
      have hsteps : Steps (fun {_} x x' t _ => Agree move admits S x x' t) (Here.Refiltered here.env fs) :=
        h.lockstep.steps here.env fs
      exact hsteps.lift ⟨rfl, rfl⟩ line (f v args) i r _ (.intro hs) fun _ hc => nomatch hc
  | builtin b =>
    have hname := Filters.isBuiltin_of_get? ho
    refine hcalls rfl rfl fun hinside hcall => ?_
    cases b with
    | render => exact h.renderFile_alike hfile hname _ v hs hinside hcall
    | _ => exact h.settle_same hs hname _ _
  | custom alike => exact hcalls rfl rfl fun _ _ => alike _ i _ _ hs

/-! ## Levels and pages -/

/-- What tracks the steps of evaluation tracks a whole template at every level, if it tracks files. -/
theorem within_agrees {file file' : Evaluator} {watchFile : Watcher}
    (hfile : EvaluatorAgrees env fs move admits inside file file' watchFile) (n : Nat) :
    EvaluatorAgrees env fs move admits S (evaluateAt file n) (evaluateAt file' n) (watchAt file watchFile n) := by
  refine @Lockstep.within (fun {_} x x' t _ => Agree move admits S x x' t) h.lockstep env fs file file' watchFile
    watchFile (fun n here line name v args hh => ?_) n
  refine h.agree_applyFilter ?_ hh line name v args
  exact hfile

end

variable (h : Tracking env fs move admits S S)
include h

theorem evaluateFile_agrees : ∀ k : Nat,
    EvaluatorAgrees env fs move admits S (evaluateFile k) (evaluateFile k) (watchFile k)
  | 0 => fun _ _ _ => h.lockstep.throw _
  | k + 1 => fun here body hh => h.within_agrees (evaluateFile_agrees k) (levels here.env.scope.tree) here body hh

/-- **What tracks the steps of evaluation tracks whole templates**, at every level of nesting. -/
theorem runner_agrees (n : Nat) :
    EvaluatorAgrees env fs move admits S (runner n).evaluate (runner n).evaluate (watcher n).watch :=
  h.within_agrees (fun here body hh => h.evaluateFile_agrees (renders here.env.scope.tree) here body hh) n

/-- The render of a page in two sessions that both refuse its path, for the same reason, or both let it be entered.  Around
the render another relation may hold, in which what is loaded does not count. -/
theorem render_alike (around : ι → Session RenderStack → Session RenderStack → Prop) (i : ι)
    (s s' : Session RenderStack) (page : Page)
    (hpage : (∃ f, env.scope.enter (.ofText page.name) s = .error f ∧ env.scope.enter (.ofText page.name) s' = .error f ∧
        around i s s') ∨
      ∃ j entered entered', env.scope.enter (.ofText page.name) s = .ok entered ∧
        env.scope.enter (.ofText page.name) s' = .ok entered' ∧ S j (entered.loading []) (entered'.loading []) ∧
        ∀ (calls : List Event) {after after'}, S (calls.foldl move j) after after' →
          around (calls.foldl move i) (after.loading s.engine.loaded).leave (after'.loading s'.engine.loaded).leave)
    (hadmits : ∀ c ∈ env.events page s, admits c) :
    (env.render page s).1 = (Environment.render { env with filters := fs } page s').1 ∧
      around ((env.events page s).foldl move i) (env.render page s).2
        (Environment.render { env with filters := fs } page s').2 := by
  unfold Environment.events at hadmits ⊢
  unfold Environment.render
  obtain ⟨f, hf, hf', hs⟩ | ⟨j, entered, entered', he, he', hj, hleave⟩ := hpage
  · rw [hf, hf']
    exact ⟨rfl, hs⟩
  · rw [he] at hadmits ⊢
    rw [he']
    obtain ⟨hanswer, hafter⟩ := renderNamed_alike (h.runner_agrees (levels env.scope.tree)) page.name
      page.source page.context hj hadmits
    have hleft := hleave _ hafter
    dsimp only
    generalize renderNamed _ env page.name page.source page.context (entered.loading []) = y at hanswer hleft
    generalize renderNamed _ { env with filters := fs } page.name page.source page.context (entered'.loading []) = y'
      at hanswer hleft
    obtain ⟨answer, after⟩ := y
    obtain ⟨answer', after'⟩ := y'
    obtain rfl : answer = answer' := hanswer
    cases answer with
    | ok text => exact ⟨rfl, hleft⟩
    | error fault => exact ⟨rfl, hleft⟩

end Tracking

/-! ## Relations that take no account of calls -/

/-- A relation whose worlds stay as they are when filters are called, whichever these are. -/
def Simulation (env : Environment) (fs : Filters) (S : ι → Session RenderStack → Session RenderStack → Prop) : Prop :=
  Tracking env fs (fun i _ => i) (fun _ => True) S S

namespace Simulation

variable {env : Environment} {fs : Filters} {S : ι → Session RenderStack → Session RenderStack → Prop}

/-- A simulation of an environment by itself. -/
theorem ofSame
    (load : ∀ {i s s'} name, S i s s' → S i (s.load name) (s'.load name))
    (loaded : ∀ {i s s'}, S i s s' → s.engine.loaded = s'.engine.loaded)
    (report : ∀ {i s s'} name failure, S i s s' →
      S i (s.report (filterReport name failure s)) (s'.report (filterReport name failure s')))
    (enter : ∀ {i s s' path matter}, env.scope.readMatter path = .ok matter → S i s s' →
      (∃ f f', env.scope.enter path s = .error f ∧ env.scope.enter path s' = .error f' ∧
        ∀ name, S i (s.report (filterReport name f s)) (s'.report (filterReport name f' s'))) ∨
      ∃ j entered entered', env.scope.enter path s = .ok entered ∧ env.scope.enter path s' = .ok entered' ∧
        S j entered entered' ∧ ∀ {after after'}, S j after after' → S i after.leave after'.leave) :
    Simulation env env.filters S where
  entries name := by
    rcases Table.get? env.filters name with _ | b | f
    · exact .absent
    · exact .builtin b
    · refine .custom fun args i s s' hs => ?_
      cases f args with
      | ok w => exact ⟨rfl, hs⟩
      | error failure => exact ⟨rfl, report name failure hs⟩
  value _ _ _ hs := hs
  report _ failure _ hs := report _ failure hs
  load name hs := load name hs
  debug _ hs := ⟨loaded hs, hs⟩
  enter hm hs := by
    obtain ⟨f, f', hf, hf', hr⟩ | ⟨j, entered, entered', he, he', hj, hleave⟩ := enter hm hs
    · exact .inl ⟨f, hf, fun name _ _ _ => ⟨f', hf', hr name⟩⟩
    · refine .inr ⟨j, entered, entered', he, he', hj, fun calls after after' ha => ?_⟩
      rw [List.foldl_fixed] at ha ⊢
      exact hleave ha

variable (h : Simulation env fs S)
include h

theorem runner_agrees (n : Nat) (here : Here) (body : List Stmt) (hh : here.env = env) {i : ι} {r r' : Run}
    (hr : Alike (S i) r r') : EndAlike (S i) (runner n here body r) (runner n (here.withFilters fs) body r') := by
  have hagree := Tracking.runner_agrees h n here body hh i r r' hr fun _ _ => trivial
  rw [List.foldl_fixed] at hagree
  exact hagree

/-- The render of a page in two sessions that both refuse its path, for the same reason, or both let it be entered. -/
theorem render_alike (around : ι → Session RenderStack → Session RenderStack → Prop) {i : ι}
    {s s' : Session RenderStack} {page : Page}
    (hpage : (∃ f, env.scope.enter (.ofText page.name) s = .error f ∧ env.scope.enter (.ofText page.name) s' = .error f ∧
        around i s s') ∨
      ∃ j entered entered', env.scope.enter (.ofText page.name) s = .ok entered ∧
        env.scope.enter (.ofText page.name) s' = .ok entered' ∧ S j (entered.loading []) (entered'.loading []) ∧
        ∀ {after after'}, S j after after' →
          around i (after.loading s.engine.loaded).leave (after'.loading s'.engine.loaded).leave) :
    (env.render page s).1 = (Environment.render { env with filters := fs } page s').1 ∧
      around i (env.render page s).2 (Environment.render { env with filters := fs } page s').2 := by
  have hrender := Tracking.render_alike h around i s s' page ?_ fun _ _ => trivial
  · rw [List.foldl_fixed] at hrender
    exact hrender
  · refine hpage.imp_right ?_
    rintro ⟨j, entered, entered', he, he', hj, hleave⟩
    refine ⟨j, entered, entered', he, he', hj, fun calls after after' ha => ?_⟩
    rw [List.foldl_fixed] at ha ⊢
    exact hleave ha

end Simulation
end Folio.Template
