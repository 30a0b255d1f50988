import Folio.Proofs.Expansion.Account
import Folio.Proofs.Registry.Building
/-!
# What filters a template calls

A filter in an expression is called once, with the value that it is applied to and then its arguments, and the entry that
the environment has under its name answers (`Expr.eval_filter`, `Expr.calls_filter`).  With the history of the
environment's filters this says which entry it is: the last one given to the name (`registries_keep_last`).
-/
namespace Folio

namespace Template

variable {run : Runner} {watch : Watch} {here : Here}

/-! ## Arguments by position -/

theorem Arg.evalAll_positional : ∀ (es : List Expr) (done : Arguments),
    Arg.evalAll run here done (es.map .positional) = do
      let vs ← Expr.evalAll run here es
      pure { done with values := done.values ++ vs }
  | [], done => by
    simp only [List.map_nil, Arg.evalAll, Expr.evalAll, pure_bind, List.append_nil]
  | e :: es, done => by
    simp only [List.map_cons, Arg.evalAll, Expr.evalAll, bind_assoc, pure_bind]
    refine congrArg _ (funext fun v => ?_)
    rw [Arg.evalAll_positional es]
    simp only [List.append_assoc, List.singleton_append]

theorem Arg.calls_positional : ∀ (es : List Expr) (done : Arguments),
    Arg.calls run watch here done (es.map .positional) = Expr.callsAll run watch here es
  | [], done => rfl
  | e :: es, done => by
    simp only [List.map_cons, Arg.calls, Expr.callsAll]
    refine congrArg _ (funext fun v => ?_)
    exact Arg.calls_positional es _

theorem Calls.andThen_map {α β : Type} (t : Calls) (x : Eval α) (g : α → β) (k : β → Calls) :
    t.andThen (x >>= fun a => pure (g a)) k = t.andThen x fun a => k (g a) := by
  funext r
  show t r ++ after (EStateM.bind x fun a => pure (g a)) k r = t r ++ after x (fun a => k (g a)) r
  unfold after EStateM.bind
  cases x r <;> rfl

/-! ## A filter in an expression -/

/-- An entry applied to a value and arguments: what it answers, or no value and a report. -/
def invoke (run : Runner) (env : Environment) (name : String) (f : Filter) (v : Value) (args : List Value) :
    Eval Value := fun r =>
  let (w, session) := settled name (callFilter run env f v args r.session)
  .ok w { r with session := session }

section
variable {name : String} {f : Filter} (hf : Table.get? here.env.filters name = some f) (line : Nat) (subject : Expr)
  (args : List Expr)
include hf

theorem Expr.eval_filter : (Expr.filter line name subject (args.map .positional)).eval run here = (do
    let v ← subject.eval run here
    let vs ← Expr.evalAll run here args
    invoke run here.env name f v vs) := by
  simp only [Expr.eval, Arg.evalAll_positional, List.nil_append, bind_assoc, pure_bind]
  refine congrArg _ (funext fun v => congrArg _ (funext fun vs => funext fun r => ?_))
  exact applyFilter_of_get? hf line v ⟨vs, []⟩ r

theorem Expr.calls_filter : (Expr.filter line name subject (args.map .positional)).calls run watch here =
    (subject.calls run watch here).andThen (subject.eval run here) fun v =>
      (Expr.callsAll run watch here args).andThen (Expr.evalAll run here args) fun vs r =>
        let (answer, after) := callFilter run here.env f v vs r.session
        Calls.inside watch here.env f v r.session ++ [.filter ⟨name, v :: vs, answer, after.engine.current?⟩] := by
  simp only [Expr.calls, Arg.evalAll_positional, Arg.calls_positional, List.nil_append]
  refine congrArg _ (funext fun v => ?_)
  rw [Calls.andThen_map]
  refine congrArg _ (funext fun vs => funext fun r => ?_)
  exact Calls.ofFilter_of_get? hf v ⟨vs, []⟩ r

end

/-- Templates call the entries that a map has. -/
structure Environment.Dispatches (env : Environment) (map : String → Option Filter) : Prop where
  /-- A filter with arguments by position comes to what the entry makes of the value and the arguments. -/
  eval : ∀ {run : Runner} {here : Here} {name : String} {f : Filter}, here.env = env → map name = some f →
    ∀ (line : Nat) (subject : Expr) (args : List Expr),
      (Expr.filter line name subject (args.map .positional)).eval run here = (do
        let v ← subject.eval run here
        let vs ← Expr.evalAll run here args
        invoke run env name f v vs)
  /-- A filter of the caller is called once, on a list of the value and the arguments. -/
  custom : ∀ {run : Runner} {watch : Watch} {here : Here} {name : String} {f : Callable}, here.env = env →
    map name = some (.custom f) → ∀ (line : Nat) (subject : Expr) (args : List Expr),
      (Expr.filter line name subject (args.map .positional)).calls run watch here =
        (subject.calls run watch here).andThen (subject.eval run here) fun v =>
          (Expr.callsAll run watch here args).andThen (Expr.evalAll run here args) fun vs r =>
            [.filter ⟨name, v :: vs, f (v :: vs), r.session.engine.current?⟩]
  /-- Whatever calls are made in the render of a page, the entries of their names answer them. -/
  answered : ∀ (page : Page) (s : Session RenderStack), ∀ c ∈ env.calls page s,
    ∃ (f : Filter) (run : Runner) (v : Value) (args : List Value) (inner : Session RenderStack),
      map c.name = some f ∧ c.args = v :: args ∧ c.answer = (callFilter run env f v args inner).1

theorem Environment.dispatches (env : Environment) : env.Dispatches (Table.get? env.filters) where
  eval := by
    rintro run here name f rfl hf line subject args
    exact Expr.eval_filter hf line subject args
  custom := by
    rintro run watch here name f rfl hf line subject args
    exact Expr.calls_filter hf line subject args
  answered page s c hc := by
    obtain ⟨run, f, v, args, inner, hname, -, hargs, hanswer, -⟩ := (render_accounts env page s).2 c hc
    exact ⟨f, run, v, args, inner, hname, hargs, hanswer⟩

end Template

open Table (Change after lastGiven)

/-- **Registries keep what was given last.**  After any history of insertions and mergers the views of a table agree with
the map that has for each name the last entry given to it, and else what was there at the start; inserting says whether the
name was there; and templates call what the map has.  Mergers are associative, and the empty table changes nothing.  The
filters and tags of a configuration are such tables, and the five names that a run starts with stay. -/
theorem registries_keep_last :
    (∀ start ∈ [Filters.standard, []], ∀ history : List (Change Filter),
      let fs := after start history
      let map := fun name => (lastGiven history name).or (Table.get? start name)
      Table.Shows fs map ∧
      (∀ name, Filters.isBuiltin fs name = true ↔ ∃ b, map name = some (.builtin b)) ∧
      (∀ name f, (Filters.insert fs name f).1 = (map name).isSome ∧
        (Filters.insert fs name f).2 = after start (history ++ [.insert name (.custom f)])) ∧
      ∀ env : Template.Environment, env.filters = fs → env.Dispatches map) ∧
    (∀ history : List (Change Tag), Table.Shows (after [] history) (lastGiven history)) ∧
    (∀ (α : Type) (a b c : Table α), Table.Sorted a → Table.Sorted b → Table.Sorted c →
      Table.merge c (Table.merge b a) = Table.merge (Table.merge c b) a ∧
      Table.merge a [] = a ∧ Table.merge [] a = a) ∧
    ∀ (workingDirectory : Path) (calls : List Config.Call),
      let c := (Config.default workingDirectory).after calls
      c.filters = after Filters.standard (calls.filterMap Config.Call.filterChange?) ∧
      c.tags = after [] (calls.filterMap Config.Call.tagChange?) ∧
      (∀ t now, (c.environment t now).filters = c.filters) ∧
      ∀ b : Builtin, Table.contains c.filters b.name = true := by
  refine ⟨fun start hstart history => ?_, fun history => ?_, fun α a b c ha hb hc => ?_, fun wd calls => ?_⟩
  · have hsorted : Table.Sorted start := by
      rcases List.mem_cons.1 hstart with rfl | hstart
      · exact Filters.sorted_standard
      · exact List.mem_singleton.1 hstart ▸ Table.Sorted.nil
    have hshows := Table.shows_after hsorted history
    have hmap : Table.get? (after start history) = fun name => (lastGiven history name).or (Table.get? start name) :=
      funext hshows.get?
    refine ⟨hshows, fun name => ?_, fun name f => ⟨hshows.contains name, ?_⟩, ?_⟩
    · rw [Filters.isBuiltin_iff, hshows.get?]
    · show Table.insert name (.custom f) (after start history) = after start (history ++ [.insert name (.custom f)])
      rw [after, after, List.foldl_append]
      rfl
    · rintro env henv
      have hdispatches := env.dispatches
      rwa [henv, hmap] at hdispatches
  · have hshows := Table.shows_after Table.Sorted.nil history
    simpa only [Table.get?, Option.or_none] using hshows
  · exact ⟨Table.merge_assoc ha hb hc, Table.merge_nil ha, rfl⟩
  · have hfilters := Config.filters_after calls (Config.default wd)
    refine ⟨hfilters, Config.tags_after calls _, fun _ _ => rfl, fun b => ?_⟩
    show (Table.get? _ b.name).isSome = true
    rw [hfilters]
    exact Filters.isSome_get?_after_standard _ b

end Folio
