import Folio.Proofs.Channel
import Folio.Proofs.Template.Agreement
/-!
# Filters that fail

Where a filter of the caller fails, the run goes on as if it had answered that there is no value, and one report says
what happened.  With the failing calls silenced (`silenced`) a page comes to the same text or the same failure, and its
reports are those from before without the ones of the filter (`failing_filter_reported`).  Two evaluations side by side
show it, in worlds that keep the ledger of the calls made so far (`Ledger`).
-/
namespace Folio.Template

/-- The filter that has no value where another one fails. -/
def silenced (f : Callable) : Callable := fun args =>
  match f args with
  | .ok v => .ok v
  | .error _ => .ok .undefined

/-- The environment in which a filter of the caller never fails. -/
def Environment.silence (env : Environment) (name : String) (f : Callable) : Environment :=
  { env with filters := Table.insert name (.custom (silenced f)) env.filters }

/-- The reports of calls, in order. -/
def Call.reports (calls : List Call) : List Report := calls.filterMap Call.report?

theorem Call.reports_concat (calls : List Call) (c : Call) :
    Call.reports (calls ++ [c]) = Call.reports calls ++ c.report?.toList := by
  unfold Call.reports
  rw [List.filterMap_append]
  cases h : c.report? with
  | none => rw [List.filterMap_cons_none h]; rfl
  | some r => rw [List.filterMap_cons_some h]; rfl

/-- Two sessions after calls of filters of which one, in the second session, never fails.  Both started with the same
channel. -/
structure Ledger (name : String) (f : Callable) (start : Channel) (calls : List Call) (s s' : Session RenderStack) :
    Prop where
  engine : s.engine = s'.engine
  all : s.channel = start.reportAll (Call.reports calls)
  others : s'.channel = start.reportAll (Call.reports (calls.filter (·.name ≠ name)))
  answers : ∀ c ∈ calls, c.name = name → c.answer = f c.args

namespace Ledger

variable {name : String} {f : Callable} {start : Channel} {calls : List Call} {s s' t t' : Session RenderStack}
  (h : Ledger name f start calls s s')
include h

/-- One more call: in the first session it is reported if it fails, in the second one unless it is of the filter. -/
theorem concat {c : Call} (hanswer : c.name = name → c.answer = f c.args) (he : t.engine = t'.engine)
    (hall : t.channel = s.channel.reportAll c.report?.toList)
    (hothers : t'.channel = s'.channel.reportAll (if c.name = name then [] else c.report?.toList)) :
    Ledger name f start (calls ++ [c]) t t' where
  engine := he
  all := by rw [Call.reports_concat, Channel.reportAll_append, ← h.all, hall]
  others := by
    rw [hothers, h.others, List.filter_append, ← Channel.reportAll_append]
    by_cases hc : c.name = name
    · simp [hc]
    · simp [hc, Call.reports_concat]
  answers := by
    intro d hd
    rcases List.mem_append.1 hd with hd | hd
    · exact h.answers d hd
    · rw [List.mem_singleton.1 hd]
      exact hanswer

theorem filterReport_eq (other : String) (failure : Failure) :
    filterReport other failure s = filterReport other failure s' := by
  unfold filterReport
  rw [h.engine]

/-- A call of another filter that has a value. -/
theorem value {other : String} (hne : other ≠ name) (args : List Value) (w : Value) :
    Ledger name f start (calls ++ [⟨other, args, .ok w, s.engine.current?⟩]) s s' :=
  h.concat (fun heq => absurd heq hne) h.engine rfl (by rw [if_neg hne]; rfl)

/-- A call of another filter that fails. -/
theorem report {other : String} (hne : other ≠ name) (args : List Value) (failure : Failure) :
    Ledger name f start (calls ++ [⟨other, args, .error failure, s.engine.current?⟩])
      (s.report (filterReport other failure s)) (s'.report (filterReport other failure s')) := by
  rw [← h.filterReport_eq]
  exact h.concat (fun heq => absurd heq hne) h.engine rfl (by rw [if_neg hne]; rfl)

/-- A call of the filter, which has no value in either session if it fails. -/
theorem settle (args : List Value) :
    SettleAlike (Ledger name f start (calls ++ [⟨name, args, f args, s.engine.current?⟩])) name (f args, s)
      (silenced f args, s') := by
  unfold silenced
  cases hf : f args with
  | ok w => exact ⟨rfl, h.concat (fun _ => hf.symm) h.engine rfl (by rw [if_pos rfl]; rfl)⟩
  | error failure => exact ⟨rfl, h.concat (fun _ => hf.symm) h.engine rfl (by rw [if_pos rfl]; rfl)⟩

/-- A path is refused to both sessions or entered in both. -/
theorem enter (scope : Scope) (p : Path) :
    (∃ failure, scope.enter p s = .error failure ∧ scope.enter p s' = .error failure) ∨
    ∃ entered entered', scope.enter p s = .ok entered ∧ scope.enter p s' = .ok entered' ∧
      Ledger name f start calls entered entered' := by
  by_cases hp : scope.resolve p ∈ s.engine.paths
  · refine .inl ⟨_, Scope.enter_of_mem hp, ?_⟩
    rw [Scope.enter_of_mem (h.engine ▸ hp), h.engine]
  · refine .inr ⟨_, _, Scope.enter_of_not_mem hp, Scope.enter_of_not_mem (h.engine ▸ hp), ?_⟩
    exact ⟨by rw [h.engine], h.all, h.others, h.answers⟩

theorem leave : Ledger name f start calls s.leave s'.leave :=
  ⟨congrArg RenderStack.leave h.engine, h.all, h.others, h.answers⟩

theorem loading (names : List String) : Ledger name f start calls (s.loading names) (s'.loading names) := by
  refine ⟨?_, h.all, h.others, h.answers⟩
  show ({ s.engine with loaded := names } : RenderStack) = { s'.engine with loaded := names }
  rw [h.engine]

end Ledger

/-- A ledger has the calls of filters among the events. -/
def entered (before : List Call) (e : Event) : List Call := before ++ e.call?.toList

theorem foldl_entered : ∀ (events : List Event) (before : List Call),
    events.foldl entered before = before ++ events.filterMap Event.call?
  | [], before => (List.append_nil before).symm
  | e :: events, before => by
    rw [List.foldl_cons, foldl_entered events, entered, List.append_assoc]
    refine congrArg (before ++ ·) ?_
    cases e with
    | filter c => rfl
    | debug => rfl

/-- The ledger is kept across all that templates do to sessions. -/
theorem ledger_tracking {env : Environment} {name : String} {f : Callable}
    (hf : Table.get? env.filters name = some (.custom f)) (start : Channel) :
    Tracking env (env.silence name f).filters entered (fun _ => True) (Ledger name f start) (Ledger name f start) := by
  have hother : ∀ {other}, env.filters.isBuiltin other = true → other ≠ name := by
    rintro other hbuiltin rfl
    unfold Filters.isBuiltin at hbuiltin
    rw [hf] at hbuiltin
    cases hbuiltin
  refine ⟨fun other => ?_, fun args w hb h => h.value (hother hb) args w,
    fun args failure hb h => h.report (hother hb) args failure, fun {i s s'} added h => ?_, fun {i s s'} _ h => ?_,
    fun {i s s' path matter} _ h => ?_⟩
  · unfold Environment.silence
    dsimp only
    rw [Table.get?_insert]
    split
    · rename_i heq
      rw [← heq, hf]
      exact .custom fun args calls s s' h => h.settle args
    · rename_i hne
      rcases Table.get? env.filters other with _ | b | g
      · exact .absent
      · exact .builtin b
      · refine .custom fun args calls s s' h => ?_
        cases g args with
        | ok w => exact ⟨rfl, h.value (Ne.symm hne) args w⟩
        | error failure => exact ⟨rfl, h.report (Ne.symm hne) args failure⟩
  · unfold Session.load
    rw [h.engine]
    exact h.loading _
  · refine ⟨by rw [h.engine], ?_⟩
    rw [entered, Event.call?, Option.toList_none, List.append_nil]
    exact h
  · obtain ⟨failure, he, he'⟩ | ⟨entered, entered', he, he', hentered⟩ := h.enter env.scope path
    · exact .inl ⟨failure, he, fun name args hb _ => ⟨failure, he', h.report (hother hb) args failure⟩⟩
    · exact .inr ⟨i, entered, entered', he, he', hentered, fun calls _ _ ha => ha.leave⟩

/-- **A filter that fails differs from one that has no value by its reports alone.**  The page comes to the same text or
the same failure, and the engine's state to the same.  What was reported are the calls that failed, one report for each, at
its place among the calls; with the filter silenced these are the reports but for those of its own calls. -/
theorem failing_filter_reported {env : Environment} {name : String} {f : Callable}
    (hf : Table.get? env.filters name = some (.custom f)) (page : Page) (s : Session RenderStack) :
    let calls := env.calls page s
    ((env.silence name f).render page s).1 = (env.render page s).1 ∧
    ((env.silence name f).render page s).2.engine = (env.render page s).2.engine ∧
    (env.render page s).2.channel = s.channel.reportAll (calls.filterMap Call.report?) ∧
    ((env.silence name f).render page s).2.channel =
      s.channel.reportAll ((calls.filter (·.name ≠ name)).filterMap Call.report?) ∧
    ∀ c ∈ calls, c.name = name → c.report? =
      match f c.args with
      | .ok _ => none
      | .error e => some ⟨.filter, name ++ ": " ++ e.message, c.path⟩ := by
  intro calls
  have hstart : Ledger name f s.channel [] s s := ⟨rfl, rfl, rfl, fun _ hc => nomatch hc⟩
  have hpage := (ledger_tracking hf s.channel).render_alike (Ledger name f s.channel) [] s s page (by
    obtain ⟨failure, he, he'⟩ | ⟨entered, entered', he, he', hentered⟩ := hstart.enter env.scope (.ofText page.name)
    · exact .inl ⟨failure, he, he', hstart⟩
    · refine .inr ⟨[], entered, entered', he, he', hentered.loading [], fun calls _ _ ha => ?_⟩
      exact (ha.loading s.engine.loaded).leave) fun _ _ => trivial
  rw [foldl_entered, List.nil_append] at hpage
  obtain ⟨hanswer, hledger⟩ := hpage
  refine ⟨hanswer.symm, hledger.engine.symm, hledger.all, hledger.others, fun c hc hname => ?_⟩
  have hcalled := hledger.answers c hc hname
  unfold Call.report?
  cases hresult : f c.args with
  | ok w => simp only [hcalled, hresult]
  | error failure => simp only [hcalled, hresult, hname]

/-- A filter that fails for one of the items of a loop, and again in a file that the page renders. -/
theorem failing_filter_reported_nested :
    let f : Callable := fun
      | [.int 2] => .error (.argument "two")
      | _ => .ok (.plain "one")
    let tree : FileTree := ⟨[([Bytes.ofText "b.html"], .file (Bytes.ofText "\x7b\x7b 2 | number \x7d\x7d"))], []⟩
    let env : Environment :=
      ⟨⟨tree, .ofText "/", ["html"], .ok, fun _ format => .ok format, ⟨0, 0, 0⟩⟩, [], false,
        Table.insert "number" (.custom f) Filters.standard, []⟩
    let page : Page := ⟨"a.html",
      "\x7b% for i in [1, 2] %\x7d\x7b\x7b i | number \x7d\x7d\x7b% endfor %\x7d\x7b\x7b 'b.html' | render \x7d\x7d", []⟩
    let report : Report := ⟨.filter, "number: invalid argument: two", some (.ofText "/a.html")⟩
    Table.get? env.filters "number" = some (.custom f) ∧
    (env.render page ⟨.empty, .empty⟩).2.channel = Channel.empty.reportAll [report, report] ∧
    ((env.silence "number" f).render page ⟨.empty, .empty⟩).1 = (env.render page ⟨.empty, .empty⟩).1 ∧
    ((env.silence "number" f).render page ⟨.empty, .empty⟩).2.channel = Channel.empty := by
  intro f tree env page report
  have hf : Table.get? env.filters "number" = some (.custom f) := rfl
  obtain ⟨hanswer, -, hall, hothers, -⟩ := failing_filter_reported hf page ⟨.empty, .empty⟩
  have hreports : (env.calls page ⟨.empty, .empty⟩).filterMap Call.report? = [report, report] := by decide +kernel
  have hnone : ((env.calls page ⟨.empty, .empty⟩).filter (·.name ≠ "number")).filterMap Call.report? = [] := by
    decide +kernel
  rw [hreports] at hall
  rw [hnone] at hothers
  exact ⟨hf, hall, hanswer, hothers⟩

end Folio.Template
