import Folio.Proofs.Channel
import Folio.Proofs.Journal
import Folio.Proofs.Runs.Results
import Folio.Proofs.Template.Steady
/-!
# Lenient runs conserve files and reports

Rendering does nothing to a channel but report (`render_reporting`), and a transformation drains what was reported in it
(`transform_accounts`).  So over a whole run what listeners hear is what the results carry (`results_accounts`), and with
the counts of a summary this makes `run_conserves`.
-/
namespace Folio

variable {ε : Type}

/-! ## Reports of one file -/

/-- What does not depend on the file that a report is given. -/
def Report.content (r : Report) : ReportKind × String := (r.kind, r.message)

theorem Report.map_content_withPath (rs : List Report) (p : Path) :
    (rs.map (·.withPath p)).map Report.content = rs.map Report.content := by
  rw [List.map_map]
  rfl

theorem Scope.channel_enter {scope : Scope} {p : Path} {s entered : Session RenderStack}
    (h : scope.enter p s = .ok entered) : entered.channel = s.channel := by
  obtain ⟨-, rfl⟩ := Scope.enter_eq_ok_iff.1 h
  rfl

theorem Session.Reporting.of_enter {scope : Scope} {p : Path} {s entered after : Session RenderStack}
    (h : scope.enter p s = .ok entered) (ha : entered.Reporting after) : s.Reporting after.leave := by
  obtain ⟨rs, hrs⟩ := ha
  refine ⟨rs, ?_⟩
  rw [← Scope.channel_enter h]
  exact hrs

theorem steady_reporting (scope : Scope) : Template.Steady scope Session.Reporting where
  refl := Session.Reporting.refl
  trans := Session.Reporting.trans
  report _ _ s := Session.Reporting.report s _
  loading _ s := Session.Reporting.refl s
  within _ he ha := Session.Reporting.of_enter he ha

/-- **Rendering a page does nothing to the channel but report**, at whatever depth and however it ends. -/
theorem render_reporting (env : Template.Environment) (page : Page) (s : Session RenderStack) :
    s.Reporting (env.render page s).2 :=
  (steady_reporting env.scope).render_keeps Session.Reporting.of_enter

theorem renderWith_reporting {render : Renderer ε} (hrender : ∀ page (s : Session ε), s.Reporting (render page s).2)
    (globals : Fields) (extensions : List String) (f : ContentFile) (s : Session ε) :
    s.Reporting (f.renderWith render globals extensions s).2.2 :=
  f.renderWith_keeps .refl .trans .report hrender globals extensions s

/-- The reports of a file are the reports of the meantime, and none of them is left in the channel. -/
theorem transform_accounts {render : Renderer ε} (hrender : ∀ page (s : Session ε), s.Reporting (render page s).2)
    (globals : Fields) (extensions : List String) (f : ContentFile) {s : Session ε} (hs : s.channel.pending = []) :
    ∃ rs, (transform render globals extensions f s).1.reports = rs.map (·.withPath f.path) ∧
      (transform render globals extensions f s).2.channel = (s.channel.reportAll rs).drain.2 := by
  obtain ⟨rs, hrs⟩ := renderWith_reporting hrender globals extensions f s
  rcases hr : f.renderWith render globals extensions s with ⟨g, status, after⟩
  rw [hr] at hrs
  rw [transform_of_renderWith hr]
  refine ⟨rs, ?_, ?_⟩
  · show after.channel.pending.map (·.withPath f.path) = rs.map (·.withPath f.path)
    rw [hrs, Channel.pending_reportAll, hs, List.nil_append]
  · show after.channel.drain.2 = (s.channel.reportAll rs).drain.2
    rw [hrs]

/-- A file keeps its path, and it is missing from its result only if it was dropped. -/
theorem transform_path (render : Renderer ε) (globals : Fields) (extensions : List String) (f : ContentFile)
    (s : Session ε) :
    (transform render globals extensions f s).1.file.map (·.path) =
      if (transform render globals extensions f s).1.status = .dropped then none else some f.path := by
  rcases f.renderWith_cases render globals extensions s with
    ⟨-, hr⟩ | ⟨-, -, hr⟩ | ⟨_, _, _, -, -, ⟨_, _, -, hr⟩ | ⟨_, _, -, hr⟩⟩
  all_goals
    rw [transform_of_renderWith hr]
    rfl

/-! ## Reports and files of a run -/

section
variable {process : Processing ε}

/-- What listeners hear in a run is what its results carry, and the channel is empty after it. -/
theorem results_accounts
    (haccounts : ∀ (f : ContentFile) {s : Session ε}, s.channel.pending = [] →
      ∃ rs, (process f s).1.reports = rs.map (·.withPath f.path) ∧
        (process f s).2.channel = (s.channel.reportAll rs).drain.2) :
    ∀ (files : List ContentFile) {s : Session ε}, s.channel.pending = [] →
      ∃ rs, ((results process files s).1.flatMap (·.reports)).map Report.content = rs.map Report.content ∧
        (results process files s).2.channel = (s.channel.reportAll rs).drain.2
  | [], s, hs => ⟨[], rfl, (Channel.drain_eq_self hs).symm⟩
  | f :: files, s, hs => by
    obtain ⟨rs, hreports, hchannel⟩ := haccounts f hs
    have hpending : (process f s).2.channel.pending = [] := by
      rw [hchannel]
      rfl
    obtain ⟨rest, hrest, hafter⟩ := results_accounts haccounts files hpending
    refine ⟨rs ++ rest, ?_, ?_⟩
    · rw [results_cons, List.flatMap_cons, List.map_append, hrest, hreports, Report.map_content_withPath,
        List.map_append]
    · rw [results_cons]
      dsimp only
      rw [hafter, hchannel, Channel.drain_reportAll_drain, Channel.reportAll_append]

/-- The files of the results are those that were not dropped, in order. -/
theorem outputs_paths
    (hpath : ∀ f s, (process f s).1.file.map (·.path) = if (process f s).1.status = .dropped then none else some f.path) :
    ∀ (files : List ContentFile) (s : Session ε),
      (outputs (results process files s).1).map (·.path) =
        ((files.zip (results process files s).1).filter (·.2.status ≠ .dropped)).map (·.1.path)
  | [], _ => rfl
  | f :: files, s => by
    have hfile : (process f s).1.file.toList.map (·.path) =
        ([(f, (process f s).1)].filter (·.2.status ≠ .dropped)).map (·.1.path) := by
      rw [← Option.toList_map, hpath f s]
      by_cases hd : (process f s).1.status = .dropped
      · simp [hd]
      · simp [hd]
    rw [results_cons, outputs_cons, List.zip_cons_cons, List.map_append, outputs_paths hpath files, hfile,
      ← List.map_append, ← List.filter_append]
    rfl

theorem isSome_file_iff (hpath : ∀ f s, (process f s).1.file.map (·.path) =
      if (process f s).1.status = .dropped then none else some f.path)
    {files : List ContentFile} {s : Session ε} {r : Transformed} (hr : r ∈ (results process files s).1) :
    r.file.isSome ↔ r.status ≠ .dropped := by
  obtain ⟨f, s', rfl⟩ := exists_of_mem_results process hr
  have h := congrArg Option.isSome (hpath f s')
  rw [Option.isSome_map] at h
  rw [h]
  split
  · simp [*]
  · simp [*]

end

/-! ## Counts -/

namespace Summary

/-- How many files had a status. -/
def count (sum : Summary) : Status → Nat
  | .rendered => sum.rendered
  | .passedThrough => sum.passedThrough
  | .failed => sum.failed
  | .dropped => sum.dropped

theorem count_record (sum : Summary) (t : Transformed) (status : Status) :
    (sum.record t).count status = sum.count status + if t.status = status then 1 else 0 := by
  unfold record
  cases status
  all_goals
    dsimp only [count]
    split
    · rfl
    · rfl

theorem count_foldl_record (status : Status) : ∀ (ts : List Transformed) (sum : Summary),
    (ts.foldl record sum).count status = sum.count status + ts.countP (·.status = status)
  | [], _ => rfl
  | t :: ts, sum => by
    rw [List.foldl_cons, count_foldl_record status ts, count_record, List.countP_cons, Nat.add_assoc,
      Nat.add_comm (ts.countP _)]
    simp

theorem count_foldl_record_empty (ts : List Transformed) (status : Status) :
    (ts.foldl record .empty).count status = ts.countP (·.status = status) := by
  rw [count_foldl_record]
  cases status
  all_goals exact Nat.zero_add _

end Summary

/-- Every result has one of the four statuses. -/
theorem countP_statuses : ∀ ts : List Transformed,
    ts.countP (·.status = .rendered) + ts.countP (·.status = .passedThrough) + ts.countP (·.status = .failed) +
      ts.countP (·.status = .dropped) = ts.length
  | [] => rfl
  | t :: ts => by
    have hrec := countP_statuses ts
    simp only [List.countP_cons, List.length_cons]
    cases t.status
    all_goals
      simp
      omega

/-- As many files are handed on as were not dropped. -/
theorem length_outputs_add_dropped : ∀ {ts : List Transformed}, (∀ t ∈ ts, t.file.isSome ↔ t.status ≠ .dropped) →
    (outputs ts).length + ts.countP (·.status = .dropped) = ts.length
  | [], _ => rfl
  | t :: ts, h => by
    have hrec := length_outputs_add_dropped fun r hr => h r (List.mem_cons_of_mem _ hr)
    have ht := h t List.mem_cons_self
    rw [outputs_cons, List.length_append, List.countP_cons, List.length_cons]
    cases hf : t.file with
    | none =>
      have hd : t.status = .dropped := by simpa [hf] using ht
      simp [hd]
      omega
    | some f =>
      have hd : t.status ≠ .dropped := ht.1 (by rw [hf]; rfl)
      simp [hd]
      omega

/-! ## Conservation -/

theorem Config.process_accounts (c : Config) (t : FileTree) (now : Calendar.Moment) (f : ContentFile)
    {s : RunSession} (hs : s.channel.pending = []) :
    ∃ rs, (c.process t now f s).1.reports = rs.map (·.withPath f.path) ∧
      (c.process t now f s).2.channel = (s.channel.reportAll rs).drain.2 :=
  transform_accounts (render_reporting (c.environment t now)) c.globals c.htmlExtensions f hs

theorem Config.process_path (c : Config) (t : FileTree) (now : Calendar.Moment) (f : ContentFile) (s : RunSession) :
    (c.process t now f s).1.file.map (·.path) =
      if (c.process t now f s).1.status = .dropped then none else some f.path :=
  transform_path (c.environment t now).render c.globals c.htmlExtensions f s

theorem Config.run_lenient (c : Config) (hc : c.failOnError = false) (t : FileTree) (now : Calendar.Moment)
    (files : List ContentFile) (s : RunSession) :
    c.run t now files s = (.ok ((results (c.process t now) files s).1.foldl Summary.record .empty),
      (results (c.process t now) files s).2) := by
  rw [run, hc]
  exact runFrom_lenient (c.process t now) files .empty s

/-- **A lenient run conserves files and reports.**  It hands on the files that were not dropped, in order and under their
paths, counts every file once, and lists the reports of all files in order; every listener hears just these reports in
this order, and none is left in the channel. -/
theorem run_conserves {c : Config} (hc : c.failOnError = false) (t : FileTree) (now : Calendar.Moment)
    (files : List ContentFile) {s : RunSession} (hs : s.channel.pending = []) :
    ∃ (ts : List Transformed) (sum : Summary) (after : RunSession),
      results (c.process t now) files s = (ts, after) ∧ ts.length = files.length ∧
      c.run t now files s = (.ok sum, after) ∧
      sum.files = outputs ts ∧
      sum.files.map (·.path) = ((files.zip ts).filter (·.2.status ≠ .dropped)).map (·.1.path) ∧
      (∀ status, sum.count status = ts.countP (·.status = status)) ∧
      sum.rendered + sum.passedThrough + sum.failed + sum.dropped = files.length ∧
      sum.rendered + sum.passedThrough + sum.failed = sum.files.length ∧
      sum.reports = ts.flatMap (·.reports) ∧
      (∀ i < s.channel.listeners, ∃ news, after.channel.heardBy i = s.channel.heardBy i ++ news ∧
        news.map Report.content = sum.reports.map Report.content) ∧
      after.channel.pending = [] := by
  obtain ⟨ts, after, hts⟩ : ∃ ts after, results (c.process t now) files s = (ts, after) := ⟨_, _, rfl⟩
  have hlength : ts.length = files.length := by
    rw [← length_results (c.process t now) files s, hts]
  have hpaths := outputs_paths (c.process_path t now) files s
  rw [hts] at hpaths
  have hsome : ∀ r ∈ ts, r.file.isSome ↔ r.status ≠ .dropped := by
    have h : ∀ r ∈ (results (c.process t now) files s).1, r.file.isSome ↔ r.status ≠ .dropped :=
      fun r hr => isSome_file_iff (c.process_path t now) hr
    rwa [hts] at h
  obtain ⟨rs, hcontent, hchannel⟩ := results_accounts (c.process_accounts t now) files hs
  rw [hts] at hcontent hchannel
  have hfiles : (ts.foldl Summary.record .empty).files = outputs ts := files_foldl_record ts .empty
  have hreports : (ts.foldl Summary.record .empty).reports = ts.flatMap (·.reports) := reports_foldl_record ts .empty
  have hcounts := Summary.count_foldl_record_empty ts
  have hall := countP_statuses ts
  have hkept := length_outputs_add_dropped hsome
  rw [← hcounts, ← hcounts, ← hcounts, ← hcounts] at hall
  rw [← hcounts, ← hfiles] at hkept
  refine ⟨ts, _, after, hts, hlength, (c.run_lenient hc t now files s).trans (by rw [hts]), hfiles, ?_, hcounts,
    hall.trans hlength, Nat.add_right_cancel (hall.trans hkept.symm), hreports, ?_, ?_⟩
  · rw [hfiles]
    exact hpaths
  · intro i hi
    refine ⟨rs, ?_, ?_⟩
    · rw [hchannel, Channel.heardBy_drain, Channel.heardBy_reportAll hi]
    · rw [hreports, hcontent]
  · rw [hchannel]
    rfl

/-- A stream is dropped and reported to the one listener; the file after it has no contents. -/
theorem run_conserves_stream :
    (Config.default (.ofText "/")).failOnError = false ∧
    (⟨Channel.empty.subscribe, .empty⟩ : RunSession).channel.pending = [] ∧
    ∃ (sum : Summary) (after : RunSession),
      (Config.default (.ofText "/")).run (.empty []) ⟨0, 0, 0⟩
        [⟨.ofText "a.html", .stream, none, .at ⟨0, 0, 0⟩⟩, ⟨.ofText "b.html", .absent, none, .at ⟨0, 0, 0⟩⟩]
        ⟨Channel.empty.subscribe, .empty⟩ = (.ok sum, after) ∧
      sum.files.map (·.path) = [.ofText "b.html"] ∧ sum.dropped = 1 ∧ sum.passedThrough = 1 ∧
      (after.channel.heardBy 0).map Report.content = [(.unsupportedInput, "Streams are not supported!")] := by
  refine ⟨rfl, rfl, ?_⟩
  obtain ⟨ts, sum, after, hts, -, hrun, -, hpaths, hcounts, -, -, hreports, hheard, -⟩ :=
    run_conserves (c := Config.default (.ofText "/")) rfl (.empty []) ⟨0, 0, 0⟩
      [⟨.ofText "a.html", .stream, none, .at ⟨0, 0, 0⟩⟩, ⟨.ofText "b.html", .absent, none, .at ⟨0, 0, 0⟩⟩]
      (s := ⟨Channel.empty.subscribe, .empty⟩) rfl
  obtain ⟨news, hafter, hcontent⟩ := hheard 0 Nat.zero_lt_one
  cases hts
  refine ⟨sum, _, hrun, hpaths, hcounts .dropped, hcounts .passedThrough, ?_⟩
  rw [hafter, List.map_append, hcontent, hreports]
  rfl

end Folio
