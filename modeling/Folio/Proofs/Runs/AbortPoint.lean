import Folio.Proofs.Journal
import Folio.Proofs.Runs.Results
/-!
# The point at which a run is aborted

A run that fails on errors and the lenient run over the same files agree up to the first file that has reports: what was
finished before it, its own result, and everything the engine was asked for (`run_abort_point`).
-/
namespace Folio

variable {ε : Type}

/-! ## Runs of which the calls are noted -/

/-- Transforms one file and notes what the engine is asked for. -/
def Config.processNoting (c : Config) (t : FileTree) (now : Calendar.Moment) : Processing (Journal RenderStack) :=
  transform (recorded (c.environment t now).render) c.globals c.htmlExtensions

def Config.runNoting (c : Config) (t : FileTree) (now : Calendar.Moment) (files : List ContentFile)
    (s : Session (Journal RenderStack)) : Except Aborted Summary × Session (Journal RenderStack) :=
  runFrom (c.processNoting t now) c.failOnError .empty files s

theorem runFrom_plain {process : Processing ε} {noting : Processing (Journal ε)}
    (h : ∀ f s, process f s.plain = ((noting f s).1, (noting f s).2.plain)) (failOnError : Bool) :
    ∀ (files : List ContentFile) (sum : Summary) (s : Session (Journal ε)),
      runFrom process failOnError sum files s.plain =
        ((runFrom noting failOnError sum files s).1, (runFrom noting failOnError sum files s).2.plain)
  | [], _, _ => rfl
  | f :: files, sum, s => by
    unfold runFrom
    rw [h]
    dsimp only
    split
    · rfl
    · exact runFrom_plain h failOnError files _ _

theorem Config.process_plain (c : Config) (t : FileTree) (now : Calendar.Moment) (f : ContentFile)
    (s : Session (Journal RenderStack)) :
    c.process t now f s.plain = ((c.processNoting t now f s).1, (c.processNoting t now f s).2.plain) :=
  transform_recorded (c.environment t now).render c.globals c.htmlExtensions f s

/-- Noting the calls of a run changes nothing else. -/
theorem Config.run_plain (c : Config) (t : FileTree) (now : Calendar.Moment) (files : List ContentFile)
    (s : Session (Journal RenderStack)) :
    c.run t now files s.plain = ((c.runNoting t now files s).1, (c.runNoting t now files s).2.plain) :=
  runFrom_plain (c.process_plain t now) c.failOnError files .empty s

theorem results_plain {process : Processing ε} {noting : Processing (Journal ε)}
    (h : ∀ f s, process f s.plain = ((noting f s).1, (noting f s).2.plain)) :
    ∀ (files : List ContentFile) (s : Session (Journal ε)),
      results process files s.plain = ((results noting files s).1, (results noting files s).2.plain)
  | [], _ => rfl
  | f :: files, s => by
    rw [results_cons, results_cons, h]
    dsimp only
    rw [results_plain h files]

/-! ## Dropped files -/

/-- A file is never dropped without a report. -/
theorem transform_file_ne_none {render : Renderer ε} {globals : Fields} {extensions : List String} {f : ContentFile}
    {s : Session ε} (h : (transform render globals extensions f s).1.reports = []) :
    (transform render globals extensions f s).1.file ≠ none := by
  rcases f.renderWith_cases render globals extensions s with
    ⟨-, hr⟩ | ⟨-, -, hr⟩ | ⟨_, _, _, -, -, ⟨_, _, -, hr⟩ | ⟨_, _, -, hr⟩⟩
  all_goals rw [transform_of_renderWith hr] at h ⊢
  · simp [Session.report] at h
  all_goals simp

/-! ## Agreement -/

/-- None of the files before the first that has reports was dropped. -/
theorem length_outputs_take {c : Config} {t : FileTree} {now : Calendar.Moment} {files : List ContentFile}
    {s : RunSession} {k : Nat} (hk : k ≤ files.length)
    (hlt : ∀ i < k, ∀ q, (results (c.process t now) files s).1[i]? = some q → q.reports = []) :
    (outputs ((results (c.process t now) files s).1.take k)).length = k := by
  have hfile : ∀ q ∈ (results (c.process t now) files s).1.take k, q.file ≠ none := by
    intro q hq
    obtain ⟨i, hi, rfl⟩ := List.mem_take_iff_getElem.1 hq
    have hi' := Nat.lt_of_lt_of_le hi (Nat.min_le_right _ _)
    have hclean := hlt i (Nat.lt_of_lt_of_le hi (Nat.min_le_left _ _)) _ (List.getElem?_eq_getElem hi')
    obtain ⟨f, s', heq⟩ := exists_of_mem_results _ (List.getElem_mem hi')
    rw [heq] at hclean ⊢
    exact transform_file_ne_none hclean
  rw [length_outputs hfile, List.length_take, length_results, Nat.min_eq_left hk]

/-- **A run that fails on errors and the lenient run agree up to the abort point.**  Let `ts` be the results of the lenient
run.  The other run has the same summary exactly when none of them has reports.  Otherwise it ends with the first file
that has some, and hands back its result and the files before it, none of which was dropped; it leaves the session in the
state after that file, so no later file was shown to the engine or caused a report. -/
theorem run_abort_point (c : Config) (t : FileTree) (now : Calendar.Moment) (files : List ContentFile) (s : RunSession) :
    ∃ (ts : List Transformed) (sum : Summary) (after : RunSession),
      results ((c.withFailOnError false).process t now) files s = (ts, after) ∧ ts.length = files.length ∧
      sum = ts.foldl Summary.record .empty ∧
      (c.withFailOnError false).run t now files s = (.ok sum, after) ∧
      (c.withFailOnError true).run t now files s =
        (((c.withFailOnError true).runNoting t now files (s.noting [])).1,
          ((c.withFailOnError true).runNoting t now files (s.noting [])).2.plain) ∧
      (((c.withFailOnError true).run t now files s).1 = .ok sum ↔ ∀ r ∈ ts, r.reports = []) ∧
      ((∀ r ∈ ts, r.reports = []) ∨ ∃ (k : Nat) (f : ContentFile) (r : Transformed),
        files[k]? = some f ∧ ts[k]? = some r ∧ r.reports ≠ [] ∧
        (∀ i < k, ∀ q, ts[i]? = some q → q.reports = []) ∧
        ((c.withFailOnError true).run t now files s).1 = .error ⟨f.path, r.reports, r.file, outputs (ts.take k)⟩ ∧
        (outputs (ts.take k)).length = k ∧
        ((c.withFailOnError true).run t now files s).2 =
          (results ((c.withFailOnError false).process t now) (files.take (k + 1)) s).2 ∧
        ((c.withFailOnError true).runNoting t now files (s.noting [])).2 =
          (results ((c.withFailOnError false).processNoting t now) (files.take (k + 1)) (s.noting [])).2) := by
  refine ⟨_, _, _, rfl, length_results _ files s, rfl, runFrom_lenient (c.process t now) files .empty s,
    (c.withFailOnError true).run_plain t now files (s.noting []), ?_, ?_⟩
  · by_cases hclean : ∀ r ∈ (results (c.process t now) files s).1, r.reports = []
    · have hrun : (c.withFailOnError true).run t now files s = _ :=
        (runFrom_of_clean (c.process t now) files .empty s hclean).trans
          (runFrom_lenient (c.process t now) files .empty s)
      exact ⟨fun _ => hclean, fun _ => congrArg Prod.fst hrun⟩
    · obtain ⟨k, f, r, hf, hr, hne, hlt⟩ := exists_first_file (c.process t now) hclean
      have hrun : (c.withFailOnError true).run t now files s = _ :=
        runFrom_of_first (c.process t now) .empty hf hr hne hlt
      refine ⟨fun hok => ?_, fun h => absurd h hclean⟩
      rw [hrun] at hok
      cases hok
  · refine or_iff_not_imp_left.2 fun hreports => ?_
    obtain ⟨k, f, r, hf, hr, hne, hlt⟩ := exists_first_file (c.process t now) hreports
    have hrun : (c.withFailOnError true).run t now files s = _ :=
      runFrom_of_first (c.process t now) .empty hf hr hne hlt
    have hnoting : (results (c.processNoting t now) files (s.noting [])).1 = (results (c.process t now) files s).1 :=
      (congrArg Prod.fst (results_plain (c.process_plain t now) files (s.noting []))).symm
    have hrunNoting : (c.withFailOnError true).runNoting t now files (s.noting []) = _ :=
      runFrom_of_first (c.processNoting t now) .empty hf (hnoting ▸ hr) hne (hnoting ▸ hlt)
    have hk : k ≤ files.length := Nat.le_of_lt (List.getElem?_eq_some_iff.1 hf).1
    exact ⟨k, f, r, hf, hr, hne, hlt, congrArg Prod.fst hrun, length_outputs_take hk hlt, congrArg Prod.snd hrun,
      congrArg Prod.snd hrunNoting⟩

end Folio
