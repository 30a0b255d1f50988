import Mathlib.Data.Nat.Find
import Folio.Pipeline
/-!
# Runs as lists of results

A lenient run is the fold of the results of its files (`runFrom_lenient`).  A run that fails on errors is the same run
until a file has reports, and ends there (`runFrom_of_clean`, `runFrom_of_first`).
-/
namespace Folio

variable {ε : Type}

/-- The results of processing files one after the other, and the session after them. -/
def results (process : Processing ε) : List ContentFile → Session ε → List Transformed × Session ε
  | [], s => ([], s)
  | f :: fs, s =>
    let (done, s) := process f s
    let (rest, s) := results process fs s
    (done :: rest, s)

/-- The files of results, without those that were dropped. -/
def outputs (ts : List Transformed) : List ContentFile := ts.flatMap (·.file.toList)

theorem outputs_cons (t : Transformed) (ts : List Transformed) : outputs (t :: ts) = t.file.toList ++ outputs ts := rfl

theorem Summary.files_record (sum : Summary) (t : Transformed) :
    (sum.record t).files = sum.files ++ t.file.toList := rfl

section
variable (process : Processing ε)

theorem results_cons (f : ContentFile) (fs : List ContentFile) (s : Session ε) :
    results process (f :: fs) s =
      ((process f s).1 :: (results process fs (process f s).2).1, (results process fs (process f s).2).2) := rfl

theorem length_results : ∀ (fs : List ContentFile) (s : Session ε), (results process fs s).1.length = fs.length
  | [], _ => rfl
  | f :: fs, s => by rw [results_cons, List.length_cons, List.length_cons, length_results fs]

/-- Every result is that of some file in some session. -/
theorem exists_of_mem_results {t : Transformed} : ∀ {fs : List ContentFile} {s : Session ε},
    t ∈ (results process fs s).1 → ∃ f s', t = (process f s').1
  | f :: fs, s, h => by
    rcases List.mem_cons.1 h with rfl | h
    · exact ⟨f, s, rfl⟩
    · exact exists_of_mem_results h

/-- **A lenient run sums up the results of all its files.** -/
theorem runFrom_lenient : ∀ (fs : List ContentFile) (sum : Summary) (s : Session ε),
    runFrom process false sum fs s = (.ok ((results process fs s).1.foldl Summary.record sum), (results process fs s).2)
  | [], _, _ => rfl
  | f :: fs, sum, s => by
    rw [results_cons, List.foldl_cons]
    exact runFrom_lenient fs _ _

theorem runFrom_cons_of_clean {f : ContentFile} {s : Session ε} (failOnError : Bool) (sum : Summary)
    (fs : List ContentFile) (h : (process f s).1.reports = []) :
    runFrom process failOnError sum (f :: fs) s =
      runFrom process failOnError (sum.record (process f s).1) fs (process f s).2 := by
  simp only [runFrom, h, List.isEmpty_nil, Bool.not_true, Bool.and_false, Bool.false_eq_true, ↓reduceIte]

theorem runFrom_cons_of_reports {f : ContentFile} {s : Session ε} (sum : Summary) (fs : List ContentFile)
    (h : (process f s).1.reports ≠ []) :
    runFrom process true sum (f :: fs) s =
      (.error ⟨f.path, (process f s).1.reports, (process f s).1.file, sum.files⟩, (process f s).2) := by
  have hne : (process f s).1.reports.isEmpty = false := by simpa using h
  simp only [runFrom, hne, Bool.not_false, Bool.and_self, ↓reduceIte]

/-- A run over files without reports is lenient. -/
theorem runFrom_of_clean : ∀ (fs : List ContentFile) (sum : Summary) (s : Session ε),
    (∀ t ∈ (results process fs s).1, t.reports = []) →
      runFrom process true sum fs s = runFrom process false sum fs s
  | [], _, _, _ => rfl
  | f :: fs, sum, s, h => by
    rw [results_cons] at h
    have hf : (process f s).1.reports = [] := h _ List.mem_cons_self
    rw [runFrom_cons_of_clean process true sum fs hf, runFrom_cons_of_clean process false sum fs hf]
    exact runFrom_of_clean fs _ _ fun t ht => h t (List.mem_cons_of_mem _ ht)

/-- Among results of which some have reports there is a first one that has. -/
theorem exists_first {ts : List Transformed} (h : ¬ ∀ t ∈ ts, t.reports = []) :
    ∃ (k : Nat) (r : Transformed), ts[k]? = some r ∧ r.reports ≠ [] ∧ ∀ i < k, ∀ q, ts[i]? = some q → q.reports = [] := by
  have hp : ∃ k : Nat, ∃ r : Transformed, ts[k]? = some r ∧ r.reports ≠ [] := by
    obtain ⟨t, ht, hne⟩ : ∃ t ∈ ts, t.reports ≠ [] := by simpa using h
    obtain ⟨k, hk⟩ := List.mem_iff_getElem?.1 ht
    exact ⟨k, t, hk, hne⟩
  classical
  obtain ⟨r, hr, hne⟩ := Nat.find_spec hp
  refine ⟨Nat.find hp, r, hr, hne, fun i hi q hq => ?_⟩
  by_contra hc
  exact Nat.find_min hp hi ⟨q, hq, hc⟩

/-- The first file that has reports, if any has. -/
theorem exists_first_file {files : List ContentFile} {s : Session ε}
    (h : ¬ ∀ r ∈ (results process files s).1, r.reports = []) :
    ∃ (k : Nat) (f : ContentFile) (r : Transformed), files[k]? = some f ∧ (results process files s).1[k]? = some r ∧
      r.reports ≠ [] ∧ ∀ i < k, ∀ q, (results process files s).1[i]? = some q → q.reports = [] := by
  obtain ⟨k, r, hr, hne, hlt⟩ := exists_first h
  have hk : k < files.length := by
    rw [← length_results process files s]
    exact (List.getElem?_eq_some_iff.1 hr).1
  exact ⟨k, files[k], r, List.getElem?_eq_getElem hk, hr, hne, hlt⟩

/-- **A run that fails on errors ends with the first file that has reports**, in the session after that file. -/
theorem runFrom_of_first : ∀ {k : Nat} {files : List ContentFile} {f : ContentFile} {r : Transformed} (sum : Summary)
    {s : Session ε}, files[k]? = some f → (results process files s).1[k]? = some r → r.reports ≠ [] →
      (∀ i < k, ∀ q, (results process files s).1[i]? = some q → q.reports = []) →
      runFrom process true sum files s =
        (.error ⟨f.path, r.reports, r.file, sum.files ++ outputs ((results process files s).1.take k)⟩,
          (results process (files.take (k + 1)) s).2)
  | _, [], _, _, _, _, hf, _, _, _ => by simp at hf
  | 0, g :: files, f, r, sum, s, hf, hr, hne, _ => by
    obtain rfl : g = f := by simpa using hf
    obtain rfl : (process g s).1 = r := by simpa [results_cons] using hr
    rw [runFrom_cons_of_reports process sum files hne]
    simp [outputs, results]
  | k + 1, g :: files, f, r, sum, s, hf, hr, hne, hlt => by
    rw [results_cons] at hr hlt
    rw [List.getElem?_cons_succ] at hf hr
    have hg : (process g s).1.reports = [] := hlt 0 (Nat.succ_pos k) _ rfl
    have hrec := runFrom_of_first (sum.record (process g s).1) hf hr hne
      fun i hi q hq => hlt (i + 1) (Nat.succ_lt_succ hi) q hq
    rw [runFrom_cons_of_clean process true sum files hg, hrec, results_cons, List.take_succ_cons, outputs_cons,
      Summary.files_record, List.append_assoc, List.take_succ_cons, results_cons]

end

/-! ## Sums of results -/

@[simp] theorem files_foldl_record (ts : List Transformed) (sum : Summary) :
    (ts.foldl Summary.record sum).files = sum.files ++ outputs ts := by
  induction ts generalizing sum with
  | nil => simp [outputs]
  | cons t ts ih =>
    rw [List.foldl_cons, ih, Summary.files_record, outputs_cons, List.append_assoc]

@[simp] theorem reports_foldl_record (ts : List Transformed) (sum : Summary) :
    (ts.foldl Summary.record sum).reports = sum.reports ++ ts.flatMap (·.reports) := by
  induction ts generalizing sum with
  | nil => simp
  | cons t ts ih =>
    rw [List.foldl_cons, ih]
    simp [Summary.record]

/-- Every file that was not dropped is handed on. -/
theorem length_outputs : ∀ {ts : List Transformed}, (∀ t ∈ ts, t.file ≠ none) → (outputs ts).length = ts.length
  | [], _ => rfl
  | t :: ts, h => by
    obtain ⟨f, hf⟩ := Option.ne_none_iff_exists'.1 (h t List.mem_cons_self)
    rw [outputs_cons, List.length_append, length_outputs fun r hr => h r (List.mem_cons_of_mem _ hr), hf,
      List.length_cons]
    exact Nat.add_comm _ _

end Folio
