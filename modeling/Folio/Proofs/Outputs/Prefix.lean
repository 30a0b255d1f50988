import Folio.Proofs.Outputs.Keeping
import Folio.Proofs.Runs.Independence
import Folio.Proofs.Tree.Making
/-!
# Outputs up to the first error

A command line that cannot load its settings or read one of its files leaves the tree as it was.  Every other writes the
outputs of its files in order: of all of them, or of those up to the first that has reports if it fails on errors
(`program_writes_prefix`).
-/
namespace Folio

/-! ## Files that can be written -/

/-- The outputs of files with these paths find their places: the tree takes a file under each output path, and none of
them leads to a place that another one, or itself, leads through. -/
@[mk_iff] structure Writable (out root : Path) (t : FileTree) (ps : List Path) : Prop where
  takes : ∀ p ∈ ps, t.Takes (outputPath out root p)
  apart : ∀ p ∈ ps, ∀ p' ∈ ps,
    t.landing (outputPath out root p') ∉ FileTree.through t.home (outputPath out root p).parts

instance (out root : Path) (t : FileTree) (ps : List Path) : Decidable (Writable out root t ps) :=
  decidable_of_iff' _ (writable_iff out root t ps)

section
variable {out root : Path}

/-- A file is written under a path that the tree takes; new directories are only where the path leads through. -/
theorem writeFile_of_takes {t : FileTree} {f : ContentFile} (h : t.Takes (outputPath out root f.path))
    (hself : t.landing (outputPath out root f.path) ∉ FileTree.through t.home (outputPath out root f.path).parts) :
    ∃ t', writeFile out root t f = (t', none) ∧ ∀ q, t'.node? q = some .directory →
      t.node? q = some .directory ∨ q ∈ FileTree.through t.home (outputPath out root f.path).parts := by
  unfold writeFile
  dsimp only
  cases habove : (outputPath out root f.path).parent? with
  | none =>
    have hopens : t.Opens t (outputPath out root f.path).parts.dropLast := by
      rw [Path.dropLast_parts_of_parent?_eq_none habove]
      exact .refl t
    obtain ⟨t', hwrite, hdirectories⟩ := h.write_of_opens hself hopens (f.contents.octets?.getD [])
    dsimp only [Option.map_none]
    rw [hwrite]
    exact ⟨t', rfl, hdirectories⟩
  | some above =>
    have hisAbove := Path.isAbove_of_parent? habove
    obtain ⟨t₁, hmade, hopens⟩ := FileTree.ensureDirectory_opens (h.fits.of_isPrefix hisAbove.front) hisAbove.trimmed
      (by rw [hisAbove.parts]; exact h.way)
    rw [hisAbove.parts] at hopens
    obtain ⟨t', hwrite, hdirectories⟩ := h.write_of_opens hself hopens (f.contents.octets?.getD [])
    dsimp only [Option.map_some]
    rw [hmade]
    dsimp only
    rw [hwrite]
    exact ⟨t', rfl, hdirectories⟩

/-- Outputs find their places as before when one of them is written. -/
theorem Writable.after {t t' : FileTree} {ps : List Path} (h : Writable out root t ps) {p : Path} (hp : p ∈ ps)
    {contents : Bytes} (hwrites : t.Writes t' (t.landing (outputPath out root p)) contents)
    (hdirectories : ∀ q, t'.node? q = some .directory →
      t.node? q = some .directory ∨ q ∈ FileTree.through t.home (outputPath out root p).parts) :
    Writable out root t' ps where
  takes p' hp' := by
    have htakes := h.takes p' hp'
    refine ⟨htakes.fits, htakes.named, fun q hq => FileTree.clear_iff.2 fun held hheld => ?_, fun hdirectory => ?_⟩
    · rw [hwrites.home] at hq
      have hne : q ≠ t.landing (outputPath out root p) := fun heq => h.apart p' hp' p hp (heq ▸ hq)
      exact FileTree.clear_iff.1 (htakes.way q hq) held (hwrites.files q held hne hheld)
    · rw [hwrites.grows.landing_eq] at hdirectory
      exact (hdirectories _ hdirectory).elim htakes.target (h.apart p hp p' hp')
  apart p₁ hp₁ p₂ hp₂ := by
    rw [hwrites.grows.landing_eq, hwrites.home]
    exact h.apart p₁ hp₁ p₂ hp₂

/-- **Files whose outputs find their places are written**, in any order and however often. -/
theorem Writable.writeFiles {ps : List Path} : ∀ {fs : List ContentFile} {t : FileTree}, Writable out root t ps →
    (∀ f ∈ fs, f.path ∈ ps) → ∃ t', writeFiles out root t fs = (t', none)
  | [], t, _, _ => ⟨t, rfl⟩
  | f :: fs, t, h, hfs => by
    have hf := hfs f List.mem_cons_self
    obtain ⟨t', hwrite, hdirectories⟩ := writeFile_of_takes (h.takes _ hf) (h.apart _ hf _ hf)
    rw [writeFiles_cons fs hwrite]
    rcases writeFile_cases out root t f with ⟨t'', hwrite', hwrites, -⟩ | ⟨t'', message, hwrite', -⟩
    · obtain rfl : t' = t'' := congrArg Prod.fst (hwrite.symm.trans hwrite')
      exact (h.after hf hwrites hdirectories).writeFiles fun g hg => hfs g (List.mem_cons_of_mem _ hg)
    · cases hwrite.symm.trans hwrite'

/-- Some files were written, each to its output path, and no other file was made, changed or removed. -/
structure FileTree.Receives (t t' : FileTree) (out root : Path) (fs : List ContentFile) : Prop where
  written : ∀ f ∈ fs, t'.read (outputPath out root f.path) = .ok f.written
  elsewhere : ∀ q, (∀ f ∈ fs, q ≠ t.landing (outputPath out root f.path)) → ∀ held,
    t'.node? q = some (.file held) ↔ t.node? q = some (.file held)

/-- A file stays as it is where no output is written. -/
theorem file_of_writeFiles {q : Place} {held : Bytes} {t' : FileTree} : ∀ {fs : List ContentFile} {t : FileTree},
    writeFiles out root t fs = (t', none) → (∀ f ∈ fs, q ≠ t.landing (outputPath out root f.path)) →
      t.node? q = some (.file held) → t'.node? q = some (.file held)
  | [], t, h, _, hq => by
    obtain rfl : t = t' := congrArg Prod.fst h
    exact hq
  | f :: fs, t, h, hplaces, hq => by
    obtain ⟨t₁, hrest, hwrites, -⟩ := of_writeFiles_cons h
    refine file_of_writeFiles hrest (fun g hg => ?_) (hwrites.elsewhere q _ (hplaces f List.mem_cons_self) hq)
    rw [hwrites.grows.landing_eq]
    exact hplaces g (List.mem_cons_of_mem _ hg)

theorem receives_of_writeFiles {t t' : FileTree} {fs : List ContentFile} (h : writeFiles out root t fs = (t', none))
    (hplaces : (fs.map fun f => t.landing (outputPath out root f.path)).Nodup) : t.Receives t' out root fs where
  written f hf := by
    obtain ⟨front, back, rfl⟩ := List.append_of_mem hf
    rw [read_of_writeFiles h, lastAt_eq_self]
    intro g hg heq
    rw [List.map_append, List.map_cons] at hplaces
    exact (List.nodup_cons.1 (List.Nodup.of_append_right hplaces)).1 (heq ▸ List.mem_map_of_mem hg)
  elsewhere q hq held := by
    refine ⟨fun hheld => ?_, file_of_writeFiles h hq⟩
    have hnew := (writeFiles_new out root fs t).2 q held
    rw [h] at hnew
    rcases hnew hheld with hold | ⟨f, hf, heq⟩
    · exact hold
    · exact absurd heq (hq f hf)

end

/-! ## What is shown -/

theorem Report.line_eq (r : Report) :
    r.line = (r.path.elim "" fun p => p.text ++ ": ") ++ "[pagesmith] " ++ r.message ++ "\n" := by
  have hsign : "[" ++ plugin ++ "] " = "[pagesmith] " := rfl
  unfold line shown
  rw [hsign]
  cases r.path with
  | none => simp only [Option.elim_none, String.empty_append]
  | some p => simp only [Option.elim_some, String.append_assoc]

theorem Summary.line_eq (ts : List Transformed) :
    (ts.foldl record .empty).line =
      toString (ts.countP (·.status = .rendered)) ++ " rendered, " ++
      toString (ts.countP (·.status = .passedThrough)) ++ " passed through, " ++
      toString (ts.countP (·.status = .failed)) ++ " failed, " ++
      toString (ts.countP (·.status = .dropped)) ++ " dropped, " ++
      toString (ts.flatMap (·.reports)).length ++ " error(s)\n" := by
  have hcounts := count_foldl_record_empty ts
  have hreports : (ts.foldl record .empty).reports = ts.flatMap (·.reports) := reports_foldl_record ts .empty
  unfold line
  rw [← hcounts .rendered, ← hcounts .passedThrough, ← hcounts .failed, ← hcounts .dropped, ← hreports]
  rfl

/-! ## Files that are handed over -/

theorem readFiles_of_forall₂ {t : FileTree} {times : Calendar.Moment} {ps : List Path} {files : List ContentFile}
    (h : List.Forall₂ (fun p f => ContentFile.read t times p = .ok f) ps files) : readFiles t times ps = .ok files := by
  induction h with
  | nil => rfl
  | cons hread _ ih =>
    unfold readFiles
    rw [hread, ih]
    rfl

/-- Files are not read if one of them cannot be, wherever it stands. -/
theorem readFiles_of_unreadable {t : FileTree} {times : Calendar.Moment} {p : Path} {f : Failure}
    (hf : ContentFile.read t times p = .error f) : ∀ {ps : List Path}, p ∈ ps →
      ∃ message, readFiles t times ps = .error message
  | q :: ps, hp => by
    unfold readFiles
    cases hq : ContentFile.read t times q with
    | error g => exact ⟨_, rfl⟩
    | ok file =>
      have hps : p ∈ ps := (List.mem_cons.1 hp).resolve_left fun heq => by
        rw [heq, hq] at hf
        cases hf
      obtain ⟨message, hmessage⟩ := readFiles_of_unreadable hf hps
      exact ⟨message, by rw [hmessage]; rfl⟩

section
variable {ts : List Transformed} {gs : List ContentFile}

theorem outputs_eq (h : ts.map (·.file) = gs.map some) : outputs ts = gs := by
  have houtputs : outputs ts = (ts.map (·.file)).flatMap Option.toList := (List.flatMap_map ..).symm
  rw [houtputs, h, List.flatMap_map]
  exact List.flatMap_singleton' gs

theorem outputs_take_eq (h : ts.map (·.file) = gs.map some) (n : Nat) : outputs (ts.take n) = gs.take n :=
  outputs_eq (by rw [List.map_take, h, List.map_take])

end

/-- Files that were read are all handed back, under their paths. -/
theorem Config.exists_left (c : Config) {t : FileTree} {now : Calendar.Moment} : ∀ {ps : List Path}
    {files : List ContentFile}, List.Forall₂ (fun p f => ContentFile.read t now p = .ok f) ps files →
      ∃ gs : List ContentFile, gs.map (·.path) = ps ∧ (files.map (c.alone t now)).map (·.file) = gs.map some
  | _, _, .nil => ⟨[], rfl, rfl⟩
  | p :: _, f :: _, .cons hread hreads => by
    obtain ⟨g, hg, hkeeps⟩ := transform_keeps (c.environment t now).render c.globals c.htmlExtensions
      (ContentFile.ne_stream_of_read hread) RunSession.start
    obtain ⟨gs, hpaths, hgs⟩ := c.exists_left hreads
    refine ⟨g :: gs, ?_, ?_⟩
    · rw [List.map_cons, hpaths, (hkeeps.stems hread).path]
    · rw [List.map_cons, List.map_cons, List.map_cons, hgs]
      exact congrArg (· :: _) hg

section
variable (c : Config) (t : FileTree) (now : Calendar.Moment) {s : RunSession}

/-- A run that no report ends sums up the results that its files have by themselves. -/
theorem Config.run_of_clean (hs : s.Idle) {files : List ContentFile}
    (h : c.failOnError = false ∨ ∀ f ∈ files, (c.alone t now f).reports = []) :
    (c.run t now files s).1 = .ok ((files.map (c.alone t now)).foldl Summary.record .empty) := by
  have hresults := c.results_of_idle t now files hs
  have hlenient : (runFrom (c.process t now) false .empty files s).1 =
      .ok ((files.map (c.alone t now)).foldl Summary.record .empty) := by
    rw [runFrom_lenient, hresults]
  unfold run
  cases hfail : c.failOnError with
  | false => exact hlenient
  | true =>
    have hclean : ∀ r ∈ (results (c.process t now) files s).1, r.reports = [] := by
      rw [hresults]
      exact List.forall_mem_map.2 (h.resolve_left (by simp [hfail]))
    rw [runFrom_of_clean _ files .empty s hclean]
    exact hlenient

/-- A run that fails on errors ends with the first of its files that has reports by itself. -/
theorem Config.run_of_first (hs : s.Idle) (hfail : c.failOnError = true) {front back : List ContentFile} {f : ContentFile}
    (hf : (c.alone t now f).reports ≠ []) (hfront : ∀ g ∈ front, (c.alone t now g).reports = []) :
    (c.run t now (front ++ f :: back) s).1 =
      .error ⟨f.path, (c.alone t now f).reports, (c.alone t now f).file, outputs (front.map (c.alone t now))⟩ := by
  have hresults := c.results_of_idle t now (front ++ f :: back) hs
  have hfile : (front ++ f :: back)[front.length]? = some f := by simp
  have hresult : (results (c.process t now) (front ++ f :: back) s).1[front.length]? = some (c.alone t now f) := by
    rw [hresults]
    simp
  have hlt : ∀ i < front.length, ∀ r, (results (c.process t now) (front ++ f :: back) s).1[i]? = some r →
      r.reports = [] := by
    intro i hi r hr
    rw [hresults, List.map_append, List.getElem?_append_left (by simpa using hi), List.getElem?_map] at hr
    obtain ⟨g, hg, rfl⟩ := Option.map_eq_some_iff.1 hr
    exact hfront g (List.mem_of_getElem? hg)
  unfold run
  rw [hfail, runFrom_of_first (c.process t now) .empty hfile hresult hf hlt, hresults]
  simp [Summary.empty]

variable {gs : List ContentFile}

theorem Config.delivery_of_clean (hs : s.Idle) {files : List ContentFile}
    (h : c.failOnError = false ∨ ∀ f ∈ files, (c.alone t now f).reports = [])
    (hgs : (files.map (c.alone t now)).map (·.file) = gs.map some) :
    Delivery.ofRun true (c.run t now files s).1 =
      ⟨gs, String.join (((files.map (c.alone t now)).flatMap (·.reports)).map Report.line) ++
        ((files.map (c.alone t now)).foldl Summary.record .empty).line, 0⟩ := by
  rw [c.run_of_clean t now hs h, Delivery.ofRun, files_foldl_record, reports_foldl_record, outputs_eq hgs]
  rfl

/-- The files of a run that was aborted are those before the abort point and the one at it. -/
theorem Config.delivery_of_first (hs : s.Idle) (hfail : c.failOnError = true) {front back : List ContentFile}
    {f : ContentFile} (hf : (c.alone t now f).reports ≠ []) (hfront : ∀ g ∈ front, (c.alone t now g).reports = [])
    (hgs : ((front ++ f :: back).map (c.alone t now)).map (·.file) = gs.map some) :
    Delivery.ofRun true (c.run t now (front ++ f :: back) s).1 =
      ⟨gs.take (front.length + 1), String.join ((c.alone t now f).reports.map Report.line) ++
        "aborted at " ++ f.path.text ++ "\n", 1⟩ := by
  have htake : outputs (front.map (c.alone t now)) ++ (c.alone t now f).file.toList = gs.take (front.length + 1) := by
    rw [← outputs_take_eq hgs, ← List.map_take, List.take_length_add_append]
    simp [outputs]
  rw [c.run_of_first t now hs hfail hf hfront, Delivery.ofRun, htake]

end

/-! ## Command lines -/

section
variable {a : Arguments} {t : FileTree} {workingDirectory : Path} {now : Calendar.Moment}

/-- Settings that cannot be loaded or a file that cannot be read end a command line before anything is written. -/
theorem Arguments.run_of_unread
    (h : (∃ message, a.settings t = .error message) ∨ ∃ p ∈ a.files, ∃ f, ContentFile.read t now p = .error f) :
    ∃ message, a.run t workingDirectory now = .failure t message := by
  unfold run
  split
  · exact ⟨_, rfl⟩
  cases hs : a.settings t with
  | error message => exact ⟨message, rfl⟩
  | ok s =>
    obtain ⟨p, hp, f, hf⟩ := h.resolve_left (by simp [hs])
    obtain ⟨message, hmessage⟩ := readFiles_of_unreadable hf hp
    dsimp only
    rw [hmessage]
    exact ⟨message, rfl⟩

/-- What a run hands over is written if its files are some of the first of the command line, which can be written. -/
theorem Arguments.run_receives {out : Path} {s : Settings} {files gs : List ContentFile} {messages : String} {code : Nat}
    (hout : a.out = some out) (hs : a.settings t = .ok s) (hfiles : readFiles t now a.files = .ok files)
    (hwritable : Writable out (s.config workingDirectory).root t a.files)
    (hplaces : (a.files.map fun p => t.landing (outputPath out (s.config workingDirectory).root p)).Nodup)
    (hgs : gs.map (·.path) <+: a.files)
    (hd : Delivery.ofRun true ((s.config workingDirectory).run t now files .start).1 = ⟨gs, messages, code⟩) :
    ∃ t', a.run t workingDirectory now = ⟨code, [], messages, t'⟩ ∧
      t.Receives t' out (s.config workingDirectory).root gs := by
  obtain ⟨t', hwritten⟩ := hwritable.writeFiles fun g hg => hgs.subset (List.mem_map_of_mem hg)
  refine ⟨t', ?_, receives_of_writeFiles hwritten ?_⟩
  · unfold run
    rw [hout, hs]
    simp only [Option.isNone_some, Bool.false_and, Bool.false_eq_true, ↓reduceIte, hfiles, Option.isSome_some]
    rw [hd]
    dsimp only
    rw [hwritten]
  · have hsublist := (hgs.sublist.map fun p => t.landing (outputPath out (s.config workingDirectory).root p)).nodup hplaces
    rwa [List.map_map] at hsublist

end

/-- **A command line writes the outputs of its files up to the first error.**  With an output directory, it ends with code 1
and leaves the tree as it was if its settings cannot be loaded or one of its files cannot be read.  Otherwise let `gs` be
the files as they are left by their transformation, and let their outputs find their places and lead to different ones.
If the run does not fail on errors, or no file has reports, it ends with code 0, all of `gs` are written, and all reports
are shown, each on a line behind its path, and a line with the counts.  If it does and `f` is the first file that has
reports, it ends with code 1, what was made of `f` and of the files before it is written and nothing of those behind it,
and the reports of `f` are shown and no others. -/
theorem program_writes_prefix {args : List Bytes} {a : Arguments} {out : Path}
    (hread : CommandLine.read args = .ok (.render a)) (hout : a.out = some out) (t : FileTree) (workingDirectory : Path)
    (now : Calendar.Moment) :
    let outcome := program args t workingDirectory now
    let printed := fun rs : List Report => String.join (rs.map fun r =>
      (r.path.elim "" fun p => p.text ++ ": ") ++ "[pagesmith] " ++ r.message ++ "\n")
    ((∃ message, a.settings t = .error message) ∨ (∃ p ∈ a.files, ∃ f, ContentFile.read t now p = .error f) →
      outcome.code = 1 ∧ outcome.output = [] ∧ outcome.tree = t) ∧
    ∀ s files, a.settings t = .ok s → List.Forall₂ (fun p f => ContentFile.read t now p = .ok f) a.files files →
      let c := s.config workingDirectory
      let ts := files.map (c.alone t now)
      ∃ gs : List ContentFile, gs.map (·.path) = a.files ∧ ts.map (·.file) = gs.map some ∧
        (Writable out c.root t a.files → (a.files.map fun p => t.landing (outputPath out c.root p)).Nodup →
          (c.failOnError = false ∨ (∀ f ∈ files, (c.alone t now f).reports = []) →
            outcome.code = 0 ∧ outcome.output = [] ∧ t.Receives outcome.tree out c.root gs ∧
            outcome.messages = printed (ts.flatMap (·.reports)) ++
              (toString (ts.countP (·.status = .rendered)) ++ " rendered, " ++
                toString (ts.countP (·.status = .passedThrough)) ++ " passed through, " ++
                toString (ts.countP (·.status = .failed)) ++ " failed, " ++
                toString (ts.countP (·.status = .dropped)) ++ " dropped, " ++
                toString (ts.flatMap (·.reports)).length ++ " error(s)\n")) ∧
          ∀ front f back, c.failOnError = true → files = front ++ f :: back → (c.alone t now f).reports ≠ [] →
            (∀ g ∈ front, (c.alone t now g).reports = []) →
            outcome.code = 1 ∧ outcome.output = [] ∧
            t.Receives outcome.tree out c.root (gs.take (front.length + 1)) ∧
            (∀ g ∈ gs.drop (front.length + 1), ∀ held,
              outcome.tree.node? (t.landing (outputPath out c.root g.path)) = some (.file held) ↔
                t.node? (t.landing (outputPath out c.root g.path)) = some (.file held)) ∧
            outcome.messages = printed (c.alone t now f).reports ++ "aborted at " ++ f.path.text ++ "\n") := by
  intro outcome printed
  have hrun : outcome = a.run t workingDirectory now := by
    show program args t workingDirectory now = _
    unfold program
    rw [hread]
  have hprinted : ∀ rs : List Report, printed rs = String.join (rs.map Report.line) :=
    fun rs => congrArg String.join (List.map_congr_left fun r _ => r.line_eq.symm)
  refine ⟨fun h => ?_, fun s files hs hfiles => ?_⟩
  · obtain ⟨message, hmessage⟩ : ∃ message, a.run t workingDirectory now = .failure t message := Arguments.run_of_unread h
    rw [hrun, hmessage]
    exact ⟨rfl, rfl, rfl⟩
  intro c ts
  obtain ⟨gs, hpaths, hgs⟩ := c.exists_left hfiles
  refine ⟨gs, hpaths, hgs, fun hwritable hplaces => ?_⟩
  have hfilesRead := readFiles_of_forall₂ hfiles
  refine ⟨fun hclean => ?_, fun front f back hfail hsplit hf hfront => ?_⟩
  · obtain ⟨t', houtcome, hreceives⟩ := Arguments.run_receives hout hs hfilesRead hwritable hplaces
      (hpaths ▸ List.prefix_rfl) (c.delivery_of_clean t now Session.Idle.start hclean hgs)
    rw [hrun, houtcome, hprinted, ← Summary.line_eq]
    exact ⟨rfl, rfl, hreceives, rfl⟩
  · subst hsplit
    have hfirst : (gs.take (front.length + 1)).map (·.path) <+: a.files := by
      rw [List.map_take, hpaths]
      exact List.take_prefix _ _
    obtain ⟨t', houtcome, hreceives⟩ := Arguments.run_receives hout hs hfilesRead hwritable hplaces hfirst
      (c.delivery_of_first t now Session.Idle.start hfail hf hfront hgs)
    rw [hrun, houtcome, hprinted]
    refine ⟨rfl, rfl, hreceives, fun g hg held => hreceives.elsewhere _ (fun f hf => ?_) held, rfl⟩
    -- Files behind the abort point have other places than those up to it.
    rw [← hpaths, List.map_map, ← List.take_append_drop (front.length + 1) gs, List.map_append] at hplaces
    exact (List.nodup_append.1 hplaces).2.2 _ (List.mem_map_of_mem hf) _ (List.mem_map_of_mem hg) ∘ Eq.symm

/-- Three files, the second of which is no template. -/
def threeFiles : List Bytes × FileTree :=
  (["--fail", "--out", "dist", "a.html", "b.html", "c.md"].map Bytes.ofText,
   ⟨[([Bytes.ofText "a.html"], .file (Bytes.ofText "Hi\x7b# there #\x7d")),
     ([Bytes.ofText "b.html"], .file (Bytes.ofText "\x7b\x7b")),
     ([Bytes.ofText "c.md"], .file (Bytes.ofText "note"))], []⟩)

/-- The first is written as it was rendered and the second as it was read; the third is not written. -/
theorem program_writes_prefix_three_files :
    let t := threeFiles.2
    let outcome := program threeFiles.1 t (.ofText "/") ⟨0, 0, 0⟩
    let out : Path := .ofText "dist"
    let ps : List Path := [.ofText "a.html", .ofText "b.html", .ofText "c.md"]
    let root := (Settings.default.config (.ofText "/")).root
    Writable out root t ps ∧ (ps.map fun p => t.landing (outputPath out root p)).Nodup ∧ outcome.code = 1 ∧
    ∃ gs : List ContentFile, gs.map (·.path) = ps ∧ t.Receives outcome.tree out root (gs.take 2) ∧
      ∀ g ∈ gs.drop 2, ∀ held, outcome.tree.node? (t.landing (outputPath out root g.path)) = some (.file held) ↔
        t.node? (t.landing (outputPath out root g.path)) = some (.file held) := by
  intro t outcome out ps root
  let a : Arguments := ⟨none, [], [], none, some out, true, 0, ps⟩
  let s : Settings := { Settings.default with failOnError := true }
  let c := s.config (.ofText "/")
  let file (p : Path) (octets : Bytes) : ContentFile :=
    ⟨p, .buffer octets, some [], { FileStat.at ⟨0, 0, 0⟩ with size := octets.length }⟩
  let first := file (.ofText "a.html") (Bytes.ofText "Hi\x7b# there #\x7d")
  let second := file (.ofText "b.html") (Bytes.ofText "\x7b\x7b")
  let third := file (.ofText "c.md") (Bytes.ofText "note")
  have hread : CommandLine.read threeFiles.1 = .ok (.render a) := rfl
  have hsettings : a.settings t = .ok s := rfl
  have hfiles : List.Forall₂ (fun p f => ContentFile.read t ⟨0, 0, 0⟩ p = .ok f) ps [first, second, third] :=
    .cons rfl (.cons rfl (.cons rfl .nil))
  have hwritable : Writable out root t ps := by decide +kernel
  have hplaces : (ps.map fun p => t.landing (outputPath out root p)).Nodup := by decide +kernel
  have hfirst : (c.alone t ⟨0, 0, 0⟩ first).reports = [] := by decide +kernel
  have hsecond : (c.alone t ⟨0, 0, 0⟩ second).reports ≠ [] := by decide +kernel
  obtain ⟨-, hwrites⟩ := program_writes_prefix hread rfl t (.ofText "/") ⟨0, 0, 0⟩
  obtain ⟨gs, hpaths, -, hgs⟩ := hwrites s _ hsettings hfiles
  obtain ⟨hcode, -, hreceives, hlater, -⟩ :=
    (hgs hwritable hplaces).2 [first] second [third] rfl rfl hsecond (List.forall_mem_singleton.2 hfirst)
  exact ⟨hwritable, hplaces, hcode, gs, hpaths, hreceives, hlater⟩

end Folio
