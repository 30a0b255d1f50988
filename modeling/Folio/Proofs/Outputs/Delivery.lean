import Mathlib.Data.List.Forall2
import Folio.Program
import Folio.Proofs.Runs.Conservation
import Folio.Proofs.Tree.Writing
/-!
# What a command line has written

The files that a run hands over stem from the files of its command line, one from each and in order (`run_stems`): they
keep the paths, and those that are no HTML keep the body that was read.  Each of them is written where its output path
leads, and nothing else is (`writeFile_cases`).  So all that becomes of the tree is said by `Arguments.run_cases`, and
what a command line that ends with code 0 has done by `Arguments.run_completed`.
-/
namespace Folio

/-! ## Reading -/

/-- A file in front of the transformation and behind it: same path, and same contents unless it is HTML. -/
structure ContentFile.Keeps (extensions : List String) (f g : ContentFile) : Prop where
  path : g.path = f.path
  contents : isHtml f.path extensions = false → g.contents = f.contents

theorem readFiles_forall₂ {t : FileTree} {times : Calendar.Moment} : ∀ {ps : List Path} {files : List ContentFile},
    readFiles t times ps = .ok files → List.Forall₂ (fun p f => ContentFile.read t times p = .ok f) ps files
  | [], files, h => by
    obtain rfl := Except.ok.inj h
    exact .nil
  | p :: ps, files, h => by
    unfold readFiles at h
    split at h
    · cases h
    rename_i f hf
    cases hrest : readFiles t times ps with
    | error message =>
      rw [hrest] at h
      cases h
    | ok rest =>
      rw [hrest] at h
      obtain rfl := Except.ok.inj h
      exact .cons hf (readFiles_forall₂ hrest)

/-- What became of a file of the tree: it keeps its path, and the body that was read unless it is HTML. -/
structure ContentFile.Stems (t : FileTree) (extensions : List String) (p : Path) (g : ContentFile) : Prop where
  path : g.path = p
  contents : ∃ octets, t.read p = .ok octets ∧ (isHtml p extensions = false →
    g.contents = .buffer (Bytes.ofText (FrontMatter.splitOctets octets).body))

theorem ContentFile.Keeps.stems {t : FileTree} {times : Calendar.Moment} {extensions : List String} {p : Path}
    {f g : ContentFile} (h : f.Keeps extensions g) (hread : ContentFile.read t times p = .ok f) :
    g.Stems t extensions p := by
  unfold ContentFile.read at hread
  split at hread
  · cases hread
  · rename_i octets hoctets
    obtain rfl := Except.ok.inj hread
    exact ⟨h.path, octets, hoctets, h.contents⟩

theorem paths_of_stems {t : FileTree} {extensions : List String} {ps : List Path} {out : List ContentFile}
    (h : List.Forall₂ (fun p g => g.Stems t extensions p) ps out) : out.map (·.path) = ps := by
  have hall : List.Forall₂ Eq (out.map (·.path)) ps :=
    List.forall₂_map_left_iff.2 (h.imp fun p g hg => hg.path).flip
  rwa [List.forall₂_eq_eq_eq] at hall

theorem ContentFile.ne_stream_of_read {t : FileTree} {times : Calendar.Moment} {p : Path} {f : ContentFile}
    (h : ContentFile.read t times p = .ok f) : f.contents ≠ .stream := by
  unfold ContentFile.read at h
  split at h
  · cases h
  · obtain rfl := Except.ok.inj h
    simp

/-! ## Runs -/

section
variable {ε : Type}

theorem transform_keeps (render : Renderer ε) (globals : Fields) (extensions : List String) {f : ContentFile}
    (hf : f.contents ≠ .stream) (s : Session ε) :
    ∃ g, (transform render globals extensions f s).1.file = some g ∧ f.Keeps extensions g := by
  rcases f.renderWith_cases render globals extensions s with
    ⟨hstream, -⟩ | ⟨-, -, hr⟩ | ⟨_, _, _, hpage, -, ⟨_, _, -, hr⟩ | ⟨_, _, -, hr⟩⟩
  · exact absurd hstream hf
  · rw [transform_of_renderWith hr]
    exact ⟨f, rfl, rfl, fun _ => rfl⟩
  · rw [transform_of_renderWith hr]
    refine ⟨_, rfl, rfl, fun hhtml => ?_⟩
    rw [hpage.html] at hhtml
    cases hhtml
  · rw [transform_of_renderWith hr]
    exact ⟨f, rfl, rfl, fun _ => rfl⟩

variable {process : Processing ε}

/-- **A completed run hands over what became of its files**, one for each if none is dropped. -/
theorem runFrom_ok_forall₂ {R : ContentFile → ContentFile → Prop} {failOnError : Bool} :
    ∀ {files : List ContentFile} {sum sum' : Summary} {s : Session ε},
      (∀ f ∈ files, ∀ s, ∃ g, (process f s).1.file = some g ∧ R f g) →
      (runFrom process failOnError sum files s).1 = .ok sum' →
        ∃ out, sum'.files = sum.files ++ out ∧ List.Forall₂ R files out
  | [], sum, sum', s, _, h => by
    obtain rfl : sum = sum' := Except.ok.inj h
    exact ⟨[], (List.append_nil _).symm, .nil⟩
  | f :: files, sum, sum', s, hR, h => by
    obtain ⟨g, hg, hfg⟩ := hR f List.mem_cons_self s
    unfold runFrom at h
    dsimp only at h
    split at h
    · cases h
    obtain ⟨out, hout, hall⟩ := runFrom_ok_forall₂ (fun f hf => hR f (List.mem_cons_of_mem _ hf)) h
    -- The summary so far ends with what became of the first file.
    refine ⟨g :: out, ?_, .cons hfg hall⟩
    rw [hout, Summary.record, hg]
    simp

theorem ofRun_paths {sumsUp failOnError : Bool}
    (hpath : ∀ f s, ∀ g, (process f s).1.file = some g → g.path = f.path) :
    ∀ {files : List ContentFile} {sum : Summary} {s : Session ε},
      ∀ g ∈ (Delivery.ofRun sumsUp (runFrom process failOnError sum files s).1).files,
        g ∈ sum.files ∨ g.path ∈ files.map (·.path)
  | [], sum, s, g, hg => Or.inl hg
  | f :: files, sum, s, g, hg => by
    unfold runFrom at hg
    dsimp only at hg
    split at hg
    · rcases List.mem_append.1 hg with hg | hg
      · exact Or.inl hg
      · exact Or.inr (by simp [hpath f s g (Option.mem_toList.1 hg)])
    · rcases ofRun_paths hpath g hg with hmem | hmem
      · rcases List.mem_append.1 hmem with hmem | hmem
        · exact Or.inl hmem
        · exact Or.inr (by simp [hpath f s g (Option.mem_toList.1 hmem)])
      · exact Or.inr (List.mem_cons_of_mem _ hmem)

end

theorem forall₂_stems {t : FileTree} {times : Calendar.Moment} {extensions : List String} :
    ∀ {ps : List Path} {files out : List ContentFile},
      List.Forall₂ (fun p f => ContentFile.read t times p = .ok f) ps files →
      List.Forall₂ (ContentFile.Keeps extensions) files out →
        List.Forall₂ (fun p g => g.Stems t extensions p) ps out
  | _, _, _, .nil, .nil => .nil
  | _, _, _, .cons hread hreads, .cons hkeeps hall => .cons (hkeeps.stems hread) (forall₂_stems hreads hall)

/-- **The files of a completed run stem from the files that were read**, one from each. -/
theorem Config.run_stems (c : Config) {t : FileTree} {now : Calendar.Moment} {ps : List Path} {files : List ContentFile}
    {sum : Summary} {s : RunSession} (hread : readFiles t now ps = .ok files) (hrun : (c.run t now files s).1 = .ok sum) :
    List.Forall₂ (fun p g => g.Stems t c.htmlExtensions p) ps sum.files := by
  have hreads := readFiles_forall₂ hread
  have hstream : ∀ f ∈ files, f.contents ≠ .stream := by
    intro f hf
    obtain ⟨i, hi, rfl⟩ := List.getElem_of_mem hf
    exact ContentFile.ne_stream_of_read (hreads.get (hreads.length_eq ▸ hi) hi)
  obtain ⟨out, hout, hall⟩ := runFrom_ok_forall₂ (fun f hf s =>
    transform_keeps (c.environment t now).render c.globals c.htmlExtensions (hstream f hf) s) hrun
  rw [Summary.empty, List.nil_append] at hout
  rw [hout]
  exact forall₂_stems hreads hall

theorem Config.process_file_path (c : Config) (t : FileTree) (now : Calendar.Moment) (f : ContentFile) (s : RunSession)
    (g : ContentFile) (h : (c.process t now f s).1.file = some g) : g.path = f.path := by
  have hpath := c.process_path t now f s
  rw [h] at hpath
  split at hpath
  · cases hpath
  · exact Option.some.inj hpath

/-! ## Writing -/

def ContentFile.written (f : ContentFile) : Bytes := f.contents.octets?.getD []

/-- A file is written after the directories above it are made, which may be refused. -/
theorem writeFile_eq (out root : Path) (t : FileTree) (f : ContentFile) :
    (∃ message, writeFile out root t f = (t, some message)) ∨
    ∃ t₁, t.Extends t₁ ∧ writeFile out root t f =
      match t₁.write (outputPath out root f.path) f.written with
      | .ok t₂ => (t₂, none)
      | .error denial =>
        (t₁, some ("writing " ++ (outputPath out root f.path).text ++ ": " ++ denial.message)) := by
  unfold writeFile
  dsimp only
  cases (outputPath out root f.path).parent? with
  | none => exact Or.inr ⟨t, .refl t, rfl⟩
  | some above =>
    rw [Option.map_some]
    cases hmade : t.ensureDirectory above with
    | error denial => exact Or.inl ⟨_, rfl⟩
    | ok t₁ => exact Or.inr ⟨t₁, FileTree.ensureDirectory_extends hmade, rfl⟩

/-- **All that writing one file does**: its contents come to be where its output path leads, or it is refused, and then
there are at most more directories. -/
theorem writeFile_cases (out root : Path) (t : FileTree) (f : ContentFile) :
    (∃ t', writeFile out root t f = (t', none) ∧
      t.Writes t' (t.landing (outputPath out root f.path)) f.written ∧
      t'.arrive (outputPath out root f.path) =
        .ok (.present (t.landing (outputPath out root f.path)) (.file f.written))) ∨
    ∃ t' message, writeFile out root t f = (t', some message) ∧ t.Extends t' := by
  rcases writeFile_eq out root t f with ⟨message, h⟩ | ⟨t₁, hextends, h⟩
  · exact Or.inr ⟨t, message, h, .refl t⟩
  rw [h]
  cases hw : t₁.write (outputPath out root f.path) f.written with
  | error denial => exact Or.inr ⟨t₁, _, rfl, hextends⟩
  | ok t₂ =>
    obtain ⟨hwrites, harrive⟩ := FileTree.write_writes hw
    have hlanding : t₁.landing (outputPath out root f.path) = t.landing (outputPath out root f.path) := by
      rw [FileTree.landing, FileTree.landing, hextends.home]
    rw [hlanding] at hwrites harrive
    exact Or.inl ⟨t₂, rfl, hwrites.after_extends hextends, harrive⟩

theorem writeFiles_cons {out root : Path} {t t' : FileTree} {f : ContentFile} (fs : List ContentFile)
    (h : writeFile out root t f = (t', none)) : writeFiles out root t (f :: fs) = writeFiles out root t' fs := by
  conv_lhs => unfold writeFiles
  rw [h]

theorem writeFiles_refused {out root : Path} {t t' : FileTree} {f : ContentFile} {message : String}
    (fs : List ContentFile) (h : writeFile out root t f = (t', some message)) :
    writeFiles out root t (f :: fs) = (t', some message) := by
  unfold writeFiles
  rw [h]

/-- **Files that a run has made or changed** are where output paths of its files lead. -/
theorem writeFiles_new (out root : Path) : ∀ (fs : List ContentFile) (t : FileTree),
    (writeFiles out root t fs).1.home = t.home ∧ ∀ q held, (writeFiles out root t fs).1.node? q = some (.file held) →
      t.node? q = some (.file held) ∨ ∃ f ∈ fs, q = t.landing (outputPath out root f.path)
  | [], t => ⟨rfl, fun _ _ h => Or.inl h⟩
  | f :: fs, t => by
    rcases writeFile_cases out root t f with ⟨t', h, hwrites, -⟩ | ⟨t', message, h, hextends⟩
    · obtain ⟨hhome, hnew⟩ := writeFiles_new out root fs t'
      rw [writeFiles_cons fs h]
      refine ⟨hhome.trans hwrites.home, fun q held hq => ?_⟩
      rcases hnew q held hq with hq | ⟨g, hg, rfl⟩
      · by_cases hplace : q = t.landing (outputPath out root f.path)
        · exact Or.inr ⟨f, List.mem_cons_self, hplace⟩
        · exact Or.inl (hwrites.files q held hplace hq)
      · exact Or.inr ⟨g, List.mem_cons_of_mem _ hg, by rw [hwrites.grows.landing_eq]⟩
    · rw [writeFiles_refused fs h]
      exact ⟨hextends.home, fun q held hq => Or.inl (hextends.files q held hq)⟩

/-! ## Command lines -/

/-- **All that a command line does to the tree**: nothing, or its run writes what it hands over.  It ends with code 0 only
if the run was completed and all of that could be written. -/
theorem Arguments.run_cases (a : Arguments) (t : FileTree) (workingDirectory : Path) (now : Calendar.Moment) :
    ((a.run t workingDirectory now).code ≠ 0 ∧ (a.run t workingDirectory now).tree = t) ∨
    ∃ s files d, a.settings t = .ok s ∧ readFiles t now a.files = .ok files ∧
      d = Delivery.ofRun a.out.isSome ((s.config workingDirectory).run t now files .start).1 ∧
      (a.out = none → a.files.length ≤ 1 ∧
        a.run t workingDirectory now = ⟨d.code, d.files.flatMap ContentFile.written, d.messages, t⟩) ∧
      ∀ out, a.out = some out →
        (a.run t workingDirectory now).tree = (writeFiles out (s.config workingDirectory).root t d.files).1 ∧
        ((a.run t workingDirectory now).code = 0 →
          d.code = 0 ∧ (writeFiles out (s.config workingDirectory).root t d.files).2 = none) := by
  unfold run
  split
  · exact Or.inl ⟨Nat.one_ne_zero, rfl⟩
  rename_i hout
  cases hsettings : a.settings t with
  | error message => exact Or.inl ⟨Nat.one_ne_zero, rfl⟩
  | ok s =>
    dsimp only
    cases hfiles : readFiles t now a.files with
    | error message => exact Or.inl ⟨Nat.one_ne_zero, rfl⟩
    | ok files =>
      refine Or.inr ⟨s, files, _, rfl, rfl, rfl, ?_, ?_⟩
      · intro hnone
        refine ⟨?_, by rw [hnone]; rfl⟩
        rw [hnone] at hout
        simpa using hout
      · intro out hsome
        rw [hsome]
        dsimp only
        rcases writeFiles out (s.config workingDirectory).root t
          (Delivery.ofRun _ ((s.config workingDirectory).run t now files .start).1).files with ⟨t', _ | message⟩
        · exact ⟨rfl, fun hcode => ⟨hcode, rfl⟩⟩
        · exact ⟨rfl, fun hcode => absurd hcode Nat.one_ne_zero⟩

theorem Delivery.ofRun_code {sumsUp : Bool} : ∀ {r : Except Aborted Summary}, (Delivery.ofRun sumsUp r).code = 0 →
    ∃ sum, r = .ok sum ∧ (Delivery.ofRun sumsUp r).files = sum.files
  | .ok sum, _ => ⟨sum, rfl, rfl⟩
  | .error _, h => by cases h

/-- **What a command line that ends with code 0 has done**: its run was completed with files that stem from those of the
command line, and they are its output, or were all written. -/
theorem Arguments.run_completed {a : Arguments} {t : FileTree} {workingDirectory : Path} {now : Calendar.Moment}
    (h : (a.run t workingDirectory now).code = 0) :
    ∃ s files sum, a.settings t = .ok s ∧ readFiles t now a.files = .ok files ∧
      ((s.config workingDirectory).run t now files .start).1 = .ok sum ∧
      List.Forall₂ (fun p g => g.Stems t (s.config workingDirectory).htmlExtensions p) a.files sum.files ∧
      (a.out = none → a.files.length ≤ 1 ∧
        (a.run t workingDirectory now).output = sum.files.flatMap ContentFile.written) ∧
      ∀ out, a.out = some out →
        writeFiles out (s.config workingDirectory).root t sum.files = ((a.run t workingDirectory now).tree, none) := by
  rcases a.run_cases t workingDirectory now with ⟨hcode, -⟩ | ⟨s, files, d, hs, hfiles, hd, hnone, hsome⟩
  · exact absurd h hcode
  have hdcode : d.code = 0 := by
    cases hout : a.out with
    | none =>
      rw [(hnone hout).2] at h
      exact h
    | some out => exact ((hsome out hout).2 h).1
  subst hd
  obtain ⟨sum, hrun, hsum⟩ := Delivery.ofRun_code hdcode
  rw [hsum] at hnone hsome
  refine ⟨s, files, sum, hs, hfiles, hrun, (s.config workingDirectory).run_stems hfiles hrun, fun hout => ?_,
    fun out hout => ?_⟩
  · obtain ⟨hone, houtcome⟩ := hnone hout
    rw [houtcome]
    exact ⟨hone, rfl⟩
  · obtain ⟨htree, hwritten⟩ := hsome out hout
    rw [htree, ← (hwritten h).2]

end Folio
