import Folio.Proofs.Outputs.Delivery
/-!
# Where outputs are written

The output path of a file is a directory joined with what is kept of the file's path: what lies below the root, all of a
relative path elsewhere, and the name alone of an absolute one (`keptPath_cases`).  It lies inside of the directory,
whichever that is, exactly if what is kept has nowhere more `..` than names before it, and more names in all
(`keptPath_stays_iff`).  If this is so for all its files, the files that a command line has made or changed are below the
place of the directory.
-/
namespace Folio

open Path (Part StaysBelow)

/-- What is kept of a path below the output directory. -/
def keptPath (root p : Path) : Path :=
  match p.below? root with
  | some rest => rest
  | none => if p.isAbsolute then (p.fileName?.map Path.mk).getD p else p

theorem outputPath_eq (out root p : Path) : outputPath out root p = out.join (keptPath root p) := rfl

theorem Path.parts_mk_name {n : Bytes} (h : IsPlain n) : (⟨n⟩ : Path).parts = [.name n] := by
  have hstretches : stretches n = [n] := stretches_of_not_mem h.whole
  rw [parts_eq, opening_eq_nil hstretches h.nonempty h.ne_here, inner, hstretches]
  simp [h.partOfSegment_eq]

theorem Path.isPlain_of_fileName? {p : Path} {n : Bytes} (h : p.fileName? = some n) : IsPlain n := by
  unfold fileName? at h
  split at h
  · rename_i m hlast
    obtain rfl := Option.some.inj h
    exact isPlain_of_mem_parts (List.mem_of_getLast? hlast)
  · cases h

theorem below?_eq_none_iff {root p : Path} : p.below? root = none ↔ ¬ root.parts <+: p.parts := by
  unfold Path.below?
  dsimp only
  rw [← List.isPrefixOf_iff_prefix]
  split
  · rename_i hbegins
    simp only [hbegins, not_true_eq_false, iff_false]
    split <;> simp
  · rename_i hbegins
    simp [hbegins]

/-- **What is kept of a path**, by where the path lies. -/
theorem keptPath_cases (root p : Path) :
    p.parts = root.parts ++ (keptPath root p).parts ∨
    (¬ root.parts <+: p.parts ∧ ¬ p.isAbsolute = true ∧ keptPath root p = p) ∨
    (¬ root.parts <+: p.parts ∧ p.isAbsolute = true ∧
      ((∃ n, p.fileName? = some n ∧ (keptPath root p).parts = [.name n]) ∨
       (p.fileName? = none ∧ keptPath root p = p))) := by
  unfold keptPath
  cases hbelow : p.below? root with
  | some rest => exact Or.inl (Path.parts_of_below? hbelow)
  | none =>
    have hbegins := below?_eq_none_iff.1 hbelow
    by_cases habs : p.isAbsolute = true
    · refine Or.inr (Or.inr ⟨hbegins, habs, ?_⟩)
      simp only [if_pos habs]
      cases hname : p.fileName? with
      | none => exact Or.inr ⟨rfl, rfl⟩
      | some n => exact Or.inl ⟨n, rfl, Path.parts_mk_name (Path.isPlain_of_fileName? hname)⟩
    · exact Or.inr (Or.inl ⟨hbegins, habs, by simp [habs]⟩)

theorem not_staysBelow_of_isAbsolute {p : Path} (h : p.isAbsolute = true) : ¬ StaysBelow p.parts :=
  fun hstays => hstays.rootless (Path.root_mem_parts_iff.2 h)

theorem keptPath_stays_iff (root p : Path) :
    (StaysBelow (keptPath root p).parts ∧
      (keptPath root p).parts.count .up < (keptPath root p).parts.countP Part.isName) ↔
    (∃ rest, p.parts = root.parts ++ rest ∧ StaysBelow rest ∧ rest.count .up < rest.countP Part.isName) ∨
    (¬ root.parts <+: p.parts ∧ ¬ p.isAbsolute = true ∧ StaysBelow p.parts ∧
      p.parts.count .up < p.parts.countP Part.isName) ∨
    (¬ root.parts <+: p.parts ∧ p.isAbsolute = true ∧ p.fileName?.isSome = true) := by
  rcases keptPath_cases root p with hparts | ⟨hbegins, habs, hkept⟩ | ⟨hbegins, habs, ⟨n, hname, hkept⟩ | ⟨hname, hkept⟩⟩
  · have hbegins : root.parts <+: p.parts := ⟨_, hparts.symm⟩
    constructor
    · intro hstays
      exact Or.inl ⟨_, hparts, hstays⟩
    · rintro (⟨rest, hrest, hstays⟩ | ⟨hno, -⟩ | ⟨hno, -⟩)
      · rw [hparts] at hrest
        rwa [List.append_cancel_left hrest]
      · exact absurd hbegins hno
      · exact absurd hbegins hno
  · rw [hkept]
    constructor
    · intro hstays
      exact Or.inr (Or.inl ⟨hbegins, habs, hstays⟩)
    · rintro (⟨rest, hrest, -⟩ | ⟨-, -, hstays⟩ | ⟨-, hno, -⟩)
      · exact absurd ⟨rest, hrest.symm⟩ hbegins
      · exact hstays
      · exact absurd hno habs
  · have hstays : StaysBelow [.name n] := Path.exists_foldlM_climb_iff.1 ⟨[n], rfl⟩
    rw [hkept]
    constructor
    · intro _
      exact Or.inr (Or.inr ⟨hbegins, habs, by simp [hname]⟩)
    · intro _
      exact ⟨hstays, by simp [Part.isName]⟩
  · rw [hkept]
    constructor
    · rintro ⟨hstays, -⟩
      exact absurd hstays (not_staysBelow_of_isAbsolute habs)
    · rintro (⟨rest, hrest, -⟩ | ⟨-, hno, -⟩ | ⟨-, -, hsome⟩)
      · exact absurd ⟨rest, hrest.symm⟩ hbegins
      · exact absurd habs hno
      · rw [hname] at hsome
        cases hsome

theorem Config.mem_paths_of_handed {c : Config} {t : FileTree} {now : Calendar.Moment} {ps : List Path}
    {files : List ContentFile} {s : RunSession} {sumsUp : Bool} (hread : readFiles t now ps = .ok files)
    {g : ContentFile} (hg : g ∈ (Delivery.ofRun sumsUp (c.run t now files s).1).files) : g.path ∈ ps := by
  have hpaths : files.map (·.path) = ps := by
    have hstems : List.Forall₂ (fun p f => f.Stems t c.htmlExtensions p) ps files :=
      (readFiles_forall₂ hread).imp fun p f hf => ContentFile.Keeps.stems ⟨rfl, fun _ => rfl⟩ hf
    exact paths_of_stems hstems
  rcases ofRun_paths (c.process_file_path t now) g hg with hmem | hmem
  · cases hmem
  · rwa [hpaths] at hmem

/-- **Outputs lie inside of their directory exactly if what is kept of their paths stays below.**  The output path of a
file lies inside of the output directory, whichever that is, if and only if the file lies below the root by parts that
stay below it and leave a name, or is given elsewhere by a relative path that does so, or by an absolute one that has a
name.  If the output paths of all its files lie inside, every file that a command line has made or changed lies below the
place of the directory. -/
theorem outputPath_inside_iff (root : Path) :
    (∀ p : Path, (∀ out, (outputPath out root p).Inside out) ↔
      (∃ rest, p.parts = root.parts ++ rest ∧ StaysBelow rest ∧ rest.count .up < rest.countP Part.isName) ∨
      (¬ root.parts <+: p.parts ∧ ¬ p.isAbsolute = true ∧ StaysBelow p.parts ∧
        p.parts.count .up < p.parts.countP Part.isName) ∨
      (¬ root.parts <+: p.parts ∧ p.isAbsolute = true ∧ p.fileName?.isSome = true)) ∧
    ∀ (a : Arguments) (t : FileTree) (workingDirectory : Path) (now : Calendar.Moment) (out : Path) (s : Settings),
      a.out = some out → a.settings t = .ok s → (s.config workingDirectory).root = root →
      (∀ p ∈ a.files, (outputPath out root p).Inside out) →
      ∀ q held, (a.run t workingDirectory now).tree.node? q = some (.file held) →
        t.node? q = some (.file held) ∨ ∃ names, names ≠ [] ∧ q = t.landing out ++ names := by
  refine ⟨fun p => ?_, ?_⟩
  · rw [← keptPath_stays_iff, ← Path.inside_join_iff]
    exact Iff.rfl
  · intro a t workingDirectory now out s hout hsettings hroot hinside q held hq
    rcases a.run_cases t workingDirectory now with ⟨-, htree⟩ | ⟨s', files, d, hs', hfiles, rfl, -, hsome⟩
    · rw [htree] at hq
      exact Or.inl hq
    · obtain rfl : s = s' := by
        rw [hsettings] at hs'
        exact Except.ok.inj hs'
      rw [(hsome out hout).1, hroot] at hq
      rcases (writeFiles_new out _ _ t).2 q held hq with hold | ⟨g, hg, rfl⟩
      · exact Or.inl hold
      · exact Or.inr (t.landing_of_inside (hinside _ (Config.mem_paths_of_handed hfiles hg)))

/-- A page beside the root, given by way of the root, is written over by what it renders to. -/
theorem output_outside_by_climbing :
    let root : Path := .ofText "posts"
    let out : Path := .ofText "dist"
    let page : Path := .ofText "posts/../page.html"
    let place : Place := [Bytes.ofText "page.html"]
    let tree : FileTree :=
      ⟨[([Bytes.ofText "posts"], .directory), (place, .file (Bytes.ofText "Hi\x7b# there #\x7d"))], []⟩
    let outcome := Arguments.run ⟨none, [], [], some root, some out, false, 0, [page]⟩ tree (.ofText "/") ⟨0, 0, 0⟩
    ¬ (outputPath out root page).Inside out ∧ outcome.code = 0 ∧
    tree.node? place = some (.file (Bytes.ofText "Hi\x7b# there #\x7d")) ∧
    outcome.tree.node? place = some (.file (Bytes.ofText "Hi")) := by
  intro root out page place tree outcome
  refine ⟨?_, by decide +kernel, rfl, by decide +kernel⟩
  rintro ⟨names, hne, h⟩
  have hsettled : (outputPath out root page).settled = [.name (Bytes.ofText "page.html")] := rfl
  rw [hsettled, show out.settled = [.name (Bytes.ofText "dist")] from rfl, List.singleton_append, List.cons.injEq] at h
  exact absurd (Part.name.inj h.1) (by decide)

end Folio
