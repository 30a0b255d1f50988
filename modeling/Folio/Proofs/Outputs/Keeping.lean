import Folio.Proofs.Outputs.Placement
/-!
# Which outputs are kept

Files are written in order, so an output path leads at the end to the last file that was written where it leads
(`read_of_writeFiles`).  Outputs below one directory share its names: what is kept of a path does not say any more whether
the path lay below the root.  Among the files below the root, and among those given by relative paths elsewhere, different
files keep different places (`landing_eq_iff_of_sameSide`).
-/
namespace Folio

open Path (Part StaysBelow)

/-! ## Writing files one after the other -/

/-- The last of some files, written in this order, whose output path leads to a place; `f` if there is none. -/
def lastAt (t : FileTree) (out root : Path) (place : Place) (f : ContentFile) (fs : List ContentFile) : ContentFile :=
  (fs.filter fun g => t.landing (outputPath out root g.path) = place).getLastD f

section
variable {out root : Path} {t t' : FileTree} {f : ContentFile} {fs : List ContentFile}

theorem lastAt_cons (place : Place) (g : ContentFile) : lastAt t out root place f (g :: fs) =
    lastAt t out root place (if t.landing (outputPath out root g.path) = place then g else f) fs := by
  unfold lastAt
  by_cases h : t.landing (outputPath out root g.path) = place
  · rw [List.filter_cons_of_pos (by simpa using h), if_pos h, List.getLastD_cons]
  · rw [List.filter_cons_of_neg (by simpa using h), if_neg h]

theorem lastAt_eq_self {place : Place} (h : ∀ g ∈ fs, t.landing (outputPath out root g.path) ≠ place) :
    lastAt t out root place f fs = f := by
  have hnone : fs.filter (fun g => t.landing (outputPath out root g.path) = place) = [] := by simpa using h
  rw [lastAt, hnone, List.getLastD_nil]

theorem of_writeFiles_cons (h : writeFiles out root t (f :: fs) = (t', none)) :
    ∃ t₁, writeFiles out root t₁ fs = (t', none) ∧
      t.Writes t₁ (t.landing (outputPath out root f.path)) f.written ∧
      t₁.arrive (outputPath out root f.path) =
        .ok (.present (t.landing (outputPath out root f.path)) (.file f.written)) := by
  rcases writeFile_cases out root t f with ⟨t₁, hf, hwrites, harrive⟩ | ⟨t₁, message, hf, -⟩
  · rw [writeFiles_cons fs hf] at h
    exact ⟨t₁, h, hwrites, harrive⟩
  · rw [writeFiles_refused fs hf] at h
    cases h

/-- **A file that was written holds the last that is written to its place.** -/
theorem arrive_of_writeFiles {target : Path} {place : Place} : ∀ {fs : List ContentFile} {t : FileTree} {f : ContentFile},
    t.arrive target = .ok (.present place (.file f.written)) → writeFiles out root t fs = (t', none) →
      t'.arrive target = .ok (.present place (.file (lastAt t out root place f fs).written))
  | [], t, f, harrive, h => by
    obtain rfl : t = t' := congrArg Prod.fst h
    exact harrive
  | g :: fs, t, f, harrive, h => by
    obtain ⟨t₁, hrest, hwrites, -⟩ := of_writeFiles_cons h
    -- The target still leads to a file: to the one just written if it is at the same place.
    have hnode : t₁.node? place =
        some (.file (if t.landing (outputPath out root g.path) = place then g else f).written) := by
      by_cases hplace : t.landing (outputPath out root g.path) = place
      · rw [if_pos hplace, ← hplace]
        exact hwrites.here
      · rw [if_neg hplace]
        exact hwrites.elsewhere place _ (Ne.symm hplace) (FileTree.node?_of_arrive_file harrive)
    have hlast : ∀ f, lastAt t₁ out root place f fs = lastAt t out root place f fs := by
      intro f
      simp only [lastAt, hwrites.grows.landing_eq]
    rw [lastAt_cons, ← hlast]
    exact arrive_of_writeFiles (hwrites.grows.arrive_file harrive hnode) hrest

/-- Where files are written up to one of them, and that one is the next. -/
theorem of_writeFiles_append : ∀ {front : List ContentFile} {t : FileTree} {f : ContentFile} {back : List ContentFile},
    writeFiles out root t (front ++ f :: back) = (t', none) →
      ∃ t₁, t₁.home = t.home ∧ writeFiles out root t₁ back = (t', none) ∧
        t₁.arrive (outputPath out root f.path) =
          .ok (.present (t.landing (outputPath out root f.path)) (.file f.written))
  | [], t, f, back, h => by
    obtain ⟨t₁, hrest, hwrites, harrive⟩ := of_writeFiles_cons h
    exact ⟨t₁, hwrites.home, hrest, harrive⟩
  | g :: front, t, f, back, h => by
    obtain ⟨t₁, hrest, hwrites, -⟩ := of_writeFiles_cons h
    obtain ⟨t₂, hhome, hback, harrive⟩ := of_writeFiles_append hrest
    rw [hwrites.grows.landing_eq] at harrive
    exact ⟨t₂, hhome.trans hwrites.home, hback, harrive⟩

/-- **Each output path leads to the last file that was written there.** -/
theorem read_of_writeFiles {front back : List ContentFile} (h : writeFiles out root t (front ++ f :: back) = (t', none)) :
    t'.read (outputPath out root f.path) =
      .ok (lastAt t out root (t.landing (outputPath out root f.path)) f back).written := by
  obtain ⟨t₁, hhome, hback, harrive⟩ := of_writeFiles_append h
  have hfinal := arrive_of_writeFiles harrive hback
  rw [FileTree.read_eq_ok_iff, ← FileTree.arrive_place hfinal, hfinal]
  simp only [lastAt, FileTree.landing, hhome]
  rfl

end

/-! ## Places -/

section
variable {root p q : Path} {names : List Bytes}

theorem landing_outputPath (t : FileTree) (out : Path) (h : (keptPath root p).parts.foldlM Template.climb [] = some names) :
    t.landing (outputPath out root p) = t.landing out ++ names := by
  rw [outputPath_eq, FileTree.landing_join, FileTree.foldl_land_of_climb _ h]

/-- **Outputs have one place exactly if the same names are kept of them.** -/
theorem landing_outputPath_eq_iff (t : FileTree) (out : Path) (hp : StaysBelow (keptPath root p).parts)
    (hq : StaysBelow (keptPath root q).parts) :
    t.landing (outputPath out root p) = t.landing (outputPath out root q) ↔
      (keptPath root p).settled = (keptPath root q).settled := by
  obtain ⟨ns, hns⟩ := Path.exists_foldlM_climb_iff.2 hp
  obtain ⟨ms, hms⟩ := Path.exists_foldlM_climb_iff.2 hq
  have hinj : Function.Injective Part.name := fun _ _ h => Part.name.inj h
  rw [landing_outputPath t out hns, landing_outputPath t out hms, Path.settled_of_climb hns, Path.settled_of_climb hms,
    List.append_cancel_left_eq, (List.map_injective_iff.2 hinj).eq_iff]

/-- Both below the root, or both elsewhere and relative. -/
def SameSide (root p q : Path) : Prop :=
  (root.parts <+: p.parts ∧ root.parts <+: q.parts) ∨
  ((¬ root.parts <+: p.parts ∧ ¬ p.isAbsolute = true) ∧ (¬ root.parts <+: q.parts ∧ ¬ q.isAbsolute = true))

theorem landing_of_below (t : FileTree) (hbelow : root.parts <+: p.parts)
    (h : (keptPath root p).parts.foldlM Template.climb [] = some names) : t.landing p = t.landing root ++ names := by
  rcases keptPath_cases root p with hparts | ⟨helse, -⟩ | ⟨helse, -⟩
  · rw [FileTree.landing, hparts, List.foldl_append]
    exact FileTree.foldl_land_of_climb _ h
  · exact absurd hbelow helse
  · exact absurd hbelow helse

theorem landing_of_elsewhere (t : FileTree) (helse : ¬ root.parts <+: p.parts) (hrel : ¬ p.isAbsolute = true)
    (h : (keptPath root p).parts.foldlM Template.climb [] = some names) : t.landing p = t.home ++ names := by
  rcases keptPath_cases root p with hparts | ⟨-, -, hkept⟩ | ⟨-, habs, -⟩
  · exact absurd ⟨_, hparts.symm⟩ helse
  · rw [hkept] at h
    exact FileTree.foldl_land_of_climb _ h
  · exact absurd habs hrel

/-- **Different files on one side have different outputs.** -/
theorem landing_eq_iff_of_sameSide (t : FileTree) (hside : SameSide root p q) (hp : StaysBelow (keptPath root p).parts)
    (hq : StaysBelow (keptPath root q).parts) :
    t.landing p = t.landing q ↔ (keptPath root p).settled = (keptPath root q).settled := by
  obtain ⟨ns, hns⟩ := Path.exists_foldlM_climb_iff.2 hp
  obtain ⟨ms, hms⟩ := Path.exists_foldlM_climb_iff.2 hq
  have hinj : Function.Injective Part.name := fun _ _ h => Part.name.inj h
  rw [Path.settled_of_climb hns, Path.settled_of_climb hms, (List.map_injective_iff.2 hinj).eq_iff]
  rcases hside with ⟨hpb, hqb⟩ | ⟨⟨hpe, hpr⟩, ⟨hqe, hqr⟩⟩
  · rw [landing_of_below t hpb hns, landing_of_below t hqb hms, List.append_cancel_left_eq]
  · rw [landing_of_elsewhere t hpe hpr hns, landing_of_elsewhere t hqe hqr hms, List.append_cancel_left_eq]

end

/-- **Outputs are kept but where a later one leads to the same place.**  After a run with an output directory that ends
with code 0, the output path of each file of the summary leads to the contents of the last file of the summary whose
output path leads to the same place.  Two files of which names are kept that stay below have outputs at one place exactly
if these names are the same; on one side of the root they have so exactly if they are one file. -/
theorem Arguments.outputs_kept {a : Arguments} {t : FileTree} {workingDirectory : Path} {now : Calendar.Moment}
    {out : Path} (hout : a.out = some out) (hcode : (a.run t workingDirectory now).code = 0) :
    ∃ s files sum root, a.settings t = .ok s ∧ root = (s.config workingDirectory).root ∧
      readFiles t now a.files = .ok files ∧ ((s.config workingDirectory).run t now files .start).1 = .ok sum ∧
      sum.files.map (·.path) = a.files ∧
      (∀ front f back, sum.files = front ++ f :: back →
        (a.run t workingDirectory now).tree.read (outputPath out root f.path) =
          .ok (lastAt t out root (t.landing (outputPath out root f.path)) f back).written) ∧
      (∀ p ∈ a.files, ∃ contents, t.arrive p = .ok (.present (t.landing p) (.file contents))) ∧
      ∀ p ∈ a.files, ∀ q ∈ a.files, StaysBelow (keptPath root p).parts → StaysBelow (keptPath root q).parts →
        (t.landing (outputPath out root p) = t.landing (outputPath out root q) ↔
          (keptPath root p).settled = (keptPath root q).settled) ∧
        (SameSide root p q →
          (t.landing (outputPath out root p) = t.landing (outputPath out root q) ↔ t.landing p = t.landing q)) := by
  obtain ⟨s, files, sum, hs, hfiles, hrun, hstems, -, hsome⟩ := Arguments.run_completed hcode
  refine ⟨s, files, sum, _, hs, rfl, hfiles, hrun, paths_of_stems hstems, ?_, ?_, ?_⟩
  · intro front f back hsplit
    have hwritten := hsome out hout
    rw [hsplit] at hwritten
    exact read_of_writeFiles hwritten
  · intro p hp
    obtain ⟨i, hi, rfl⟩ := List.getElem_of_mem hp
    obtain ⟨octets, hread, -⟩ := (hstems.get hi (hstems.length_eq ▸ hi)).contents
    exact ⟨octets, FileTree.read_eq_ok_iff.1 hread⟩
  · intro p _ q _ hp hq
    have hplaces := landing_outputPath_eq_iff t out hp hq
    exact ⟨hplaces, fun hside => hplaces.trans (landing_eq_iff_of_sameSide t hside hp hq).symm⟩

/-- A file below the root and a file beside it, both with the same kept name. -/
def twoNotes : Arguments × FileTree :=
  (⟨none, [], [], some (.ofText "posts"), some (.ofText "dist"), false, 0, [.ofText "posts/a.md", .ofText "a.md"]⟩,
   ⟨[([Bytes.ofText "posts"], .directory),
     ([Bytes.ofText "posts", Bytes.ofText "a.md"], .file (Bytes.ofText "one")),
     ([Bytes.ofText "a.md"], .file (Bytes.ofText "two"))], []⟩)

/-- The second of two different files is all that is left of both. -/
theorem outputs_lost :
    let (a, t) := twoNotes
    let outcome := a.run t (.ofText "/") ⟨0, 0, 0⟩
    let output := outputPath (.ofText "dist") (.ofText "posts")
    outcome.code = 0 ∧
    t.arrive (.ofText "posts/a.md") =
      .ok (.present [Bytes.ofText "posts", Bytes.ofText "a.md"] (.file (Bytes.ofText "one"))) ∧
    t.arrive (.ofText "a.md") = .ok (.present [Bytes.ofText "a.md"] (.file (Bytes.ofText "two"))) ∧
    output (.ofText "posts/a.md") = output (.ofText "a.md") ∧
    outcome.tree.read (output (.ofText "posts/a.md")) = .ok (Bytes.ofText "two") ∧
    outcome.tree.read (output (.ofText "a.md")) = .ok (Bytes.ofText "two") :=
  ⟨rfl, rfl, rfl, rfl, rfl, rfl⟩

/-- The run of the two notes is one that ends with code 0. -/
theorem outputs_kept_two_notes :
    let (a, t) := twoNotes
    (a.run t (.ofText "/") ⟨0, 0, 0⟩).code = 0 ∧
    ∃ s files sum root, a.settings t = .ok s ∧ root = (s.config (.ofText "/")).root ∧
      readFiles t ⟨0, 0, 0⟩ a.files = .ok files ∧ ((s.config (.ofText "/")).run t ⟨0, 0, 0⟩ files .start).1 = .ok sum ∧
      sum.files.map (·.path) = a.files ∧
      ∀ front f back, sum.files = front ++ f :: back →
        (a.run t (.ofText "/") ⟨0, 0, 0⟩).tree.read (outputPath (.ofText "dist") root f.path) =
          .ok (lastAt t (.ofText "dist") root (t.landing (outputPath (.ofText "dist") root f.path)) f back).written := by
  have hcode : (twoNotes.1.run twoNotes.2 (.ofText "/") ⟨0, 0, 0⟩).code = 0 := rfl
  obtain ⟨s, files, sum, root, hs, hroot, hfiles, hrun, hpaths, hread, -⟩ := Arguments.outputs_kept rfl hcode
  exact ⟨hcode, s, files, sum, root, hs, hroot, hfiles, hrun, hpaths, hread⟩

end Folio
