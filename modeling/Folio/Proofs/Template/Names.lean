import Folio.Proofs.Paths.Folding
/-!
# Template names stay in their directories

A template name leads to the names that are left when every `..` of it has taken away the name in front of it, and to
nothing if it is absolute or climbs out on the way.  The file of a template is one of the directories joined with these
names, of which there is at least one (`file?_eq_some`), so it lies in that directory, and no other file has a say in what
is found and read (`lookup_congr`).
-/
namespace Folio.Template

open Path (Part IsPlain Cancels)

/-- A path made of one of the directories and at least one plain name. -/
def InLibrary (directories : List Path) (p : Path) : Prop :=
  ∃ dir ∈ directories, ∃ names, names ≠ [] ∧ (∀ n ∈ names, IsPlain n) ∧ p = dir.join (relativePath names)

theorem relativeNames?_eq_none_iff (name : String) : relativeNames? name = none ↔
    (Path.ofText name).isAbsolute = true ∨
      ∃ pre, pre <+: (Path.ofText name).parts ∧ pre.countP Part.isName < pre.count .up := by
  rw [relativeNames?, Path.foldlM_climb_eq_none_iff, Path.root_mem_parts_iff]
  simp [Path.ClimbsOut]

theorem mem_of_foldlM_climb : ∀ {ps : List Part} {names left : List Bytes}, ps.foldlM climb names = some left →
    ∀ n ∈ left, n ∈ names ∨ .name n ∈ ps
  | [], names, left, h, n, hn => by
    obtain rfl : names = left := by simpa using h
    exact Or.inl hn
  | p :: ps, names, left, h, n, hn => by
    rw [List.foldlM_cons] at h
    obtain ⟨next, hnext, h⟩ := Option.bind_eq_some_iff.1 h
    rcases mem_of_foldlM_climb h n hn with hmem | hmem
    · cases p with
      | root => simp [climb] at hnext
      | here =>
        obtain rfl : names = next := by simpa [climb] using hnext
        exact Or.inl hmem
      | up =>
        simp only [climb] at hnext
        split at hnext
        · cases hnext
        · obtain rfl := Option.some.inj hnext
          exact Or.inl (List.dropLast_subset _ hmem)
      | name m =>
        obtain rfl : names ++ [m] = next := by simpa [climb] using hnext
        rcases List.mem_append.1 hmem with hmem | hmem
        · exact Or.inl hmem
        · obtain rfl : n = m := by simpa using hmem
          exact Or.inr List.mem_cons_self
    · exact Or.inr (List.mem_cons_of_mem _ hmem)

theorem isPlain_of_relativeNames? {name : String} {names : List Bytes} (h : relativeNames? name = some names) :
    ∀ n ∈ names, IsPlain n := by
  intro n hn
  rcases mem_of_foldlM_climb h n hn with hmem | hmem
  · cases hmem
  · exact Path.isPlain_of_mem_parts hmem

section
variable {names : List Bytes}

theorem not_isAbsolute_relativePath (h : ∀ n ∈ names, IsPlain n) : ¬ (relativePath names).isAbsolute = true :=
  Path.not_isAbsolute_of_opening (Path.parts_ofParts_names h).2

theorem parts_relativePath (h : ∀ n ∈ names, IsPlain n) : (relativePath names).parts = names.map .name := by
  obtain ⟨hinner, hopening⟩ := Path.parts_ofParts_names h
  rw [relativePath, Path.parts_eq, hopening, hinner, List.nil_append]

/-- **Names below a directory** follow the parts of the directory. -/
theorem parts_join_relativePath (dir : Path) (h : ∀ n ∈ names, IsPlain n) :
    (dir.join (relativePath names)).parts = dir.parts ++ names.map .name := by
  rw [Path.parts_join (not_isAbsolute_relativePath h), parts_relativePath h, relativePath,
    (Path.parts_ofParts_names h).1]
  split
  · rename_i hdir
    obtain rfl : dir = ⟨[]⟩ := Path.eq_of_octets_eq hdir
    rfl
  · rfl

theorem inside_join_relativePath (dir : Path) (hne : names ≠ []) (h : ∀ n ∈ names, IsPlain n) :
    (dir.join (relativePath names)).Inside dir := by
  refine Path.inside_join_of_climb dir ?_ hne
  rw [parts_relativePath h, Path.foldlM_climb_names, List.nil_append]

end

variable {t : FileTree} {directories : List Path} {name : String}

/-- **The file of a template** is in one of the directories, under the names that the template's name leads to. -/
theorem file?_eq_some {p : Path} (h : file? t directories name = some p) :
    ∃ dir ∈ directories, ∃ names, relativeNames? name = some names ∧ names ≠ [] ∧
      p = dir.join (relativePath names) ∧ t.isFile p = true := by
  unfold file? Disk.file? at h
  split at h
  · cases h
  · cases h
  · rename_i names hne hnames
    have hfile := List.find?_some h
    obtain ⟨dir, hdir, rfl⟩ := List.mem_map.1 (List.mem_of_find?_eq_some h)
    exact ⟨dir, hdir, names, hnames, fun hnil => hne (hnil ▸ rfl), rfl, hfile⟩

theorem source?_eq_some_iff {text : String} : source? t directories name = .ok (some text) ↔
    ∃ p, file? t directories name = some p ∧ t.readText p = .ok text := by
  unfold source? Disk.source? file?
  cases t.disk.file? directories name with
  | none => simp
  | some p =>
    dsimp only [FileTree.disk]
    cases hread : t.readText p with
    | error denial => simp [hread]
    | ok text' => simp [hread]

/-- Trees that agree on the paths of a library agree on what is found and read in it. -/
theorem lookup_congr {t' : FileTree} (h : ∀ p, InLibrary directories p → t.isFile p = t'.isFile p ∧ t.readText p = t'.readText p)
    (name : String) : file? t directories name = file? t' directories name ∧
      source? t directories name = source? t' directories name := by
  have hin : ∀ {names : List Bytes}, relativeNames? name = some names → names ≠ [] → ∀ dir ∈ directories,
      InLibrary directories (dir.join (relativePath names)) :=
    fun hnames hne dir hdir => ⟨dir, hdir, _, hne, isPlain_of_relativeNames? hnames, rfl⟩
  have hfile : file? t directories name = file? t' directories name := by
    unfold file? Disk.file?
    split
    · rfl
    · rfl
    · rename_i names hne hnames
      rw [← List.head?_filter, ← List.head?_filter]
      refine congrArg List.head? (List.filter_congr fun p hp => ?_)
      obtain ⟨dir, hdir, rfl⟩ := List.mem_map.1 hp
      exact (h _ (hin hnames (fun hnil => hne (hnil ▸ rfl)) dir hdir)).1
  refine ⟨hfile, ?_⟩
  unfold file? at hfile
  unfold source? Disk.source?
  rw [← hfile]
  cases hp : t.disk.file? directories name with
  | none => rfl
  | some p =>
    obtain ⟨dir, hdir, names, hnames, hne, rfl, -⟩ := file?_eq_some hp
    dsimp only [FileTree.disk]
    rw [(h _ (hin hnames hne dir hdir)).2]

/-- **Looking up a template never leaves the directories.**  A name leads nowhere exactly if it is absolute or some
beginning of it has more `..` than names; otherwise it leads to the names that are left when every `..` has taken away the
name in front of it.  The file found is one of the directories joined with these names, one or more and all of them
plain, and lies inside of that directory; its text is the source of the template.  No file elsewhere matters: trees that
agree on the paths of the library give the same file and the same source. -/
theorem lookup_stays_inside (directories : List Path) (name : String) :
    (relativeNames? name = none ↔ (Path.ofText name).isAbsolute = true ∨
      ∃ pre, pre <+: (Path.ofText name).parts ∧ pre.countP Part.isName < pre.count .up) ∧
    (∀ names, relativeNames? name = some names ↔
      Relation.ReflTransGen Cancels (Path.ofText name).parts (names.map .name)) ∧
    (∀ t p, file? t directories name = some p → ∃ dir ∈ directories, ∃ names,
      relativeNames? name = some names ∧ names ≠ [] ∧ (∀ n ∈ names, IsPlain n) ∧
      p = dir.join (relativePath names) ∧ p.parts = dir.parts ++ names.map .name ∧ p.Inside dir) ∧
    (∀ t text, source? t directories name = .ok (some text) ↔
      ∃ p, file? t directories name = some p ∧ t.readText p = .ok text) ∧
    ∀ t t' : FileTree,
      (∀ p, InLibrary directories p → t.isFile p = t'.isFile p ∧ t.readText p = t'.readText p) →
      file? t directories name = file? t' directories name ∧ source? t directories name = source? t' directories name := by
  refine ⟨relativeNames?_eq_none_iff name, fun names => Path.foldlM_climb_eq_some_iff, ?_,
    fun t text => source?_eq_some_iff, fun t t' h => lookup_congr h name⟩
  intro t p hfile
  obtain ⟨dir, hdir, names, hnames, hne, rfl, -⟩ := file?_eq_some hfile
  have hplain := isPlain_of_relativeNames? hnames
  exact ⟨dir, hdir, names, hnames, hne, hplain, rfl, parts_join_relativePath dir hplain,
    inside_join_relativePath dir hne hplain⟩

/-- A name that climbs out of its directory and back leads nowhere; one that stays in it leads to the names left. -/
example : relativeNames? "a/../../lib/c.html" = none ∧
    relativeNames? "./a//b/../c.html" = some [Bytes.ofText "a", Bytes.ofText "c.html"] := by
  decide +kernel

end Folio.Template
