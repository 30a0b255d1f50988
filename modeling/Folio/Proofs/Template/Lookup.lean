import Folio.Proofs.Template.Names
import Folio.Proofs.Text.Octets
import Folio.Proofs.Tree.Walking
/-!
# The first directory that has a template

A name is looked up in one directory after the other, and the first one that holds a regular file under the names that it
leads to is taken (`Disk.file?_eq_some_iff`).  Where the name is missing or is a directory the search goes on; where the file is
there and cannot be read as text it does not, so a later directory never stands in for an earlier one
(`first_directory_wins`).

To the two questions of a search the files that cannot be read are files like any others.
-/
namespace Folio

namespace FileTree

variable (t : FileTree) (p : Path)

/-- A path that leads to nothing: the walk stops before its end, or at a name that is missing. -/
def Lacks : Prop := (∃ denial, t.arrive p = .error denial) ∨ ∃ place, t.arrive p = .ok (.missing place)

theorem isFile_eq_true_iff : t.isFile p = true ↔ ∃ contents, t.read p = .ok contents := by
  unfold isFile read
  rcases t.arrive p with denial | (⟨place, contents | _⟩ | place) <;> simp

/-- **What is no file** is a directory or not there. -/
theorem isFile_eq_false_iff : t.isFile p = false ↔ t.isDirectory p = true ∨ t.Lacks p := by
  unfold isFile isDirectory Lacks
  rcases t.arrive p with denial | (⟨place, contents | _⟩ | place) <;> simp

/-- **A text that is read is what the file holds**, octet by octet. -/
theorem readText_eq_ok_iff (text : String) : t.readText p = .ok text ↔ t.read p = .ok (Bytes.ofText text) := by
  unfold readText
  cases hread : t.read p with
  | error denial => simp
  | ok contents =>
    dsimp only
    rw [Except.ok.injEq]
    constructor
    · intro h
      cases hdecode : Text.decode? contents with
      | none => simp [hdecode] at h
      | some cs =>
        obtain rfl : String.ofList cs = text := by simpa [hdecode] using h
        rw [Bytes.ofText, String.toList_ofList, Text.encode_of_decode? hdecode]
    · rintro rfl
      rw [Bytes.ofText, Text.decode?_encode]
      exact congrArg Except.ok String.ofList_toList

end FileTree

namespace Template

open Path (Part Cancels)

/-- A name that is absolute or climbs out of every directory. -/
def Rejected (name : String) : Prop :=
  (Path.ofText name).isAbsolute = true ∨
    ∃ pre, pre <+: (Path.ofText name).parts ∧ pre.countP Part.isName < pre.count .up

/-- A template name leads to the names that are left when every `..` has taken away the name in front of it. -/
def Leads (name : String) (names : List Bytes) : Prop :=
  Relation.ReflTransGen Cancels (Path.ofText name).parts (names.map .name)

theorem leads_iff {name : String} {names : List Bytes} : Leads name names ↔ relativeNames? name = some names :=
  Path.foldlM_climb_eq_some_iff.symm

end Template

namespace Disk

open Template

variable (disk : Disk) (directories : List Path) (name : String)

/-- The first of the directories that holds a regular file under some names. -/
structure IsFirst (names : List Bytes) (dir : Path) : Prop where
  holds : disk.isFile (dir.join (relativePath names)) = true
  first : ∃ before after, directories = before ++ dir :: after ∧
    ∀ d ∈ before, disk.isFile (d.join (relativePath names)) = false

variable {disk directories name}

theorem file?_of_leads {names : List Bytes} (h : Leads name names) (hne : names ≠ []) :
    disk.file? directories name = (directories.map (·.join (relativePath names))).find? disk.isFile := by
  unfold file?
  rw [leads_iff.1 h]
  split
  · contradiction
  · rename_i heq
    exact absurd (Option.some.inj heq) hne
  · rename_i heq
    rw [Option.some.inj heq]

theorem find?_eq_some_iff {names : List Bytes} {p : Path} :
    (directories.map (·.join (relativePath names))).find? disk.isFile = some p ↔
      ∃ dir, disk.IsFirst directories names dir ∧ p = dir.join (relativePath names) := by
  rw [List.find?_eq_some_iff_append]
  constructor
  · rintro ⟨hp, before, after, hsplit, hbefore⟩
    obtain ⟨front, rest, rfl, rfl, hrest⟩ := List.map_eq_append_iff.1 hsplit
    obtain ⟨dir, back, rfl, rfl, -⟩ := List.map_eq_cons_iff.1 hrest
    refine ⟨dir, ⟨hp, front, back, rfl, fun d hd => ?_⟩, rfl⟩
    have hd := hbefore _ (List.mem_map_of_mem hd)
    simpa using hd
  · rintro ⟨dir, ⟨hp, front, back, rfl, hfront⟩, rfl⟩
    refine ⟨hp, _, _, by rw [List.map_append, List.map_cons], fun q hq => ?_⟩
    obtain ⟨d, hd, rfl⟩ := List.mem_map.1 hq
    simpa using hfront d hd

/-- **The file of a template lies in the first directory that has one.** -/
theorem file?_eq_some_iff {p : Path} : disk.file? directories name = some p ↔
    ∃ names dir, Leads name names ∧ names ≠ [] ∧ disk.IsFirst directories names dir ∧
      p = dir.join (relativePath names) := by
  constructor
  · intro h
    have hfound := h
    unfold file? at hfound
    split at hfound
    · cases hfound
    · cases hfound
    · rename_i names hne hnames
      obtain ⟨dir, hdir, hp⟩ := find?_eq_some_iff.1 hfound
      exact ⟨names, dir, leads_iff.2 hnames, fun hnil => hne (hnil ▸ rfl), hdir, hp⟩
  · rintro ⟨names, dir, hleads, hne, hdir, hp⟩
    rw [file?_of_leads hleads hne]
    exact find?_eq_some_iff.2 ⟨dir, hdir, hp⟩

/-- **No template** for a name that leads nowhere, or to the directory itself, or to no file in any directory. -/
theorem file?_eq_none_iff : disk.file? directories name = none ↔ Rejected name ∨ Leads name [] ∨
    ∃ names, Leads name names ∧ ∀ dir ∈ directories, disk.isFile (dir.join (relativePath names)) = false := by
  have hrejected : relativeNames? name = none ↔ Rejected name := relativeNames?_eq_none_iff name
  cases hnames : relativeNames? name with
  | none =>
    have hnone : disk.file? directories name = none := by
      unfold file?
      rw [hnames]
    exact iff_of_true hnone (.inl (hrejected.1 hnames))
  | some names =>
    have hleads : Leads name names := leads_iff.2 hnames
    have hsame : ∀ {others}, Leads name others → others = names := fun h =>
      Option.some.inj ((leads_iff.1 h).symm.trans hnames)
    have hkept : ¬ Rejected name := fun h => by simp [hrejected.2 h] at hnames
    cases names with
    | nil =>
      have hnone : disk.file? directories name = none := by
        unfold file?
        rw [hnames]
      exact iff_of_true hnone (.inr (.inl hleads))
    | cons n ns =>
      rw [file?_of_leads hleads (List.cons_ne_nil n ns), List.find?_eq_none]
      constructor
      · intro h
        refine .inr (.inr ⟨_, hleads, fun dir hdir => ?_⟩)
        simpa using h _ (List.mem_map_of_mem hdir)
      · rintro (h | h | ⟨others, hothers, hfree⟩) p hp
        · exact absurd h hkept
        · cases hsame h
        · obtain rfl := hsame hothers
          obtain ⟨dir, hdir, rfl⟩ := List.mem_map.1 hp
          simp [hfree dir hdir]

/-- **Finding and loading agree.** -/
theorem has_iff : disk.has directories name = true ↔ disk.source? directories name ≠ .ok none := by
  unfold has source?
  cases disk.file? directories name with
  | none => simp
  | some p =>
    dsimp only
    cases disk.readText p <;> simp

section
variable {p : Path} (h : disk.file? directories name = some p)
include h

theorem source?_eq_some_iff (text : String) :
    disk.source? directories name = .ok (some text) ↔ disk.readText p = .ok text := by
  unfold source?
  rw [h]
  dsimp only
  cases disk.readText p <;> simp

theorem source?_eq_error_iff (cause : Cause) : disk.source? directories name = .error cause ↔
    (∃ denial, disk.readText p = .error denial) ∧ cause = .unreadableTemplate p.text := by
  unfold source?
  rw [h]
  dsimp only
  cases disk.readText p <;> simp [eq_comm]

end

end Disk

namespace Template

/-- **The first directory that has a template wins, and an unreadable file there is a fault.**  On every file system, a name
is found in the first of the directories that holds a regular file under the names it leads to.  It is not found exactly if
it is rejected, leads to the directory itself, or leads to no regular file in any directory.  It is found exactly if loading it
does not come to nothing; and loading what is found gives the text of this very file, or a fault that names it if it cannot be
read, whatever later directories hold.

For a tree of files: what is no regular file is a directory or missing, every regular file has its contents, and a text that is
read is what these contents spell in UTF-8. -/
theorem first_directory_wins (directories : List Path) (name : String) :
    (∀ disk : Disk,
      (∀ p, disk.file? directories name = some p ↔ ∃ names dir, Leads name names ∧ names ≠ [] ∧
        disk.IsFirst directories names dir ∧ p = dir.join (relativePath names)) ∧
      (disk.file? directories name = none ↔ Rejected name ∨ Leads name [] ∨
        ∃ names, Leads name names ∧ ∀ dir ∈ directories, disk.isFile (dir.join (relativePath names)) = false) ∧
      (disk.has directories name = true ↔ disk.source? directories name ≠ .ok none) ∧
      ∀ p, disk.file? directories name = some p →
        (∀ text, disk.source? directories name = .ok (some text) ↔ disk.readText p = .ok text) ∧
        ∀ cause, disk.source? directories name = .error cause ↔
          (∃ denial, disk.readText p = .error denial) ∧ cause = .unreadableTemplate p.text) ∧
    ∀ t : FileTree,
      file? t directories name = t.disk.file? directories name ∧ has t directories name = t.disk.has directories name ∧
      source? t directories name = t.disk.source? directories name ∧
      ∀ p, (t.isFile p = false ↔ t.isDirectory p = true ∨ t.Lacks p) ∧
        (t.isFile p = true ↔ ∃ contents, t.read p = .ok contents) ∧
        ∀ text, t.readText p = .ok text ↔ t.read p = .ok (Bytes.ofText text) := by
  constructor
  · intro disk
    refine ⟨fun p => Disk.file?_eq_some_iff, Disk.file?_eq_none_iff, Disk.has_iff, fun p h => ?_⟩
    exact ⟨Disk.source?_eq_some_iff h, Disk.source?_eq_error_iff h⟩
  · intro t
    refine ⟨rfl, rfl, rfl, fun p => ?_⟩
    exact ⟨t.isFile_eq_false_iff p, t.isFile_eq_true_iff p, t.readText_eq_ok_iff p⟩

/-- A directory of the name is passed over; a file that is no text is not, though the last directory has one that is. -/
example :
    let node (place : List String) (node : FileNode) : List Bytes × FileNode := (place.map Bytes.ofText, node)
    let tree : FileTree := ⟨[node ["a"] .directory, node ["a", "x"] .directory, node ["b"] .directory,
      node ["b", "x"] (.file [255]), node ["c"] .directory, node ["c", "x"] (.file [104])], []⟩
    file? tree (["a", "b", "c"].map Path.ofText) "x" = some (.ofText "b/x") ∧
    source? tree (["a", "b", "c"].map Path.ofText) "x" = .error (.unreadableTemplate "b/x") ∧
    source? tree (["a", "c"].map Path.ofText) "x" = .ok (some "h") := by
  decide +kernel

end Template
end Folio
