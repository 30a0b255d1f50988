import Folio.Proofs.Tree.Walking
/-!
# Writing into a file tree

Making directories adds directories and nothing else (`ensureDirectory_extends`).  Writing a file puts its contents where
the path leads, and leaves every other node as it is (`write_writes`), so a tree only grows by it (`Writes.grows`).
-/
namespace Folio.FileTree

/-! ## Directories -/

/-- There may be more directories; all else is as it was. -/
structure Extends (t t' : FileTree) : Prop where
  home : t'.home = t.home
  kept : ∀ q node, t.node? q = some node → t'.node? q = some node
  files : ∀ q contents, t'.node? q = some (.file contents) → t.node? q = some (.file contents)

namespace Extends

variable {t t' t'' : FileTree}

theorem refl (t : FileTree) : t.Extends t := ⟨rfl, fun _ _ h => h, fun _ _ h => h⟩

theorem trans (h : t.Extends t') (h' : t'.Extends t'') : t.Extends t'' where
  home := h'.home.trans h.home
  kept q node hq := h'.kept q node (h.kept q node hq)
  files q contents hq := h.files q contents (h'.files q contents hq)

end Extends

section
variable {t t' : FileTree} {p : Path}

theorem node?_of_arrive_missing {q : Place} (h : t.arrive p = .ok (.missing q)) : t.node? q = none :=
  node?_of_walk_missing (walk_of_arrive h).2

theorem makeDirectory_extends (h : t.makeDirectory p = .ok t') : t.Extends t' := by
  unfold makeDirectory at h
  split at h
  · cases h
  · cases h
  · rename_i place harrive
    obtain rfl := Except.ok.inj h
    have hnone := node?_of_arrive_missing harrive
    have hput : ∀ q, (t.put place .directory).node? q = if q = place then some .directory else t.node? q :=
      fun q => node?_put (by rw [hnone]; simp)
    refine ⟨rfl, fun q node hq => ?_, fun q contents hq => ?_⟩
    · have hne : q ≠ place := by
        rintro rfl
        rw [hnone] at hq
        cases hq
      rw [hput, if_neg hne, hq]
    · rw [hput] at hq
      split at hq
      · cases hq
      · exact hq

theorem makeDirectories_extends : ∀ {depth : Nat} {t t' : FileTree} {p : Path},
    t.makeDirectories p depth = .ok t' → t.Extends t'
  | 0, _, _, _, h => by cases h
  | depth + 1, t, t', p, h => by
    unfold makeDirectories at h
    split at h
    · obtain rfl := Except.ok.inj h
      exact .refl t
    split at h
    · rename_i hmade
      obtain rfl := Except.ok.inj h
      exact makeDirectory_extends hmade
    · split at h
      · cases h
      split at h
      · cases h
      rename_i above habove
      have hextends := makeDirectories_extends habove
      split at h
      · rename_i hmade
        obtain rfl := Except.ok.inj h
        exact hextends.trans (makeDirectory_extends hmade)
      · split at h
        · obtain rfl := Except.ok.inj h
          exact hextends
        · cases h
    · split at h
      · obtain rfl := Except.ok.inj h
        exact .refl t
      · cases h

/-- **Making directories changes nothing else.** -/
theorem ensureDirectory_extends (h : t.ensureDirectory p = .ok t') : t.Extends t' := makeDirectories_extends h

end

/-! ## Files -/

/-- A file comes to hold `contents`, and no other file is made or changed. -/
structure Writes (t t' : FileTree) (q : Place) (contents : Bytes) : Prop where
  home : t'.home = t.home
  here : t'.node? q = some (.file contents)
  directory : ∀ r, t.node? r = some .directory → t'.node? r = some .directory
  elsewhere : ∀ r node, r ≠ q → t.node? r = some node → t'.node? r = some node
  files : ∀ r held, r ≠ q → t'.node? r = some (.file held) → t.node? r = some (.file held)

namespace Writes

variable {t t' t'' : FileTree} {q : Place} {contents : Bytes}

theorem grows (h : t.Writes t' q contents) : t.Grows t' where
  home := h.home
  directory := h.directory
  file r held hr := by
    by_cases heq : r = q
    · exact ⟨contents, heq ▸ h.here⟩
    · exact ⟨held, h.elsewhere r _ heq hr⟩

theorem after_extends (h : t.Extends t') (h' : t'.Writes t'' q contents) : t.Writes t'' q contents where
  home := h'.home.trans h.home
  here := h'.here
  directory r hr := h'.directory r (h.kept r _ hr)
  elsewhere r node hne hr := h'.elsewhere r node hne (h.kept r node hr)
  files r held hne hr := h.files r held (h'.files r held hne hr)

theorem put (h : t.node? q ≠ some .directory) : t.Writes (t.put q (.file contents)) q contents where
  home := rfl
  here := by rw [node?_put h, if_pos rfl]
  directory r hr := by
    have hne : r ≠ q := fun heq => h (heq ▸ hr)
    rw [node?_put h, if_neg hne, hr]
  elsewhere r node hne hr := by rw [node?_put h, if_neg hne, hr]
  files r held hne hr := by rwa [node?_put h, if_neg hne] at hr

end Writes

/-- **Writing puts the contents where the path leads**, and the path leads to them afterwards. -/
theorem write_writes {t t' : FileTree} {p : Path} {contents : Bytes} (h : t.write p contents = .ok t') :
    t.Writes t' (t.landing p) contents ∧ t'.arrive p = .ok (.present (t.landing p) (.file contents)) := by
  unfold write at h
  split at h
  · cases h
  · cases h
  · rename_i q held harrive
    obtain rfl := Except.ok.inj h
    have hplace : q = t.landing p := arrive_place harrive
    have hnode := node?_of_arrive_file harrive
    have hwrites : t.Writes (t.put q (.file contents)) q contents := .put (by rw [hnode]; simp)
    rw [← hplace]
    exact ⟨hwrites, hwrites.grows.arrive_file harrive hwrites.here⟩
  · rename_i q harrive
    split at h
    · cases h
    rename_i hlast
    obtain rfl := Except.ok.inj h
    have hplace : q = t.landing p := arrive_place harrive
    have hnode := node?_of_arrive_missing harrive
    obtain ⟨hne, hwalk⟩ := walk_of_arrive harrive
    rw [← hplace]
    exact ⟨.put (by rw [hnode]; simp),
      arrive_of_walk harrive rfl (walk_put_missing hwalk (Path.getLast?_stretches_ne_nil hne hlast))⟩

end Folio.FileTree
