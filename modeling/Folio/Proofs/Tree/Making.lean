import Folio.Proofs.Tree.Writing
import Mathlib.Tactic.MkIffOfInductiveProp
/-!
# Making directories

The directories above a file are made unless a file stands where one of them should be.  If the file system takes a path
and there is no file on its way, all places on the way are directories afterwards, and new directories are only there
(`ensureDirectory_opens`).  Then a file can be written under the path, unless a directory has its place (`Takes.write`).
-/
namespace Folio.FileTree

open Path (stretches partOfSegment)

/-! ## Places on the way -/

/-- The places that parts of a path lead through, from the place where they start to the one before the last part. -/
def through (place : Place) (ps : List Path.Part) : List Place := ps.dropLast.scanl land place

section
variable {place q : Place} {p : Path.Part} {ps : List Path.Part}

theorem mem_scanl_land_iff : q ∈ ps.scanl land place ↔ q ∈ through place ps ∨ q = ps.foldl land place := by
  unfold through
  rcases List.eq_nil_or_concat ps with rfl | ⟨ps, p, rfl⟩
  · simp
  · rw [List.concat_eq_append, List.dropLast_concat, List.scanl_append]
    simp

theorem mem_through_cons (h : q ∈ through place (p :: ps)) : q = place ∨ q ∈ through (land place p) ps := by
  unfold through at *
  cases ps with
  | nil => exact .inl (by simpa using h)
  | cons p' ps => simpa using h

theorem mem_through_of_tail (h : q ∈ through (land place p) ps) : q = land place p ∨ q ∈ through place (p :: ps) := by
  unfold through at *
  cases ps with
  | nil => exact .inl (by simpa using h)
  | cons p' ps => exact .inr (by simpa using .inr h)

end

/-- No file stands at the place. -/
def Clear (t : FileTree) (place : Place) : Prop := t.node? place = none ∨ t.node? place = some .directory

instance (t : FileTree) (place : Place) : Decidable (t.Clear place) := inferInstanceAs (Decidable (_ ∨ _))

/-- The place and all places above it are directories. -/
def Open (t : FileTree) (place : Place) : Prop := ∀ q, q <+: place → t.node? q = some .directory

section
variable {t t' : FileTree} {place q : Place}

theorem clear_iff : t.Clear place ↔ ∀ held, t.node? place ≠ some (.file held) := by
  unfold Clear
  rcases t.node? place with _ | _ | _ <;> simp

namespace Open

theorem node?_eq (h : t.Open place) : t.node? place = some .directory := h place List.prefix_rfl

theorem clear (h : t.Open place) : t.Clear place := .inr h.node?_eq

theorem of_isPrefix (h : t.Open place) (hq : q <+: place) : t.Open q := fun r hr => h r (hr.trans hq)

theorem concat {s : Bytes} (h : t.Open place) (hnode : t.node? (place ++ [s]) = some .directory) :
    t.Open (place ++ [s]) := by
  intro q hq
  rcases List.prefix_concat_iff.1 hq with rfl | hq
  · exact hnode
  · exact h q hq

theorem home (t : FileTree) : t.Open t.home := fun _ hq =>
  node?_eq_directory_of_isPrefixOf (List.isPrefixOf_iff_prefix.2 hq)

theorem origin (t : FileTree) (p : Path) : t.Open (t.origin p) := by
  unfold FileTree.origin
  split
  · exact (home t).of_isPrefix List.nil_prefix
  · exact home t

end Open

theorem prefix_cases (h : q <+: place) : q = place ∨ q <+: place.dropLast := by
  rcases List.eq_nil_or_concat place with rfl | ⟨place, s, rfl⟩
  · exact .inl (List.prefix_nil.1 h)
  · rw [List.concat_eq_append] at h ⊢
    rw [List.dropLast_concat]
    exact List.prefix_concat_iff.1 h

theorem Extends.open (h : t.Extends t') (hplace : t.Open place) : t'.Open place := fun q hq => h.kept q _ (hplace q hq)

end

/-! ## Walks on a clear way -/

/-- Whatever is found or missing stands in an open place. -/
def Arrival.Stands (t : FileTree) : Arrival → Prop
  | .present _ (.file _) => True
  | .present place .directory => t.Open place
  | .missing place => t.Open place.dropLast

/-- A walk arrives after it has gone through open places, or one of these places is missing. -/
def Passes (t : FileTree) (places : List Place) (walk : Except Denial Arrival) : Prop :=
  (∃ a, walk = .ok a ∧ a.Stands t ∧ ∀ q ∈ places, t.Open q) ∨
  (walk = .error .notFound ∧ ∃ q ∈ places, t.node? q = none)

section
variable {t : FileTree} {place : Place}

/-- Open places are left out and added at will. -/
theorem Passes.of_mem {places places' : List Place} {walk : Except Denial Arrival} (h : t.Passes places walk)
    (hleft : ∀ q ∈ places, t.Open q ∨ q ∈ places') (hadded : ∀ q ∈ places', t.Open q ∨ q ∈ places) :
    t.Passes places' walk := by
  rcases h with ⟨a, ha, hstands, hopen⟩ | ⟨hwalk, q, hq, hnode⟩
  · exact .inl ⟨a, ha, hstands, fun q hq => (hadded q hq).elim id (hopen q)⟩
  · refine .inr ⟨hwalk, q, (hleft q hq).resolve_left fun hopen => ?_, hnode⟩
    rw [hopen.node?_eq] at hnode
    cases hnode

theorem Passes.cons {p : Path.Part} {ps : List Path.Part} {walk : Except Denial Arrival} (hplace : t.Open place)
    (hland : t.Open (land place p)) (h : t.Passes (through (land place p) ps) walk) :
    t.Passes (through place (p :: ps)) walk :=
  h.of_mem (fun _ hq => (mem_through_of_tail hq).elim (fun heq => .inl (heq ▸ hland)) .inr)
    (fun _ hq => (mem_through_cons hq).elim (fun heq => .inl (heq ▸ hplace)) .inr)

/-- A name without a directory of that name is the last part, or there is no way on behind it. -/
theorem passes_name {s : Bytes} {ss : List Bytes} (hplace : t.Open place) (hskip : ¬ (s = [] ∨ s = [Path.dot]))
    (hup : s ≠ [Path.dot, Path.dot]) (hlength : ¬ s.length > longestName)
    (htrimmed : ss.filterMap partOfSegment = [] → ss = [])
    (hclear : ∀ q ∈ through place (.name s :: ss.filterMap partOfSegment), t.Clear q)
    (hnode : t.node? (place ++ [s]) ≠ some .directory) :
    t.Passes (through place (.name s :: ss.filterMap partOfSegment)) (t.walk place .directory (s :: ss)) := by
  rw [walk_name ss hskip hup hlength]
  by_cases hlast : ss.filterMap partOfSegment = []
  -- Nothing follows the name, so a file or nothing at all may be there.
  · obtain rfl := htrimmed hlast
    have hopen : ∀ q ∈ through place [.name s], t.Open q := by simpa [through] using hplace
    cases h : t.node? (place ++ [s]) with
    | none => exact .inl ⟨_, rfl, by simpa [Arrival.Stands] using hplace, hopen⟩
    | some node =>
      cases node with
      | directory => exact absurd h hnode
      | file held => exact .inl ⟨_, rfl, trivial, hopen⟩
  · have hmem : place ++ [s] ∈ through place (.name s :: ss.filterMap partOfSegment) := by
      unfold through
      rw [List.dropLast_cons_of_ne_nil hlast, List.scanl_cons]
      exact List.mem_cons_of_mem _ (List.mem_of_head? List.head?_scanl)
    have hnone := (hclear _ hmem).resolve_right hnode
    have hall : ¬ ss.all (· == []) = true := fun h => hlast (filterMap_of_all h)
    rw [hnone]
    exact .inr ⟨if_neg hall, _, hmem, hnone⟩

/-- **A walk without a file on its way** arrives, unless a place on the way is missing. -/
theorem walk_passes : ∀ {ss : List Bytes} {place : Place}, t.Open place → (∀ s ∈ ss, s.length ≤ longestName) →
    Path.Trimmed ss → (∀ q ∈ through place (ss.filterMap partOfSegment), t.Clear q) →
      t.Passes (through place (ss.filterMap partOfSegment)) (t.walk place .directory ss)
  | [], place, hplace, _, _, _ => .inl ⟨_, rfl, hplace, by simpa [through] using hplace⟩
  | s :: ss, place, hplace, hlength, htrimmed, hclear => by
    have hlengths : ∀ r ∈ ss, r.length ≤ longestName := fun r hr => hlength r (List.mem_cons_of_mem _ hr)
    have hrest : ∀ p, partOfSegment s = some p → t.Open (land place p) →
        ∀ q ∈ through (land place p) (ss.filterMap partOfSegment), t.Clear q := by
      intro p hp hland q hq
      rcases mem_through_of_tail hq with rfl | hq
      · exact hland.clear
      · exact hclear q (by rwa [List.filterMap_cons_some hp])
    by_cases hskip : s = [] ∨ s = [Path.dot]
    · rw [walk_skip ss hskip]
      rw [List.filterMap_cons_none (by simp [partOfSegment, hskip])] at hclear ⊢
      exact walk_passes hplace hlengths htrimmed.tail hclear
    by_cases hup : s = [Path.dot, Path.dot]
    · have hs : partOfSegment s = some .up := by simp [partOfSegment, hup]
      have hland : t.Open (land place .up) := hplace.of_isPrefix (List.dropLast_prefix place)
      rw [walk_up ss hskip hup, List.filterMap_cons_some hs]
      exact .cons hplace hland (walk_passes hland hlengths htrimmed.tail (hrest .up hs hland))
    have hs : partOfSegment s = some (.name s) := by simp [partOfSegment, hskip, hup]
    have hlong : ¬ s.length > longestName := Nat.not_lt.2 (hlength s List.mem_cons_self)
    by_cases hnode : t.node? (place ++ [s]) = some .directory
    · have hland : t.Open (land place (.name s)) := hplace.concat hnode
      rw [walk_name ss hskip hup hlong, hnode, List.filterMap_cons_some hs]
      exact .cons hplace hland (walk_passes hland hlengths htrimmed.tail (hrest _ hs hland))
    · rw [List.filterMap_cons_some hs] at hclear ⊢
      exact passes_name hplace hskip hup hlong (htrimmed.eq_nil (by simp [hs])) hclear hnode

end

/-! ## Arriving -/

/-- The file system takes the path: no octet is NUL, and neither the path nor a name in it is too long. -/
@[mk_iff] structure Fits (p : Path) : Prop where
  nul : 0 ∉ p.octets
  length : p.octets.length ≤ longestPath
  names : ∀ s ∈ stretches p.octets, s.length ≤ longestName

instance (p : Path) : Decidable (Fits p) := decidable_of_iff' _ (fits_iff p)

theorem Fits.of_isPrefix {p above : Path} (h : Fits p) (habove : above.octets <+: p.octets) : Fits above where
  nul hnul := h.nul (habove.subset hnul)
  length := Nat.le_trans habove.length_le h.length
  names s hs := by
    obtain ⟨front, last, r, back, hxs, hbs, hlast⟩ := Path.stretches_of_isPrefix habove
    rw [hxs, List.mem_append, List.mem_singleton] at hs
    rcases hs with hs | rfl
    · exact h.names s (by simp [hbs, hs])
    · exact Nat.le_trans hlast.length_le (h.names r (by simp [hbs]))

section
variable {t : FileTree} {p : Path}

theorem mem_through_origin {q : Place} (h : q ∈ through (t.origin p) (Path.inner p.octets)) :
    q = t.origin p ∨ q ∈ through t.home p.parts := by
  rw [Path.parts_eq]
  unfold origin at *
  by_cases habs : p.isAbsolute = true
  · rw [if_pos habs] at *
    rw [Path.opening, if_pos habs]
    exact mem_through_of_tail (p := .root) h
  · rw [if_neg habs] at *
    rcases Path.opening_of_not_isAbsolute habs with hopening | hopening
    · rw [hopening]
      exact .inr h
    · rw [hopening]
      exact mem_through_of_tail (p := .here) h

theorem mem_through_home {q : Place} (h : q ∈ through t.home p.parts) :
    q = t.home ∨ q ∈ through (t.origin p) (Path.inner p.octets) := by
  rw [Path.parts_eq] at h
  by_cases habs : p.isAbsolute = true
  · rw [origin, if_pos habs]
    rw [Path.opening, if_pos habs] at h
    exact mem_through_cons h
  · rw [origin, if_neg habs]
    rcases Path.opening_of_not_isAbsolute habs with hopening | hopening
    · rw [hopening] at h
      exact .inr h
    · rw [hopening] at h
      exact mem_through_cons h

theorem arrive_passes (hfits : Fits p) (hne : p.octets ≠ []) (htrimmed : Path.Trimmed (stretches p.octets))
    (hclear : ∀ q ∈ through t.home p.parts, t.Clear q) : t.Passes (through t.home p.parts) (t.arrive p) := by
  have harrive : t.arrive p = t.walk (t.origin p) .directory (stretches p.octets) := by
    unfold arrive
    rw [Path.segments, Path.map_octets_segmentsFrom, if_neg (by simpa using hfits.nul), if_neg hne,
      if_neg (Nat.not_lt.2 hfits.length)]
    rfl
  have hleft : ∀ q ∈ through (t.origin p) (Path.inner p.octets), t.Open q ∨ q ∈ through t.home p.parts :=
    fun q hq => (mem_through_origin hq).elim (fun heq => .inl (heq ▸ .origin t p)) .inr
  have hadded : ∀ q ∈ through t.home p.parts, t.Open q ∨ q ∈ through (t.origin p) (Path.inner p.octets) :=
    fun q hq => (mem_through_home hq).elim (fun heq => .inl (heq ▸ .home t)) .inr
  have hwalk := walk_passes (.origin t p) hfits.names htrimmed fun q hq => (hleft q hq).elim Open.clear (hclear q)
  rw [harrive]
  exact hwalk.of_mem hleft hadded

end

/-! ## Directories for a path -/

/-- Directories came to be at places that the parts lead through or to, and all of these are open. -/
structure Opens (t t' : FileTree) (ps : List Path.Part) : Prop where
  made : t.Extends t'
  opened : ∀ q ∈ ps.scanl land t.home, t'.Open q
  onWay : ∀ q, t'.node? q = some .directory → t.node? q = some .directory ∨ q ∈ ps.scanl land t.home

section
variable {t : FileTree} {p : Path}

/-- **All that making one directory does** where no file is on the way or stands in its place. -/
theorem makeDirectory_cases (hfits : Fits p) (hne : p.octets ≠ []) (htrimmed : Path.Trimmed (stretches p.octets))
    (hclear : ∀ q ∈ p.parts.scanl land t.home, t.Clear q) :
    (∃ t', t.makeDirectory p = .ok t' ∧ t.Opens t' p.parts) ∨
    (t.makeDirectory p = .error .alreadyThere ∧ t.isDirectory p = true ∧ t.Opens t p.parts) ∨
    (t.makeDirectory p = .error .notFound ∧ ∃ q ∈ through t.home p.parts, t.node? q = none) := by
  have hpasses := arrive_passes (t := t) hfits hne htrimmed fun q hq => hclear q (mem_scanl_land_iff.2 (.inl hq))
  unfold makeDirectory isDirectory
  rcases hpasses with ⟨a, harrive, hstands, hway⟩ | ⟨harrive, hmissing⟩
  swap
  · rw [harrive]
    exact .inr (.inr ⟨rfl, hmissing⟩)
  have hopen : ∀ {t' : FileTree}, t.Extends t' → t'.Open (t.landing p) → ∀ q ∈ p.parts.scanl land t.home, t'.Open q := by
    intro t' hextends hlanding q hq
    rcases mem_scanl_land_iff.1 hq with hq | rfl
    · exact hextends.open (hway q hq)
    · exact hlanding
  have hmem : t.landing p ∈ p.parts.scanl land t.home := mem_scanl_land_iff.2 (.inr rfl)
  rcases a with ⟨q, held | _⟩ | q
  · obtain rfl : q = t.landing p := arrive_place harrive
    exact absurd (node?_of_arrive_file harrive) (clear_iff.1 (hclear _ hmem) held)
  · obtain rfl : q = t.landing p := arrive_place harrive
    rw [harrive]
    exact .inr (.inl ⟨rfl, rfl, .refl t, hopen (.refl t) hstands, fun _ hq => .inl hq⟩)
  · obtain rfl : q = t.landing p := arrive_place harrive
    have hnone := node?_of_arrive_missing harrive
    have hmade : t.makeDirectory p = .ok (t.put (t.landing p) .directory) := by rw [makeDirectory, harrive]
    have hput : ∀ r, (t.put (t.landing p) .directory).node? r = if r = t.landing p then some .directory else t.node? r :=
      fun _ => node?_put (by rw [hnone]; simp)
    have hextends := makeDirectory_extends hmade
    rw [harrive]
    refine .inl ⟨_, rfl, hextends, hopen hextends fun r hr => ?_, fun r hr => ?_⟩
    · rcases prefix_cases hr with rfl | hr
      · rw [hput, if_pos rfl]
      · exact hextends.kept _ _ (hstands r hr)
    · rw [hput] at hr
      split at hr
      · rename_i heq
        exact .inr (heq ▸ hmem)
      · exact .inl hr

theorem Opens.refl (t : FileTree) : t.Opens t [] where
  made := .refl t
  opened _ hq := List.mem_singleton.1 hq ▸ .home t
  onWay _ hq := .inl hq

theorem Opens.trans {t' t'' : FileTree} {ps qs : List Path.Part} (h : t.Opens t' ps) (h' : t'.Opens t'' qs)
    (hsub : ∀ q ∈ ps.scanl land t.home, q ∈ qs.scanl land t.home) : t.Opens t'' qs where
  made := h.made.trans h'.made
  opened q hq := h'.opened q (by rwa [h.made.home])
  onWay q hq := by
    rcases h'.onWay q hq with hq | hq
    · exact (h.onWay q hq).imp id (hsub q)
    · exact .inr (by rwa [h.made.home] at hq)

theorem Opens.clear {t' : FileTree} {ps qs : List Path.Part} (h : t.Opens t' ps)
    (hclear : ∀ q ∈ qs.scanl land t.home, t.Clear q) : ∀ q ∈ qs.scanl land t'.home, t'.Clear q := by
  intro q hq
  rw [h.made.home] at hq
  exact clear_iff.2 fun held hheld => clear_iff.1 (hclear q hq) held (h.made.files q held hheld)

theorem makeDirectories_opens : ∀ {depth : Nat} {t : FileTree} {p : Path}, Fits p → Path.Trimmed (stretches p.octets) →
    (∀ q ∈ p.parts.scanl land t.home, t.Clear q) → p.octets.length < depth →
      ∃ t', t.makeDirectories p depth = .ok t' ∧ t.Opens t' p.parts
  | 0, _, _, _, _, _, h => absurd h (Nat.not_lt_zero _)
  | depth + 1, t, p, hfits, htrimmed, hclear, hdepth => by
    unfold makeDirectories
    by_cases hempty : p.octets = []
    · obtain rfl : p = ⟨[]⟩ := Path.eq_of_octets_eq hempty
      exact ⟨t, rfl, .refl t⟩
    rw [if_neg hempty]
    rcases makeDirectory_cases hfits hempty htrimmed hclear with
      ⟨t', hmade, hopens⟩ | ⟨hmade, hdirectory, hopens⟩ | ⟨hmade, q, hq, hnode⟩
    · rw [hmade]
      exact ⟨t', rfl, hopens⟩
    · rw [hmade]
      exact ⟨t, if_pos hdirectory, hopens⟩
    rw [hmade]
    cases habove : p.parent? with
    | none =>
      -- Such a path leads through the working directory only, which is not missing.
      rw [through, Path.dropLast_parts_of_parent?_eq_none habove, List.scanl_nil, List.mem_singleton] at hq
      rw [hq, (Open.home t).node?_eq] at hnode
      cases hnode
    | some above =>
      have hisAbove := Path.isAbove_of_parent? habove
      have hway : through t.home p.parts = above.parts.scanl land t.home := by rw [through, hisAbove.parts]
      have hsub : ∀ q ∈ above.parts.scanl land t.home, q ∈ p.parts.scanl land t.home :=
        fun q hq => mem_scanl_land_iff.2 (.inl (hway ▸ hq))
      obtain ⟨t', hmadeAbove, hopens⟩ := makeDirectories_opens (hfits.of_isPrefix hisAbove.front) hisAbove.trimmed
        (fun q hq => hclear q (hsub q hq)) (Nat.lt_of_lt_of_le hisAbove.length_lt (Nat.le_of_lt_succ hdepth))
      dsimp only
      rw [hmadeAbove]
      dsimp only
      -- All that the path leads through is there by now.
      rcases makeDirectory_cases hfits hempty htrimmed (hopens.clear hclear) with
        ⟨t'', hmade, hopens'⟩ | ⟨hmade, hdirectory, hopens'⟩ | ⟨-, q, hq, hnode⟩
      · rw [hmade]
        exact ⟨t'', rfl, hopens.trans hopens' hsub⟩
      · rw [hmade]
        exact ⟨t', if_pos hdirectory, hopens.trans hopens' hsub⟩
      · rw [hopens.made.home, hway] at hq
        rw [(hopens.opened q hq).node?_eq] at hnode
        cases hnode

/-- **Directories can be made for a path** that no file is in the way of, and new ones are on its way only. -/
theorem ensureDirectory_opens (hfits : Fits p) (htrimmed : Path.Trimmed (stretches p.octets))
    (hclear : ∀ q ∈ p.parts.scanl land t.home, t.Clear q) :
    ∃ t', t.ensureDirectory p = .ok t' ∧ t.Opens t' p.parts :=
  makeDirectories_opens hfits htrimmed hclear (by omega)

end

/-! ## Files under a path -/

/-- The file system takes the path, which ends in a name; no file is on its way, and it does not lead to a directory. -/
@[mk_iff] structure Takes (t : FileTree) (p : Path) : Prop where
  fits : Fits p
  named : ∀ s ∈ (stretches p.octets).getLast?, partOfSegment s = some (.name s)
  way : ∀ q ∈ through t.home p.parts, t.Clear q
  target : t.node? (t.landing p) ≠ some .directory

instance (t : FileTree) (p : Path) : Decidable (t.Takes p) := decidable_of_iff' _ (takes_iff t p)

section
variable {t t' : FileTree} {p : Path}

theorem Takes.trimmed (h : t.Takes p) : Path.Trimmed (stretches p.octets) := by
  intro s hs hnone
  rw [h.named s hs] at hnone
  cases hnone

theorem Takes.getLast?_ne (h : t.Takes p) : p.octets.getLast? ≠ some Path.separator := by
  intro hlast
  obtain ⟨front, hfront⟩ := List.getLast?_eq_some_iff.1 hlast
  have hnone := h.named [] (by rw [hfront, Path.stretches_append_separator]; simp)
  cases hnone

theorem Takes.ne_nil (h : t.Takes p) : p.octets ≠ [] := by
  intro hnil
  have hnone := h.named [] (by rw [hnil]; rfl)
  cases hnone

/-- A file is written where all places on the way are open. -/
theorem Takes.write (h : t.Takes p) (hopen : ∀ q ∈ through t.home p.parts, t.Open q) (contents : Bytes) :
    ∃ t', t.write p contents = .ok t' := by
  unfold FileTree.write
  rcases arrive_passes h.fits h.ne_nil h.trimmed h.way with ⟨a, harrive, hstands, -⟩ | ⟨-, q, hq, hnode⟩
  · rw [harrive]
    rcases a with ⟨q, held | _⟩ | q
    · exact ⟨_, rfl⟩
    · obtain rfl : q = t.landing p := arrive_place harrive
      exact absurd (Open.node?_eq hstands) h.target
    · exact ⟨_, if_neg h.getLast?_ne⟩
  · rw [(hopen q hq).node?_eq] at hnode
    cases hnode

/-- Writing a file makes no directory. -/
theorem directory_of_write {contents : Bytes} {q : Place} (h : t.write p contents = .ok t')
    (hq : t'.node? q = some .directory) : t.node? q = some .directory := by
  have hput : ∀ place, t.node? place ≠ some .directory →
      (t.put place (.file contents)).node? q = some .directory → t.node? q = some .directory := by
    intro place hplace hq
    rw [node?_put hplace] at hq
    split at hq
    · cases hq
    · exact hq
  unfold FileTree.write at h
  split at h
  · cases h
  · cases h
  · rename_i place held harrive
    obtain rfl := Except.ok.inj h
    exact hput place (by rw [node?_of_arrive_file harrive]; simp) hq
  · rename_i place harrive
    split at h
    · cases h
    obtain rfl := Except.ok.inj h
    exact hput place (by rw [node?_of_arrive_missing harrive]; simp) hq

/-- **A file can be written after the directories above it were made**, unless it lies on its own way; new directories are
on that way. -/
theorem Takes.write_of_opens (h : t.Takes p) (hself : t.landing p ∉ through t.home p.parts)
    (hopens : t.Opens t' p.parts.dropLast) (contents : Bytes) : ∃ t'', t'.write p contents = .ok t'' ∧
      ∀ q, t''.node? q = some .directory → t.node? q = some .directory ∨ q ∈ through t.home p.parts := by
  have hhome := hopens.made.home
  have hopened : ∀ q ∈ through t'.home p.parts, t'.Open q := by
    rw [hhome]
    exact hopens.opened
  have htarget : t'.node? (t'.landing p) ≠ some .directory := by
    rw [landing, hhome]
    exact fun hdirectory => (hopens.onWay _ hdirectory).elim h.target hself
  have htakes : t'.Takes p := ⟨h.fits, h.named, fun q hq => (hopened q hq).clear, htarget⟩
  obtain ⟨t'', hwrite⟩ := htakes.write hopened contents
  exact ⟨t'', hwrite, fun q hq => hopens.onWay q (directory_of_write hwrite hq)⟩

end

end Folio.FileTree
