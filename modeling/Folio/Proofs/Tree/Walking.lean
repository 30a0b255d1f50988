import Folio.FileTree
import Folio.Proofs.Paths.Folding
/-!
# Where paths lead in a file tree

A walk that ends anywhere ends where the parts of the path say (`arrive_place`), whatever files there are.  A tree that
has grown is walked in the same way (`Grows.arrive_file`), and a path that led to a missing name leads to the file that is
put there (`walk_put_missing`).
-/
namespace Folio.FileTree

open Path (separator dot stretches partOfSegment)

/-- One part of a path on from a place; `..` goes to the directory above, the root's being itself. -/
def land (place : Place) : Path.Part → Place
  | .root => []
  | .here => place
  | .up => place.dropLast
  | .name n => place ++ [n]

/-- The place that a path leads to if it leads anywhere. -/
def landing (t : FileTree) (p : Path) : Place := p.parts.foldl land t.home

theorem landing_join (t : FileTree) (p q : Path) : t.landing (p.join q) = q.parts.foldl land (t.landing p) :=
  Path.foldl_parts_join (fun _ => rfl) (fun _ _ => rfl) p q t.home

theorem foldl_land_of_climb {ps : List Path.Part} {names : List Bytes} (place : Place)
    (h : ps.foldlM Template.climb [] = some names) : ps.foldl land place = place ++ names := by
  have hland : ps.foldl land (place ++ []) = place ++ names :=
    Path.foldl_of_climb (place ++ ·) (fun _ => rfl) (fun _ _ => by simp [land])
      (fun names n => by simp [land, ← List.append_assoc]) h
  rwa [List.append_nil] at hland

theorem foldl_land_names (place : Place) (names : List Bytes) :
    (names.map Path.Part.name).foldl land place = place ++ names :=
  foldl_land_of_climb place (by rw [Path.foldlM_climb_names, List.nil_append])

theorem foldl_land_settle (place : Place) : ∀ (ps out : List Path.Part),
    (ps.foldl Path.settle out).foldl land place = ps.foldl land (out.foldl land place)
  | [], _ => rfl
  | p :: ps, out => by
    rw [List.foldl_cons, foldl_land_settle place ps, List.foldl_cons]
    congr 1
    cases p with
    | root => rfl
    | here => rfl
    | name n => simp [Path.settle]
    | up =>
      rcases List.eq_nil_or_concat out with rfl | ⟨out, q, rfl⟩
      · rfl
      · rw [List.concat_eq_append, Path.settle, List.getLast?_concat]
        cases q <;> simp [land]

/-- **What lies inside of a directory leads below the place of the directory.** -/
theorem landing_of_inside {p dir : Path} (t : FileTree) (h : p.Inside dir) :
    ∃ names, names ≠ [] ∧ t.landing p = t.landing dir ++ names := by
  obtain ⟨names, hne, hsettled⟩ := h
  have hland : ∀ q : Path, t.landing q = q.settled.foldl land t.home :=
    fun q => (foldl_land_settle t.home q.parts []).symm
  exact ⟨names, hne, by rw [hland p, hsettled, List.foldl_append, ← hland, foldl_land_names]⟩

def Arrival.place : Arrival → Place
  | .present place _ => place
  | .missing place => place

/-! ## Nodes -/

section
variable {t : FileTree} {place q : Place} {node : FileNode}

theorem node?_eq_directory_of_isPrefixOf (h : place.isPrefixOf t.home = true) : t.node? place = some .directory := by
  simp [node?, h]

/-- What is put at a place is there, and all else is as it was. -/
theorem node?_put (h : t.node? place ≠ some .directory) :
    (t.put place node).node? q = if q = place then some node else t.node? q := by
  have hhome : ¬ place.isPrefixOf t.home = true := fun hp => h (node?_eq_directory_of_isPrefixOf hp)
  unfold node? put
  dsimp only
  by_cases hq : q = place
  · subst hq
    simp [hhome]
  · have hfind : (t.nodes.filter (·.1 != place)).find? (·.1 == q) = t.nodes.find? (·.1 == q) := by
      rw [← List.head?_filter, ← List.head?_filter, List.filter_filter]
      refine congrArg List.head? (List.filter_congr fun e _ => ?_)
      by_cases he : e.1 = q
      · simp [he, hq]
      · simp [he]
    rw [if_neg hq, List.find?_cons_of_neg (by simpa using Ne.symm hq), hfind]

end

/-! ## Walks -/

section
variable {t : FileTree}

theorem walk_file {place : Place} {contents : Bytes} {ss : List Bytes} {a : Arrival}
    (h : t.walk place (.file contents) ss = .ok a) : ss = [] ∧ a = .present place (.file contents) := by
  cases ss with
  | nil => exact ⟨rfl, (Except.ok.inj h).symm⟩
  | cons s ss => simp [walk] at h

theorem walk_skip {place : Place} {s : Bytes} (ss : List Bytes) (h : s = [] ∨ s = [dot]) :
    t.walk place .directory (s :: ss) = t.walk place .directory ss := by
  rw [walk, if_pos h]

theorem walk_up {place : Place} {s : Bytes} (ss : List Bytes) (h : ¬ (s = [] ∨ s = [dot])) (hup : s = [dot, dot]) :
    t.walk place .directory (s :: ss) = t.walk place.dropLast .directory ss := by
  rw [walk, if_neg h, if_pos hup]

theorem walk_name {place : Place} {s : Bytes} (ss : List Bytes) (h : ¬ (s = [] ∨ s = [dot])) (hup : s ≠ [dot, dot])
    (hlength : ¬ s.length > longestName) : t.walk place .directory (s :: ss) =
      match t.node? (place ++ [s]) with
      | some n => t.walk (place ++ [s]) n ss
      | none => if ss.all (· == []) then .ok (.missing (place ++ [s])) else .error .notFound := by
  rw [walk, if_neg h, if_neg hup]
  exact if_neg hlength

/-- **All that a step of a walk can do**: nothing, go up, or go on to a node or to a missing name. -/
theorem walk_cons_cases {place : Place} {s : Bytes} {ss : List Bytes} {a : Arrival}
    (h : t.walk place .directory (s :: ss) = .ok a) :
    ((s = [] ∨ s = [dot]) ∧ t.walk place .directory ss = .ok a) ∨
    (¬ (s = [] ∨ s = [dot]) ∧ s = [dot, dot] ∧ t.walk place.dropLast .directory ss = .ok a) ∨
    (¬ (s = [] ∨ s = [dot]) ∧ s ≠ [dot, dot] ∧ ¬ s.length > longestName ∧
      ((∃ n, t.node? (place ++ [s]) = some n ∧ t.walk (place ++ [s]) n ss = .ok a) ∨
       (t.node? (place ++ [s]) = none ∧ ss.all (· == []) = true ∧ a = .missing (place ++ [s])))) := by
  by_cases hskip : s = [] ∨ s = [dot]
  · rw [walk_skip ss hskip] at h
    exact Or.inl ⟨hskip, h⟩
  by_cases hup : s = [dot, dot]
  · rw [walk_up ss hskip hup] at h
    exact Or.inr (Or.inl ⟨hskip, hup, h⟩)
  by_cases hlength : s.length > longestName
  · rw [walk, if_neg hskip, if_neg hup, if_pos hlength] at h
    cases h
  · rw [walk_name ss hskip hup hlength] at h
    refine Or.inr (Or.inr ⟨hskip, hup, hlength, ?_⟩)
    cases hnode : t.node? (place ++ [s]) with
    | some n =>
      rw [hnode] at h
      exact Or.inl ⟨n, rfl, h⟩
    | none =>
      rw [hnode] at h
      dsimp only at h
      split at h
      · rename_i hall
        exact Or.inr ⟨rfl, hall, (Except.ok.inj h).symm⟩
      · cases h

theorem filterMap_of_all {ss : List Bytes} (h : ss.all (· == []) = true) : ss.filterMap partOfSegment = [] := by
  rw [List.filterMap_eq_nil_iff]
  intro s hs
  obtain rfl : s = [] := by simpa using List.all_eq_true.1 h s hs
  rfl

/-- **A walk ends where its stretches say.** -/
theorem walk_place : ∀ {ss : List Bytes} {place : Place} {a : Arrival}, t.walk place .directory ss = .ok a →
    a.place = (ss.filterMap partOfSegment).foldl land place
  | [], place, a, h => by
    obtain rfl := Except.ok.inj h
    rfl
  | s :: ss, place, a, h => by
    rcases walk_cons_cases h with ⟨hskip, h⟩ | ⟨hskip, hup, h⟩ | ⟨hskip, hup, -, ⟨n, -, h⟩ | ⟨-, hall, rfl⟩⟩
    · rw [walk_place h, List.filterMap_cons_none (by simp [partOfSegment, hskip])]
    · rw [walk_place h, List.filterMap_cons_some (b := .up) (by simp [partOfSegment, hup])]
      rfl
    · have hs : partOfSegment s = some (.name s) := by simp [partOfSegment, hskip, hup]
      rw [List.filterMap_cons_some hs, List.foldl_cons]
      cases n with
      | directory => exact walk_place h
      | file contents =>
        obtain ⟨rfl, rfl⟩ := walk_file h
        rfl
    -- Behind a missing name there are only empty stretches, which mean nothing.
    · have hs : partOfSegment s = some (.name s) := by simp [partOfSegment, hskip, hup]
      rw [List.filterMap_cons_some hs, List.foldl_cons, filterMap_of_all hall]
      rfl

theorem node?_of_walk_file : ∀ {ss : List Bytes} {place q : Place} {contents : Bytes},
    t.walk place .directory ss = .ok (.present q (.file contents)) → t.node? q = some (.file contents)
  | [], _, _, _, h => by cases Except.ok.inj h
  | s :: ss, place, q, contents, h => by
    rcases walk_cons_cases h with ⟨-, h⟩ | ⟨-, -, h⟩ | ⟨-, -, -, ⟨n, hn, h⟩ | ⟨-, -, hmissing⟩⟩
    · exact node?_of_walk_file h
    · exact node?_of_walk_file h
    · cases n with
      | directory => exact node?_of_walk_file h
      | file other =>
        obtain ⟨-, heq⟩ := walk_file h
        cases heq
        exact hn
    · cases hmissing

theorem node?_of_walk_missing : ∀ {ss : List Bytes} {place q : Place},
    t.walk place .directory ss = .ok (.missing q) → t.node? q = none
  | [], _, _, h => by cases Except.ok.inj h
  | s :: ss, place, q, h => by
    rcases walk_cons_cases h with ⟨-, h⟩ | ⟨-, -, h⟩ | ⟨-, -, -, ⟨n, -, h⟩ | ⟨hn, -, hmissing⟩⟩
    · exact node?_of_walk_missing h
    · exact node?_of_walk_missing h
    · cases n with
      | directory => exact node?_of_walk_missing h
      | file other =>
        obtain ⟨-, heq⟩ := walk_file h
        cases heq
    · cases hmissing
      exact hn

/-- **What is put at a missing name is found there**, unless a separator follows the name. -/
theorem walk_put_missing {contents : Bytes} : ∀ {ss : List Bytes} {place q : Place},
    t.walk place .directory ss = .ok (.missing q) → ss.getLast? ≠ some [] →
      (t.put q (.file contents)).walk place .directory ss = .ok (.present q (.file contents))
  | [], _, _, h, _ => by cases Except.ok.inj h
  | s :: ss, place, q, h, hlast => by
    have hmissing : t.node? q ≠ some .directory := by
      rw [node?_of_walk_missing h]
      simp
    -- The stretches that follow end as these do, since a walk that has not ended has a stretch to follow.
    have htail : ∀ {place : Place}, t.walk place .directory ss = .ok (.missing q) → ss.getLast? ≠ some [] := by
      intro place h
      cases ss with
      | nil => cases Except.ok.inj h
      | cons r rs => rwa [List.getLast?_cons_cons] at hlast
    rcases walk_cons_cases h with ⟨hskip, h⟩ | ⟨hskip, hup, h⟩ | ⟨hskip, hup, hlength, ⟨n, hn, h⟩ | ⟨hn, hall, heq⟩⟩
    · rw [walk_skip ss hskip]
      exact walk_put_missing h (htail h)
    · rw [walk_up ss hskip hup]
      exact walk_put_missing h (htail h)
    · cases n with
      | file other =>
        obtain ⟨-, heq⟩ := walk_file h
        cases heq
      | directory =>
        have hne : place ++ [s] ≠ q := by
          rintro rfl
          rw [hn] at hmissing
          exact hmissing rfl
        rw [walk_name ss hskip hup hlength, node?_put hmissing, if_neg hne, hn]
        exact walk_put_missing h (htail h)
    · cases heq
      -- Only empty stretches could follow, and the last one is not empty.
      have hnil : ss = [] := by
        by_contra hne
        obtain ⟨r, hr⟩ := Option.ne_none_iff_exists'.1 (mt List.getLast?_eq_none_iff.1 hne)
        obtain rfl : r = [] := by simpa using List.all_eq_true.1 hall r (List.mem_of_getLast? hr)
        obtain ⟨x, xs, rfl⟩ := List.exists_cons_of_ne_nil hne
        rw [List.getLast?_cons_cons] at hlast
        exact hlast hr
      rw [hnil, walk_name [] hskip hup hlength, node?_put hmissing, if_pos rfl]
      rfl

end

/-! ## Trees that grow -/

/-- Directories stay directories and files stay files, whatever they hold. -/
structure Grows (t t' : FileTree) : Prop where
  home : t'.home = t.home
  directory : ∀ q, t.node? q = some .directory → t'.node? q = some .directory
  file : ∀ q contents, t.node? q = some (.file contents) → ∃ contents', t'.node? q = some (.file contents')

namespace Grows

variable {t t' : FileTree}

theorem landing_eq (h : t.Grows t') (p : Path) : t'.landing p = t.landing p := by
  rw [landing, landing, h.home]

theorem walk (h : t.Grows t') {contents contents' : Bytes} : ∀ {ss : List Bytes} {place q : Place},
    t.walk place .directory ss = .ok (.present q (.file contents)) → t'.node? q = some (.file contents') →
      t'.walk place .directory ss = .ok (.present q (.file contents'))
  | [], _, _, hwalk, _ => by cases Except.ok.inj hwalk
  | s :: ss, place, q, hwalk, hq => by
    rcases walk_cons_cases hwalk with
      ⟨hskip, hwalk⟩ | ⟨hskip, hup, hwalk⟩ | ⟨hskip, hup, hlength, ⟨n, hn, hwalk⟩ | ⟨-, -, heq⟩⟩
    · rw [walk_skip ss hskip]
      exact h.walk hwalk hq
    · rw [walk_up ss hskip hup]
      exact h.walk hwalk hq
    · rw [walk_name ss hskip hup hlength]
      cases n with
      | directory =>
        rw [h.directory _ hn]
        exact h.walk hwalk hq
      | file other =>
        obtain ⟨rfl, heq⟩ := walk_file hwalk
        cases heq
        rw [hq]
        rfl
    · cases heq

end Grows

/-! ## Arriving -/

section
variable {t : FileTree} {p : Path}

/-- Where walks along a path start. -/
def origin (t : FileTree) (p : Path) : Place := if p.isAbsolute then [] else t.home

theorem foldl_land_origin (t : FileTree) (p : Path) : (Path.inner p.octets).foldl land (t.origin p) = t.landing p := by
  rw [landing, Path.parts_eq, Path.opening, origin]
  split
  · rfl
  · split <;> rfl

theorem walk_of_arrive {a : Arrival} (h : t.arrive p = .ok a) :
    p.octets ≠ [] ∧ t.walk (t.origin p) .directory (stretches p.octets) = .ok a := by
  unfold arrive at h
  rw [Path.segments, Path.map_octets_segmentsFrom] at h
  split at h
  · cases h
  split at h
  · cases h
  rename_i hempty
  split at h
  · cases h
  exact ⟨hempty, h⟩

/-- In a tree with the same working directory one arrives where the walk ends. -/
theorem arrive_of_walk {t' : FileTree} {a a' : Arrival} (h : t.arrive p = .ok a) (hhome : t'.home = t.home)
    (hwalk : t'.walk (t.origin p) .directory (stretches p.octets) = .ok a') : t'.arrive p = .ok a' := by
  rw [origin, ← hhome] at hwalk
  unfold arrive at h ⊢
  rw [Path.segments, Path.map_octets_segmentsFrom] at h ⊢
  split at h
  · cases h
  rename_i hnul
  split at h
  · cases h
  rename_i hempty
  split at h
  · cases h
  rename_i hlong
  rw [if_neg hnul, if_neg hempty, if_neg hlong]
  exact hwalk

/-- **One arrives where the parts of the path lead.** -/
theorem arrive_place {a : Arrival} (h : t.arrive p = .ok a) : a.place = t.landing p := by
  rw [walk_place (walk_of_arrive h).2, ← foldl_land_origin]
  rfl

theorem node?_of_arrive_file {q : Place} {contents : Bytes} (h : t.arrive p = .ok (.present q (.file contents))) :
    t.node? q = some (.file contents) :=
  node?_of_walk_file (walk_of_arrive h).2

/-- **A file that was there is found again**, with what it holds by then. -/
theorem Grows.arrive_file {t' : FileTree} (h : t.Grows t') {q : Place} {contents contents' : Bytes}
    (hp : t.arrive p = .ok (.present q (.file contents))) (hq : t'.node? q = some (.file contents')) :
    t'.arrive p = .ok (.present q (.file contents')) :=
  arrive_of_walk hp h.home (h.walk (walk_of_arrive hp).2 hq)

theorem read_eq_ok_iff {contents : Bytes} :
    t.read p = .ok contents ↔ t.arrive p = .ok (.present (t.landing p) (.file contents)) := by
  unfold read
  cases h : t.arrive p with
  | error denial => simp
  | ok a =>
    have hplace := arrive_place h
    rcases a with ⟨q, _ | contents'⟩ | q
    · obtain rfl : q = t.landing p := hplace
      simp
    · simp
    · simp

end

end Folio.FileTree
