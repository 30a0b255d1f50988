import Folio.Config
import Folio.Proofs.Tree.Walking
/-!
# How far paths climb

The parts of a path lead from the root or from where one is, so many levels up, and then down by names (`Route`).  Settled
parts keep every `..` of a relative route and none of a rooted one (`foldl_settle`).  Folded parts keep one if their
number is odd: a `..` that stayed is taken back by the next one (`foldl_fold`).

So a path resolves to what its parts settle to as long as it climbs no more than once, or from the root an even number of
times, and leads elsewhere if it is relative and climbs more often (`Scope.resolve_climbs`).
-/
namespace Folio.Path

/-- Where parts lead: perhaps from the root, some levels up, and down by names. -/
structure Route where
  rooted : Bool
  climbed : Nat
  names : List Bytes
deriving DecidableEq, Repr

namespace Route

/-- Without a step. -/
def start : Route := ⟨false, 0, []⟩

/-- One part on: a `..` goes back by a name if there is one, and else up. -/
def step (r : Route) : Part → Route
  | .root => ⟨true, 0, []⟩
  | .here => r
  | .up => if r.names = [] then { r with climbed := r.climbed + 1 } else { r with names := r.names.dropLast }
  | .name n => { r with names := r.names ++ [n] }

/-- The parts in front of the names, with so many `..`. -/
def opening (r : Route) (ups : Nat) : List Part := (if r.rooted then [.root] else []) ++ List.replicate ups .up

def parts (r : Route) (ups : Nat) : List Part := r.opening ups ++ r.names.map .name

/-- How many levels one gets up, since there is nothing above the root. -/
def ascent (r : Route) : Nat := if r.rooted then 0 else r.climbed

/-- Where a route ends that starts at a place. -/
def landing (r : Route) (place : Place) : Place :=
  (if r.rooted then [] else place.take (place.length - r.climbed)) ++ r.names

theorem parts_nil (rooted : Bool) (climbed ups : Nat) :
    (Route.mk rooted climbed []).parts ups = (Route.mk rooted climbed []).opening ups :=
  List.append_nil _

theorem parts_concat (rooted : Bool) (climbed ups : Nat) (names : List Bytes) (n : Bytes) :
    (Route.mk rooted climbed (names ++ [n])).parts ups = (Route.mk rooted climbed names).parts ups ++ [.name n] := by
  simp [parts, opening]

theorem step_up_nil (rooted : Bool) (climbed : Nat) :
    (Route.mk rooted climbed []).step .up = ⟨rooted, climbed + 1, []⟩ := rfl

theorem step_up_concat (rooted : Bool) (climbed : Nat) (names : List Bytes) (n : Bytes) :
    (Route.mk rooted climbed (names ++ [n])).step .up = ⟨rooted, climbed, names⟩ := by
  simp [step]

/-! ## Settling -/

theorem settle_opening (rooted : Bool) (climbed : Nat) :
    settle ((Route.mk rooted climbed []).opening (ascent ⟨rooted, climbed, []⟩)) .up =
      (Route.mk rooted (climbed + 1) []).opening (ascent ⟨rooted, climbed + 1, []⟩) := by
  cases rooted with
  | true => rfl
  | false =>
    show settle (List.replicate climbed .up) .up = List.replicate (climbed + 1) .up
    cases climbed with
    | zero => rfl
    | succ k =>
      rw [settle, List.getLast?_replicate, if_neg (Nat.succ_ne_zero k), ← List.replicate_succ']

theorem settle_parts (r : Route) (p : Part) : settle (r.parts r.ascent) p = (r.step p).parts (r.step p).ascent := by
  obtain ⟨rooted, climbed, names⟩ := r
  cases p with
  | root => rfl
  | here => rfl
  | name n => exact (parts_concat rooted climbed _ names n).symm
  | up =>
    rcases List.eq_nil_or_concat names with rfl | ⟨names, n, rfl⟩
    · rw [parts_nil, settle_opening, step_up_nil, parts_nil]
    · rw [List.concat_eq_append, parts_concat, settle_concat_name, step_up_concat]
      rfl

/-- **Settled parts keep every `..` that climbs.** -/
theorem foldl_settle : ∀ (ps : List Part) (r : Route),
    ps.foldl settle (r.parts r.ascent) = (ps.foldl step r).parts (ps.foldl step r).ascent
  | [], _ => rfl
  | p :: ps, r => by
    rw [List.foldl_cons, settle_parts, foldl_settle ps, List.foldl_cons]

/-! ## Folding -/

theorem fold_opening (rooted : Bool) (climbed : Nat) :
    fold ((Route.mk rooted climbed []).opening (climbed % 2)) .up =
      (Route.mk rooted (climbed + 1) []).opening ((climbed + 1) % 2) := by
  -- With an odd number of `..` there is one to be taken back.
  rcases Nat.mod_two_eq_zero_or_one climbed with h | h
  · rw [h, show (climbed + 1) % 2 = 1 by omega]
    cases rooted <;> rfl
  · rw [h, show (climbed + 1) % 2 = 0 by omega]
    cases rooted <;> rfl

theorem fold_concat_name (out : List Part) (n : Bytes) : fold (out ++ [.name n]) .up = out := by
  simp [fold]

theorem fold_parts (r : Route) (p : Part) :
    fold (r.parts (r.climbed % 2)) p = (r.step p).parts ((r.step p).climbed % 2) := by
  obtain ⟨rooted, climbed, names⟩ := r
  cases p with
  | root => rfl
  | here => rfl
  | name n => exact (parts_concat rooted climbed _ names n).symm
  | up =>
    rcases List.eq_nil_or_concat names with rfl | ⟨names, n, rfl⟩
    · rw [parts_nil, fold_opening, step_up_nil, parts_nil]
    · rw [List.concat_eq_append, parts_concat, fold_concat_name, step_up_concat]

/-- **Folded parts keep one `..` if an odd number of them climbs.** -/
theorem foldl_fold : ∀ (ps : List Part) (r : Route),
    ps.foldl fold (r.parts (r.climbed % 2)) = (ps.foldl step r).parts ((ps.foldl step r).climbed % 2)
  | [], _ => rfl
  | p :: ps, r => by
    rw [List.foldl_cons, fold_parts, foldl_fold ps, List.foldl_cons]

/-! ## Landing -/

theorem landing_step (r : Route) (place : Place) (p : Part) :
    FileTree.land (r.landing place) p = (r.step p).landing place := by
  obtain ⟨rooted, climbed, names⟩ := r
  cases p with
  | root => rfl
  | here => rfl
  | name n => exact List.append_assoc _ names [n]
  | up =>
    rcases List.eq_nil_or_concat names with rfl | ⟨names, n, rfl⟩
    · rw [step_up_nil]
      cases rooted with
      | true => rfl
      | false =>
        show (place.take (place.length - climbed) ++ []).dropLast = place.take (place.length - (climbed + 1)) ++ []
        rw [List.append_nil, List.append_nil, List.dropLast_eq_take, List.length_take, List.take_take]
        congr 1
        omega
    · rw [List.concat_eq_append, step_up_concat]
      show ((if rooted then [] else _) ++ (names ++ [n])).dropLast = _
      rw [← List.append_assoc, List.dropLast_concat]
      rfl

theorem landing_foldl (place : Place) : ∀ (ps : List Part) (r : Route),
    ps.foldl FileTree.land (r.landing place) = (ps.foldl step r).landing place
  | [], _ => rfl
  | p :: ps, r => by
    rw [List.foldl_cons, landing_step, landing_foldl place ps, List.foldl_cons]

theorem landing_start (place : Place) : start.landing place = place := by
  simp [landing, start]

/-! ## Reading back -/

theorem foldl_step_ups (rooted : Bool) (climbed : Nat) : ∀ ups : Nat,
    (List.replicate ups Part.up).foldl step ⟨rooted, climbed, []⟩ = ⟨rooted, climbed + ups, []⟩
  | 0 => rfl
  | ups + 1 => by
    rw [List.replicate_succ, List.foldl_cons, step_up_nil, foldl_step_ups rooted (climbed + 1) ups,
      Nat.add_right_comm climbed 1, Nat.add_assoc]

theorem foldl_step_names (rooted : Bool) (climbed : Nat) : ∀ names before : List Bytes,
    (names.map Part.name).foldl step ⟨rooted, climbed, before⟩ = ⟨rooted, climbed, before ++ names⟩
  | [], before => by rw [List.append_nil]; rfl
  | n :: names, before => by
    rw [List.map_cons, List.foldl_cons]
    show (names.map Part.name).foldl step ⟨rooted, climbed, before ++ [n]⟩ = _
    rw [foldl_step_names rooted climbed names, List.append_assoc, List.singleton_append]

/-- **Parts say how far they climb.** -/
theorem foldl_step_parts (r : Route) (ups : Nat) : (r.parts ups).foldl step start = { r with climbed := ups } := by
  obtain ⟨rooted, climbed, names⟩ := r
  have hopening : ((Route.mk rooted climbed names).opening ups).foldl step start = ⟨rooted, ups, []⟩ := by
    rw [opening, List.foldl_append]
    have hroot : (if rooted then [Part.root] else []).foldl step start = ⟨rooted, 0, []⟩ := by
      cases rooted <;> rfl
    show (List.replicate ups Part.up).foldl step ((if rooted then [Part.root] else []).foldl step start) = _
    rw [hroot, foldl_step_ups, Nat.zero_add]
  rw [parts, List.foldl_append, hopening]
  exact foldl_step_names rooted ups names []

theorem parts_inj {r : Route} {ups ups' : Nat} : r.parts ups = r.parts ups' ↔ ups = ups' := by
  constructor
  · intro h
    have hread := foldl_step_parts r ups
    rw [h, foldl_step_parts] at hread
    exact (congrArg climbed hread).symm
  · exact congrArg r.parts

theorem mem_names_of_step {r : Route} {p : Part} {n : Bytes} (h : n ∈ (r.step p).names) :
    n ∈ r.names ∨ p = .name n := by
  cases p with
  | root => cases h
  | here => exact .inl h
  | name m =>
    rcases List.mem_append.1 h with h | h
    · exact .inl h
    · exact .inr (congrArg Part.name (List.mem_singleton.1 h).symm)
  | up =>
    simp only [step] at h
    split at h
    · exact .inl h
    · exact .inl (List.dropLast_subset _ h)

theorem mem_names_of_foldl : ∀ (ps : List Part) {r : Route} {n : Bytes}, n ∈ (ps.foldl step r).names →
    n ∈ r.names ∨ .name n ∈ ps
  | [], _, _, h => .inl h
  | p :: ps, r, n, h => by
    rcases mem_names_of_foldl ps h with hstep | hps
    · rcases mem_names_of_step hstep with hr | rfl
      · exact .inl hr
      · exact .inr List.mem_cons_self
    · exact .inr (List.mem_cons_of_mem _ hps)

theorem rooted_step (r : Route) (p : Part) : (r.step p).rooted = true ↔ r.rooted = true ∨ p = .root := by
  cases p with
  | root => exact iff_of_true rfl (.inr rfl)
  | here => simp [step]
  | name n => simp [step]
  | up =>
    simp only [step]
    split <;> simp

/-- Once from the root, a route stays there. -/
theorem rooted_foldl_step : ∀ (ps : List Part) (r : Route),
    (ps.foldl step r).rooted = true ↔ r.rooted = true ∨ .root ∈ ps
  | [], r => by simp
  | p :: ps, r => by
    rw [List.foldl_cons, rooted_foldl_step ps, rooted_step, List.mem_cons, or_assoc, @eq_comm _ p]

/-- **A route over plain names is read back as it was written.** -/
theorem parts_ofParts {r : Route} (h : ∀ n ∈ r.names, IsPlain n) (ups : Nat) :
    (ofParts (r.parts ups)).parts = r.parts ups := by
  have hsteps : ∀ p ∈ List.replicate ups .up ++ r.names.map .name, IsStep p := by
    intro p hp
    rcases List.mem_append.1 hp with hp | hp
    · obtain rfl := List.eq_of_mem_replicate hp
      exact .up
    · obtain ⟨n, hn, rfl⟩ := List.mem_map.1 hp
      exact .name (h n hn)
  rw [parts, opening, List.append_assoc]
  exact parts_ofParts_steps r.rooted hsteps

end Route

/-- Where the parts of a path lead. -/
def route (p : Path) : Route := p.parts.foldl Route.step Route.start

variable (p : Path)

theorem isPlain_of_mem_route {p : Path} {n : Bytes} (h : n ∈ p.route.names) : IsPlain n :=
  isPlain_of_mem_parts ((Route.mem_names_of_foldl p.parts h).resolve_left (fun hn => nomatch hn))

theorem settled_eq_route : p.settled = p.route.parts p.route.ascent :=
  Route.foldl_settle p.parts Route.start

theorem folded_eq_route : folded p.parts = p.route.parts (p.route.climbed % 2) :=
  Route.foldl_fold p.parts Route.start

theorem parts_normal : p.normal.parts = p.route.parts (p.route.climbed % 2) := by
  rw [normal, folded_eq_route]
  exact Route.parts_ofParts (fun _ => isPlain_of_mem_route) _

theorem parts_normal_eq_folded : p.normal.parts = folded p.parts := by
  rw [parts_normal, folded_eq_route]

theorem route_normal : p.normal.route = { p.route with climbed := p.route.climbed % 2 } := by
  rw [route, parts_normal, Route.foldl_step_parts]

theorem rooted_route : p.route.rooted = true ↔ p.isAbsolute = true := by
  rw [route, Route.rooted_foldl_step, root_mem_parts_iff]
  exact or_iff_right (fun h => nomatch h)

/-- A normal form is absolute exactly if the path is. -/
theorem isAbsolute_normal : p.normal.isAbsolute = true ↔ p.isAbsolute = true := by
  rw [← rooted_route, route_normal]
  exact p.rooted_route

theorem landing_eq_route (t : FileTree) : t.landing p = p.route.landing t.home := by
  have hstart := Route.landing_foldl t.home p.parts Route.start
  rwa [Route.landing_start] at hstart

/-- **A path and its normal form lead to the same place everywhere** unless it is relative and climbs more than once. -/
theorem landing_normal_iff :
    (∀ t : FileTree, t.landing p.normal = t.landing p) ↔ p.route.rooted = true ∨ p.route.climbed ≤ 1 := by
  simp only [landing_eq_route, route_normal]
  generalize p.route = r
  obtain ⟨rooted, climbed, names⟩ := r
  cases rooted with
  | true => simp [Route.landing]
  | false =>
    constructor
    -- A working directory as deep as the path climbs tells the two apart.
    · intro h
      have hlength := congrArg List.length (h ⟨[], List.replicate climbed []⟩)
      simp [Route.landing] at hlength
      right
      show climbed ≤ 1
      omega
    · rintro (hrooted | hclimbed)
      · cases hrooted
      · intro t
        show (Route.mk false (climbed % 2) names).landing t.home = _
        rw [Nat.mod_eq_of_lt (Nat.lt_succ_of_le hclimbed)]

end Folio.Path

namespace Folio

/-- **A path resolves to what it settles to unless it climbs too often.**  Of the `..` that climb, one is left if their
number is odd and none if it is even, where all are to be left in a relative path and none behind the root.  So another
file is named if the path is relative and climbs more than once, and another path to the same file if it climbs an odd
number of times from the root. -/
theorem Scope.resolve_settled_iff (scope : Scope) (p : Path) :
    let target := scope.root.join p
    let r := target.route
    target.settled = r.parts r.ascent ∧
    (scope.resolve p).parts = r.parts (r.climbed % 2) ∧
    (scope.resolve p = .ofParts target.settled ↔ r.climbed % 2 = r.ascent) ∧
    ((∀ t : FileTree, t.landing (scope.resolve p) = t.landing target) ↔ r.rooted = true ∨ r.climbed ≤ 1) := by
  intro target r
  have hsettled : target.settled = r.parts r.ascent := target.settled_eq_route
  have hresolved : scope.resolve p = .ofParts (r.parts (r.climbed % 2)) :=
    congrArg Path.ofParts target.folded_eq_route
  refine ⟨hsettled, target.parts_normal, ?_, target.landing_normal_iff⟩
  rw [hresolved, hsettled]
  constructor
  · intro h
    have hplain : ∀ n ∈ r.names, Path.IsPlain n := fun _ => Path.isPlain_of_mem_route
    have hparts := congrArg Path.parts h
    rw [Path.Route.parts_ofParts hplain, Path.Route.parts_ofParts hplain] at hparts
    exact Path.Route.parts_inj.1 hparts
  · intro h
    rw [h]

/-- Three levels up from `site`, two `..` take each other back and another file is read; one level above the top, a `..`
stays behind the root. -/
theorem resolve_climbs_astray :
    let note : Path := .ofText "../../../note.md"
    let above : Place := [Bytes.ofText "note.md"]
    let home : Place := [Bytes.ofText "a", Bytes.ofText "b"]
    let tree : FileTree := ⟨[(home ++ [Bytes.ofText "site"], .directory), (above, .file (Bytes.ofText "above")),
      (home ++ above, .file (Bytes.ofText "below"))], home⟩
    let relative := ((Config.default (.ofText "/a/b")).withRoot (.ofText "site")).scope tree ⟨0, 0, 0⟩
    let absolute := ((Config.default (.ofText "/a/b")).withRoot (.ofText "/site")).scope tree ⟨0, 0, 0⟩
    Path.ofParts (relative.root.join note).settled = .ofText "../../note.md" ∧
    relative.resolve note = .ofText "note.md" ∧
    tree.read (relative.root.join note) = .ok (Bytes.ofText "above") ∧
    (relative.readMatter note).map (·.body) = .ok "below" ∧
    Path.ofParts (absolute.root.join (.ofText "../../note.md")).settled = .ofText "/note.md" ∧
    absolute.resolve (.ofText "../../note.md") = .ofText "/../note.md" := by
  intro note above home tree relative absolute
  refine ⟨by decide +kernel, by decide +kernel, rfl, rfl, by decide +kernel, by decide +kernel⟩

end Folio
