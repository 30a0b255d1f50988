import Folio.Proofs.Stack.Balance
/-!
# Guards

Who enters a path gets a guard, and to drop the guard takes the path off the stack again.  A guard does not know its
path: whichever is dropped, the latest path goes.  So in any order of drops there are as many paths on the stack as
guards alive (`Guarded.Even`), but the paths are those of the guards alive only as long as each drop is of the latest
guard (`guards_faithful_iff`).
-/
namespace Folio

/-- A scope in use. -/
structure Guarded where
  session : Session RenderStack
  /-- The paths in normal form whose guards are alive, the oldest guard's first. -/
  alive : List Path

inductive GuardStep where
  | enter (p : Path)
  /-- Drops a guard that is alive, by its place among these. -/
  | drop (i : Nat)

namespace Guarded

def start (channel : Channel) : Guarded := ⟨⟨channel, .empty⟩, []⟩

/-- Who cannot enter gets no guard; and a guard that is not there cannot be dropped. -/
def step (scope : Scope) (g : Guarded) : GuardStep → Guarded
  | .enter p =>
    match scope.enter p g.session with
    | .ok session => ⟨session, g.alive ++ [scope.resolve p]⟩
    | .error _ => g
  | .drop i => if i < g.alive.length then ⟨g.session.leave, g.alive.eraseIdx i⟩ else g

/-- What guards are for: the paths that cannot be entered are those whose guards are alive, and the run renders the file
of the oldest guard. -/
structure Faithful (scope : Scope) (g : Guarded) : Prop where
  refused : ∀ p, (∃ chain, scope.enter p g.session = .error (.cyclic (scope.resolve p) chain)) ↔
    scope.resolve p ∈ g.alive
  current : g.session.engine.current? = g.alive.head?

/-- Each drop is of the latest guard alive. -/
def LatestFirst (scope : Scope) : Guarded → List GuardStep → Prop
  | _, [] => True
  | g, .enter p :: steps => LatestFirst scope (g.step scope (.enter p)) steps
  | g, .drop i :: steps =>
    (i < g.alive.length → i + 1 = g.alive.length) ∧ LatestFirst scope (g.step scope (.drop i)) steps

variable {scope : Scope} {g : Guarded} {p : Path} {i : Nat}

theorem step_enter_of_mem (h : scope.resolve p ∈ g.session.engine.paths) : g.step scope (.enter p) = g := by
  simp only [step, Scope.enter_of_mem h]

theorem step_enter_of_not_mem (h : scope.resolve p ∉ g.session.engine.paths) :
    (g.step scope (.enter p)).session.engine.paths = g.session.engine.paths ++ [scope.resolve p] ∧
      (g.step scope (.enter p)).alive = g.alive ++ [scope.resolve p] := by
  simp only [step, Scope.enter_of_not_mem h, RenderStack.become, and_self]

theorem step_drop (scope : Scope) (h : i < g.alive.length) :
    (g.step scope (.drop i)).session.engine.paths = g.session.engine.paths.dropLast ∧
      (g.step scope (.drop i)).alive = g.alive.eraseIdx i := by
  simp only [step, if_pos h, Session.leave, RenderStack.leave, RenderStack.become, and_self]

theorem step_drop_of_le (h : g.alive.length ≤ i) : g.step scope (.drop i) = g := by
  simp only [step, if_neg (Nat.not_lt.2 h)]

/-- What every step keeps holds all along. -/
theorem forall_mem_scanl {P : Guarded → Prop} (hstep : ∀ g step, P g → P (g.step scope step)) :
    ∀ {g : Guarded}, P g → ∀ (steps : List GuardStep), ∀ g' ∈ steps.scanl (step scope) g, P g'
  | _, h, [], g', hg' => by
    rw [List.scanl_nil] at hg'
    rwa [List.mem_singleton.1 hg']
  | g, h, s :: steps, g', hg' => by
    rw [List.scanl_cons] at hg'
    rcases List.mem_cons.1 hg' with rfl | hg'
    · exact h
    · exact forall_mem_scanl hstep (hstep g s h) steps g' hg'

/-! ## Drops in any order -/

/-- There are as many paths on the stack as guards alive, and no path twice. -/
structure Even (g : Guarded) : Prop where
  nodup : g.session.engine.paths.Nodup
  length : g.session.engine.paths.length = g.alive.length

namespace Even

theorem step (h : g.Even) : ∀ step : GuardStep, (g.step scope step).Even
  | .enter p => by
    by_cases hp : scope.resolve p ∈ g.session.engine.paths
    · rwa [step_enter_of_mem hp]
    · obtain ⟨hpaths, halive⟩ := step_enter_of_not_mem hp
      refine ⟨?_, ?_⟩
      · rw [hpaths, ← List.concat_eq_append]
        exact h.nodup.concat hp
      · simp only [hpaths, halive, List.length_append, h.length, List.length_singleton]
  | .drop i => by
    by_cases hi : i < g.alive.length
    · obtain ⟨hpaths, halive⟩ := step_drop scope hi
      refine ⟨?_, ?_⟩
      · rw [hpaths]
        exact h.nodup.sublist (List.dropLast_sublist _)
      · rw [hpaths, halive, List.length_dropLast, List.length_eraseIdx_of_lt hi, h.length]
    · rwa [step_drop_of_le (Nat.not_lt.1 hi)]

theorem scanl (h : g.Even) (steps : List GuardStep) : ∀ g' ∈ steps.scanl (Guarded.step scope) g, g'.Even :=
  forall_mem_scanl (fun _ step h => h.step step) h steps

theorem current?_eq_none_iff (h : g.Even) : g.session.engine.current? = none ↔ g.alive = [] := by
  unfold RenderStack.current?
  rw [List.head?_eq_none_iff, ← List.length_eq_zero_iff, h.length, List.length_eq_zero_iff]

end Even

/-- All paths on the stack were resolved. -/
def Resolved (scope : Scope) (g : Guarded) : Prop := ∀ key ∈ g.session.engine.paths, ∃ p, scope.resolve p = key

/-- Entering puts a resolved path on the stack, and dropping a guard puts none. -/
theorem Resolved.step (h : g.Resolved scope) : ∀ step : GuardStep, (g.step scope step).Resolved scope
  | .enter p => by
    by_cases hp : scope.resolve p ∈ g.session.engine.paths
    · rwa [step_enter_of_mem hp]
    · intro key hkey
      rw [(step_enter_of_not_mem hp).1] at hkey
      rcases List.mem_append.1 hkey with hkey | hkey
      · exact h key hkey
      · exact ⟨p, (List.mem_singleton.1 hkey).symm⟩
  | .drop i => by
    by_cases hi : i < g.alive.length
    · intro key hkey
      rw [(step_drop scope hi).1] at hkey
      exact h key (List.dropLast_subset _ hkey)
    · rwa [step_drop_of_le (Nat.not_lt.1 hi)]

theorem Resolved.scanl (h : g.Resolved scope) (steps : List GuardStep) :
    ∀ g' ∈ steps.scanl (Guarded.step scope) g, g'.Resolved scope :=
  forall_mem_scanl (fun _ step h => h.step step) h steps

/-! ## Drops in turn -/

/-- The paths on the stack are those of the guards alive, in order. -/
structure Aligned (scope : Scope) (g : Guarded) : Prop where
  paths : g.session.engine.paths = g.alive
  resolved : ∀ key ∈ g.alive, ∃ p, scope.resolve p = key

namespace Aligned

theorem start (channel : Channel) : (Guarded.start channel).Aligned scope := ⟨rfl, fun _ hkey => nomatch hkey⟩

theorem faithful (h : g.Aligned scope) : g.Faithful scope where
  refused p := by
    rw [← h.paths]
    by_cases hp : scope.resolve p ∈ g.session.engine.paths
    · exact ⟨fun _ => hp, fun _ => ⟨_, Scope.enter_of_mem hp⟩⟩
    · rw [Scope.enter_of_not_mem hp]
      refine ⟨?_, fun hp' => absurd hp' hp⟩
      rintro ⟨_, ⟨⟩⟩
  current := by
    unfold RenderStack.current?
    rw [h.paths]

/-- A step that keeps the paths to those of the guards keeps them resolved as well. -/
theorem of_step (h : g.Aligned scope) {step : GuardStep}
    (hpaths : (g.step scope step).session.engine.paths = (g.step scope step).alive) :
    (g.step scope step).Aligned scope := by
  have hresolved : g.Resolved scope := fun key hkey => h.resolved key (h.paths ▸ hkey)
  exact ⟨hpaths, fun key hkey => hresolved.step step key (hpaths.symm ▸ hkey)⟩

theorem enter (h : g.Aligned scope) (p : Path) : (g.step scope (.enter p)).Aligned scope := by
  by_cases hp : scope.resolve p ∈ g.session.engine.paths
  · rwa [step_enter_of_mem hp]
  · obtain ⟨hpaths, halive⟩ := step_enter_of_not_mem hp
    exact h.of_step (by rw [hpaths, halive, h.paths])

theorem drop (h : g.Aligned scope) (hi : i < g.alive.length → i + 1 = g.alive.length) :
    (g.step scope (.drop i)).Aligned scope := by
  by_cases hlt : i < g.alive.length
  · obtain ⟨hpaths, halive⟩ := step_drop scope hlt
    rw [List.eraseIdx_eq_dropLast (hi hlt)] at halive
    exact h.of_step (by rw [hpaths, halive, h.paths])
  · rwa [step_drop_of_le (Nat.not_lt.1 hlt)]

/-- The path of a guard that was dropped out of turn is refused, though its guard is not alive. -/
theorem not_faithful_drop (h : g.Aligned scope) (hnodup : g.alive.Nodup) (hi : i + 1 < g.alive.length) :
    ¬ (g.step scope (.drop i)).Faithful scope := by
  intro hfaithful
  have hlt : i < g.alive.length := by omega
  obtain ⟨hpaths, halive⟩ := step_drop scope hlt
  obtain ⟨p, hp⟩ := h.resolved g.alive[i] (List.getElem_mem hlt)
  have hmarked : scope.resolve p ∈ (g.step scope (.drop i)).session.engine.paths := by
    rw [hpaths, h.paths, hp, List.dropLast_eq_take, List.mem_take_iff_getElem]
    exact ⟨i, by omega, rfl⟩
  have hgone := (hfaithful.refused p).1 ⟨_, Scope.enter_of_mem hmarked⟩
  rw [halive, hp, List.mem_eraseIdx_iff_getElem] at hgone
  obtain ⟨j, hj, hne, heq⟩ := hgone
  exact hne ((List.getElem_inj hnodup).1 heq)

end Aligned

/-- Guards do what they are for all along if and only if each drop is of the latest. -/
theorem faithful_scanl_iff : ∀ {g : Guarded}, g.Even → g.Aligned scope → ∀ steps : List GuardStep,
    (∀ g' ∈ steps.scanl (Guarded.step scope) g, g'.Faithful scope) ↔ g.LatestFirst scope steps
  | g, _, ha, [] => by
    rw [List.scanl_nil, List.forall_mem_singleton]
    exact ⟨fun _ => trivial, fun _ => ha.faithful⟩
  | g, he, ha, .enter p :: steps => by
    rw [List.scanl_cons, List.forall_mem_cons, faithful_scanl_iff (he.step _) (ha.enter p) steps]
    exact ⟨And.right, fun hlatest => ⟨ha.faithful, hlatest⟩⟩
  | g, he, ha, .drop i :: steps => by
    rw [List.scanl_cons, List.forall_mem_cons]
    constructor
    -- A drop out of turn shows in the state right after it, so it cannot be mended by later steps.
    · rintro ⟨-, hsteps⟩
      have hlast : i < g.alive.length → i + 1 = g.alive.length := by
        intro hlt
        refine Nat.le_antisymm hlt (Nat.le_of_not_lt fun hearly => ?_)
        exact ha.not_faithful_drop (ha.paths ▸ he.nodup) hearly (hsteps _ (List.mem_of_head? List.head?_scanl))
      exact ⟨hlast, (faithful_scanl_iff (he.step _) (ha.drop hlast) steps).1 hsteps⟩
    · rintro ⟨hlast, hsteps⟩
      exact ⟨ha.faithful, (faithful_scanl_iff (he.step _) (ha.drop hlast) steps).2 hsteps⟩

end Guarded

/-- **Guards are faithful as long as they are dropped in turn.**  In any order of drops there are as many paths on the
stack as guards alive and no path twice, there is a current file while a guard is alive, a path is refused exactly if it
is on the stack, in which case nothing changes, and a drop takes the latest path off.  So the paths refused are all
along those whose guards are alive, and the current file is the oldest guard's, if and only if each drop is of the
latest guard. -/
theorem guards_faithful_iff (scope : Scope) (channel : Channel) (steps : List GuardStep) :
    (∀ g ∈ steps.scanl (Guarded.step scope) (.start channel),
      g.session.engine.paths.Nodup ∧ g.session.engine.paths.length = g.alive.length ∧
      (g.session.engine.current? = none ↔ g.alive = []) ∧
      (∀ p, scope.resolve p ∈ g.session.engine.paths →
        scope.enter p g.session = .error (.cyclic (scope.resolve p) g.session.engine.paths) ∧
          g.step scope (.enter p) = g) ∧
      (∀ p, scope.resolve p ∉ g.session.engine.paths →
        (g.step scope (.enter p)).session.engine.paths = g.session.engine.paths ++ [scope.resolve p] ∧
          (g.step scope (.enter p)).alive = g.alive ++ [scope.resolve p]) ∧
      ∀ i < g.alive.length,
        (g.step scope (.drop i)).session.engine.paths = g.session.engine.paths.dropLast ∧
          (g.step scope (.drop i)).alive = g.alive.eraseIdx i) ∧
    ((∀ g ∈ steps.scanl (Guarded.step scope) (.start channel), g.Faithful scope) ↔
      (Guarded.start channel).LatestFirst scope steps) := by
  have hstart : (Guarded.start channel).Even := ⟨List.nodup_nil, rfl⟩
  refine ⟨fun g hg => ?_, Guarded.faithful_scanl_iff hstart (.start channel) steps⟩
  have heven := hstart.scanl steps g hg
  exact ⟨heven.nodup, heven.length, heven.current?_eq_none_iff,
    fun p hp => ⟨Scope.enter_of_mem hp, Guarded.step_enter_of_mem hp⟩,
    fun p hp => Guarded.step_enter_of_not_mem hp, fun i hi => Guarded.step_drop scope hi⟩

/-- Two pages are entered, and the guard of the first is dropped: the first page is still refused and still the current
file, though only the guard of the second is alive. -/
theorem guards_unfaithful_out_of_turn :
    let scope : Scope := ⟨.empty [], .ofText "/site", ["html"], .ok, fun _ format => .ok format, ⟨0, 0, 0⟩⟩
    let g := [GuardStep.enter (.ofText "a.html"), .enter (.ofText "b.html"), .drop 0].foldl (Guarded.step scope)
      (.start .empty)
    g.alive = [.ofText "/site/b.html"] ∧ g.session.engine.current? = some (.ofText "/site/a.html") ∧
    scope.enter (.ofText "a.html") g.session = .error (.cyclic (.ofText "/site/a.html") [.ofText "/site/a.html"]) ∧
    ¬ g.Faithful scope := by
  intro scope g
  have halive : g.alive = [.ofText "/site/b.html"] := rfl
  have hcurrent : g.session.engine.current? = some (.ofText "/site/a.html") := rfl
  refine ⟨halive, hcurrent, rfl, fun h => ?_⟩
  have hsame := h.current
  rw [halive, hcurrent] at hsame
  exact absurd (Option.some.inj hsame) (by decide)

end Folio
