import Folio.Proofs.Channel
/-!
# Channels behind handles

A channel is reached through handles, and a handle can be cloned: the clone leads to the channel that the handle leads to
(`Handles`).  Whatever the handles in use, a channel comes to what its own uses make of it, one after the other
(`outlet_run`).  So a channel neither loses nor repeats nor reorders a report: what its drains have given and what is still
waiting are all that was reported, and a listener has heard what was reported since it subscribed (`handles_conserve`).
-/
namespace Folio

/-- What is done with a channel. -/
inductive ChannelUse where
  | report (r : Report)
  | drain
  | subscribe
deriving DecidableEq

namespace ChannelUse

def report? : ChannelUse → Option Report
  | .report r => some r
  | _ => none

/-- The reports among uses, in order. -/
def reports (us : List ChannelUse) : List Report := us.filterMap report?

theorem reports_append (us us' : List ChannelUse) : reports (us ++ us') = reports us ++ reports us' :=
  List.filterMap_append

end ChannelUse

/-- A channel with what its drains have given. -/
structure Outlet where
  channel : Channel
  /-- The answer of each drain, the first one first. -/
  drained : List (List Report)

namespace Outlet

open ChannelUse (reports)

def fresh : Outlet := ⟨.empty, []⟩

def use (o : Outlet) : ChannelUse → Outlet
  | .report r => { o with channel := o.channel.report r }
  | .drain => ⟨o.channel.drain.2, o.drained ++ [o.channel.drain.1]⟩
  | .subscribe => { o with channel := o.channel.subscribe }

def useAll (o : Outlet) (us : List ChannelUse) : Outlet := us.foldl use o

theorem useAll_append (o : Outlet) (us us' : List ChannelUse) : o.useAll (us ++ us') = (o.useAll us).useAll us' :=
  List.foldl_append

/-! ## The queue -/

/-- A use adds its report, if it is one, to what was drained and what is waiting. -/
theorem flatten_drained_use (o : Outlet) (u : ChannelUse) :
    (o.use u).drained.flatten ++ (o.use u).channel.pending =
      o.drained.flatten ++ o.channel.pending ++ reports [u] := by
  cases u with
  | report r =>
    show o.drained.flatten ++ (o.channel.pending ++ [r]) = o.drained.flatten ++ o.channel.pending ++ [r]
    rw [List.append_assoc]
  | drain =>
    show (o.drained ++ [o.channel.pending]).flatten ++ [] = o.drained.flatten ++ o.channel.pending ++ []
    rw [List.flatten_append, List.flatten_singleton]
  | subscribe => exact (List.append_nil _).symm

/-- **No report is lost, repeated or moved**: what was drained and what is waiting are what was reported. -/
theorem flatten_drained_useAll : ∀ (us : List ChannelUse) (o : Outlet),
    (o.useAll us).drained.flatten ++ (o.useAll us).channel.pending =
      o.drained.flatten ++ o.channel.pending ++ reports us
  | [], _ => (List.append_nil _).symm
  | u :: us, o => by
    have hrest := flatten_drained_useAll us (o.use u)
    rw [flatten_drained_use, List.append_assoc, ← ChannelUse.reports_append] at hrest
    exact hrest

/-- Without a drain the reports wait behind those that were waiting. -/
theorem pending_useAll : ∀ (us : List ChannelUse) (o : Outlet), ChannelUse.drain ∉ us →
    (o.useAll us).channel.pending = o.channel.pending ++ reports us
  | [], _, _ => (List.append_nil _).symm
  | u :: us, o, h => by
    obtain ⟨hu, hus⟩ : .drain ≠ u ∧ .drain ∉ us := by simpa using h
    have hrest := pending_useAll us (o.use u) hus
    have hfirst : (o.use u).channel.pending = o.channel.pending ++ reports [u] := by
      cases u with
      | report r => rfl
      | drain => exact absurd rfl hu
      | subscribe => exact (List.append_nil _).symm
    rw [hfirst, List.append_assoc, ← ChannelUse.reports_append] at hrest
    exact hrest

/-- The reports since the last drain are waiting. -/
theorem pending_since_drain (o : Outlet) {before after : List ChannelUse} (h : ChannelUse.drain ∉ after) :
    (o.useAll (before ++ .drain :: after)).channel.pending = reports after := by
  rw [useAll_append]
  exact pending_useAll after ((o.useAll before).use .drain) h

/-! ## Listeners -/

theorem listeners_useAll : ∀ (us : List ChannelUse) (o : Outlet),
    (o.useAll us).channel.listeners = o.channel.listeners + us.count .subscribe
  | [], _ => rfl
  | u :: us, o => by
    have hrest := listeners_useAll us (o.use u)
    have hfirst : (o.use u).channel.listeners = o.channel.listeners + [u].count .subscribe := by
      cases u <;> rfl
    rw [hfirst, Nat.add_assoc, ← List.count_append] at hrest
    exact hrest

/-- A listener hears the reports while it listens. -/
theorem heardBy_useAll {i : Nat} : ∀ (us : List ChannelUse) (o : Outlet), i < o.channel.listeners →
    (o.useAll us).channel.heardBy i = o.channel.heardBy i ++ reports us
  | [], _, _ => (List.append_nil _).symm
  | u :: us, o, hi => by
    have hstill : i < (o.use u).channel.listeners := by
      have hle : o.channel.listeners ≤ (o.use u).channel.listeners := by
        cases u with
        | subscribe => exact Nat.le_succ _
        | _ => exact Nat.le_refl _
      exact Nat.lt_of_lt_of_le hi hle
    have hrest := heardBy_useAll us (o.use u) hstill
    have hfirst : (o.use u).channel.heardBy i = o.channel.heardBy i ++ reports [u] := by
      cases u with
      | report r => exact Channel.heardBy_report hi r
      | _ => exact (List.append_nil _).symm
    rw [hfirst, List.append_assoc, ← ChannelUse.reports_append] at hrest
    exact hrest

/-- Who has not subscribed has heard nothing. -/
def Discreet (o : Outlet) : Prop := ∀ i, o.channel.listeners ≤ i → o.channel.heardBy i = []

theorem Discreet.use {o : Outlet} (h : o.Discreet) (u : ChannelUse) : (o.use u).Discreet := by
  intro i hi
  cases u with
  | report r =>
    have hout : ¬ i < o.channel.listeners := Nat.not_lt.2 hi
    have hnobody : (List.range o.channel.listeners).filter (· == i) = [] := by
      rw [List.filter_beq, List.count_range, if_neg hout]
      rfl
    have hnew : (((List.range o.channel.listeners).map (Heard.mk · r)).filter (·.listener == i)).map (·.report) = [] := by
      rw [List.filter_map, List.map_map]
      show ((List.range o.channel.listeners).filter (· == i)).map (fun _ => r) = []
      rw [hnobody]
      rfl
    show ((o.channel.heard ++ _).filter (·.listener == i)).map (·.report) = []
    rw [List.filter_append, List.map_append, hnew, List.append_nil]
    exact h i hi
  | drain => exact h i hi
  | subscribe => exact h i (Nat.le_of_succ_le hi)

theorem Discreet.useAll {o : Outlet} (h : o.Discreet) : ∀ us : List ChannelUse, (o.useAll us).Discreet := by
  intro us
  induction us generalizing o with
  | nil => exact h
  | cons u us ih => exact ih (h.use u)

/-- **A listener has heard what was reported since it subscribed**, each report once and in order. -/
theorem Discreet.heardBy_since {o : Outlet} (h : o.Discreet) (before after : List ChannelUse) :
    (o.useAll (before ++ .subscribe :: after)).channel.heardBy (o.useAll before).channel.listeners = reports after := by
  rw [useAll_append]
  have hnew := heardBy_useAll (i := (o.useAll before).channel.listeners) after ((o.useAll before).use .subscribe)
    (Nat.lt_succ_self _)
  have hnothing : ((o.useAll before).use .subscribe).channel.heardBy (o.useAll before).channel.listeners = [] :=
    h.useAll before _ (Nat.le_refl _)
  rw [hnothing, List.nil_append] at hnew
  exact hnew

end Outlet

/-! ## Handles -/

/-- Channels, and the handles on them. -/
structure Handles where
  outlets : List Outlet
  /-- The place of the channel that each handle leads to. -/
  targets : List Nat

inductive HandleStep where
  /-- A new channel with a handle on it. -/
  | create
  | clone (handle : Nat)
  | use (handle : Nat) (u : ChannelUse)

namespace Handles

def start : Handles := ⟨[], []⟩

def step (h : Handles) : HandleStep → Handles
  | .create => ⟨h.outlets ++ [.fresh], h.targets ++ [h.outlets.length]⟩
  | .clone i =>
    match h.targets[i]? with
    | some a => { h with targets := h.targets ++ [a] }
    | none => h
  | .use i u =>
    match h.targets[i]? with
    | some a => { h with outlets := h.outlets.modify a (·.use u) }
    | none => h

def run (h : Handles) (steps : List HandleStep) : Handles := steps.foldl step h

/-- The use that a step makes of a channel. -/
def use? (h : Handles) (a : Nat) : HandleStep → Option ChannelUse
  | .use i u => if h.targets[i]? = some a then some u else none
  | _ => none

/-- The uses of a channel in a run, through whichever handles that lead to it. -/
def uses (a : Nat) : Handles → List HandleStep → List ChannelUse
  | _, [] => []
  | h, s :: steps => (h.use? a s).toList ++ uses a (h.step s) steps

section
variable {h : Handles} {i a : Nat}

theorem step_clone (hi : h.targets[i]? = some a) : h.step (.clone i) = ⟨h.outlets, h.targets ++ [a]⟩ := by
  simp only [step, hi]

theorem step_clone_of_none (hi : h.targets[i]? = none) : h.step (.clone i) = h := by simp only [step, hi]

theorem step_use (hi : h.targets[i]? = some a) (u : ChannelUse) :
    h.step (.use i u) = ⟨h.outlets.modify a (·.use u), h.targets⟩ := by
  simp only [step, hi]

theorem step_use_of_none (hi : h.targets[i]? = none) (u : ChannelUse) : h.step (.use i u) = h := by
  simp only [step, hi]

end

/-- Every handle leads to a channel. -/
def Rooted (h : Handles) : Prop := ∀ a ∈ h.targets, a < h.outlets.length

/-- One more handle, on a channel that is there. -/
theorem Rooted.concat {outlets : List Outlet} {targets : List Nat} {b : Nat} (hr : Rooted ⟨outlets, targets⟩)
    (hb : b < outlets.length) : Rooted ⟨outlets, targets ++ [b]⟩ := by
  intro a ha
  rcases List.mem_append.1 ha with ha | ha
  · exact hr a ha
  · rw [List.mem_singleton.1 ha]
    exact hb

theorem Rooted.step {h : Handles} (hr : h.Rooted) (s : HandleStep) : (h.step s).Rooted := by
  cases s with
  | create =>
    have hlength : (h.outlets ++ [Outlet.fresh]).length = h.outlets.length + 1 := List.length_append
    have hold : Rooted ⟨h.outlets ++ [.fresh], h.targets⟩ := fun a ha => by
      rw [hlength]
      exact Nat.lt_succ_of_lt (hr a ha)
    exact hold.concat (by rw [hlength]; exact Nat.lt_succ_self _)
  | clone i =>
    cases hi : h.targets[i]? with
    | none =>
      rw [step_clone_of_none hi]
      exact hr
    | some b =>
      rw [step_clone hi]
      exact hr.concat (hr b (List.mem_of_getElem? hi))
  | use i u =>
    cases hi : h.targets[i]? with
    | none =>
      rw [step_use_of_none hi]
      exact hr
    | some b =>
      rw [step_use hi]
      intro a ha
      rw [List.length_modify]
      exact hr a ha

/-- A step does to a channel what the use that it makes of it does, and nothing else. -/
theorem outlet_step {h : Handles} (hr : h.Rooted) (s : HandleStep) (a : Nat) :
    ((h.step s).outlets[a]?).getD .fresh = ((h.outlets[a]?).getD .fresh).useAll (h.use? a s).toList := by
  cases s with
  | create =>
    show ((h.outlets ++ [Outlet.fresh])[a]?).getD .fresh = (h.outlets[a]?).getD .fresh
    by_cases ha : a < h.outlets.length
    · rw [List.getElem?_append_left ha]
    · rw [List.getElem?_append_right (Nat.not_lt.1 ha), List.getElem?_eq_none (Nat.not_lt.1 ha)]
      cases a - h.outlets.length <;> rfl
  | clone i =>
    cases hi : h.targets[i]? with
    | none =>
      rw [step_clone_of_none hi]
      rfl
    | some b =>
      rw [step_clone hi]
      rfl
  | use i u =>
    cases hi : h.targets[i]? with
    | none =>
      have hno : h.use? a (.use i u) = none := by simp only [use?, hi, reduceCtorEq, if_false]
      rw [step_use_of_none hi, hno]
      rfl
    | some b =>
      rw [step_use hi]
      show ((h.outlets.modify b (·.use u))[a]?).getD .fresh = _
      by_cases hb : b = a
      · subst hb
        have hyes : h.use? b (.use i u) = some u := if_pos hi
        rw [hyes, List.getElem?_modify_eq, List.getElem?_eq_getElem (hr b (List.mem_of_getElem? hi))]
        rfl
      · have hno : h.use? a (.use i u) = none := if_neg fun he => hb (Option.some.inj (hi.symm.trans he))
        rw [hno, List.getElem?_modify_ne _ _ hb]
        rfl

/-- **A channel comes to what its own uses make of it**, through whichever handles they were made. -/
theorem outlet_run (a : Nat) : ∀ (steps : List HandleStep) {h : Handles}, h.Rooted →
    ((h.run steps).outlets[a]?).getD .fresh = ((h.outlets[a]?).getD .fresh).useAll (h.uses a steps)
  | [], _, _ => rfl
  | s :: steps, h, hr => by
    have hrest := outlet_run a steps (hr.step s)
    rw [outlet_step hr, ← Outlet.useAll_append] at hrest
    exact hrest

/-- **A channel neither loses nor repeats nor reorders reports**, whichever of its handles are used.  What its drains have
given and what is still waiting are all that was reported; what is waiting was reported since the last drain; and each
listener has heard what was reported since it subscribed, drains or no drains. -/
theorem handles_conserve (steps : List HandleStep) (a : Nat) {o : Outlet}
    (ho : (Handles.start.run steps).outlets[a]? = some o) :
    let us := Handles.start.uses a steps
    o.drained.flatten ++ o.channel.pending = ChannelUse.reports us ∧
    (ChannelUse.drain ∉ us → o.channel.pending = ChannelUse.reports us) ∧
    (∀ before after, us = before ++ .drain :: after → ChannelUse.drain ∉ after →
      o.channel.pending = ChannelUse.reports after) ∧
    o.channel.listeners = us.count .subscribe ∧
    (∀ before after, us = before ++ .subscribe :: after →
      o.channel.heardBy (before.count .subscribe) = ChannelUse.reports after) ∧
    ∀ i, us.count .subscribe ≤ i → o.channel.heardBy i = [] := by
  have hrun := outlet_run a steps (h := Handles.start) (fun _ ha => nomatch ha)
  rw [ho] at hrun
  obtain rfl : o = Outlet.fresh.useAll (Handles.start.uses a steps) := hrun
  have hdiscreet : Outlet.fresh.Discreet := fun _ _ => rfl
  have hlisteners : ∀ us, (Outlet.fresh.useAll us).channel.listeners = us.count .subscribe := fun us => by
    rw [Outlet.listeners_useAll]
    exact Nat.zero_add _
  refine ⟨Outlet.flatten_drained_useAll _ _, Outlet.pending_useAll _ _, ?_, hlisteners _, ?_, ?_⟩
  · intro before after hus hafter
    rw [hus]
    exact Outlet.pending_since_drain _ hafter
  · intro before after hus
    rw [hus, ← hlisteners before]
    exact hdiscreet.heardBy_since before after
  · intro i hi
    exact hdiscreet.useAll _ i (by rw [hlisteners]; exact hi)

/-- A report through a handle, a listener, a drain through a clone of the handle, and a report through the clone, while
another channel is in use. -/
theorem handles_conserve_clone :
    let first : Report := ⟨.filter, "first", none⟩
    let second : Report := ⟨.template, "second", none⟩
    let steps : List HandleStep := [.create, .clone 0, .create, .use 0 (.report first), .use 1 .subscribe,
      .use 2 (.report first), .use 1 .drain, .use 1 (.report second)]
    let o : Outlet := ⟨⟨[second], 1, [⟨0, second⟩]⟩, [[first]]⟩
    (Handles.start.run steps).outlets[0]? = some o ∧
    Handles.start.uses 0 steps = [.report first, .subscribe, .drain, .report second] ∧
    [[first]].flatten ++ [second] = [first, second] ∧ o.channel.pending = [second] ∧ o.channel.heardBy 0 = [second] := by
  intro first second steps o
  have ho : (Handles.start.run steps).outlets[0]? = some o := rfl
  obtain ⟨hflatten, -, hpending, -, hheard, -⟩ := handles_conserve steps 0 ho
  exact ⟨ho, rfl, hflatten, hpending [.report first, .subscribe] [.report second] rfl (by decide),
    hheard [.report first] [.drain, .report second] rfl⟩

end Handles
end Folio
