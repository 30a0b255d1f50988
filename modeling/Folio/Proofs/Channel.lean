import Folio.Session
/-!
# What a channel does with reports

Each report is queued once and told once to every listener, in the order of reporting (`pending_reportAll`,
`heardBy_reportAll`).  Draining in between takes nothing from what listeners hear (`drain_reportAll_drain`).
-/
namespace Folio
namespace Channel

/-- The channel after reports. -/
def reportAll (c : Channel) (rs : List Report) : Channel := rs.foldl Channel.report c

theorem reportAll_append (c : Channel) (rs rs' : List Report) :
    c.reportAll (rs ++ rs') = (c.reportAll rs).reportAll rs' := List.foldl_append

@[simp] theorem pending_reportAll : ∀ (c : Channel) (rs : List Report), (c.reportAll rs).pending = c.pending ++ rs
  | c, [] => (List.append_nil c.pending).symm
  | c, r :: rs => by
    have hrec := pending_reportAll (c.report r) rs
    rw [pending_report, List.append_assoc] at hrec
    exact hrec

/-- A channel tells what was reported to it. -/
theorem reportAll_inj {c : Channel} {rs rs' : List Report} (h : c.reportAll rs = c.reportAll rs') : rs = rs' := by
  have hpending := congrArg pending h
  rw [pending_reportAll, pending_reportAll] at hpending
  exact List.append_cancel_left hpending

/-- Every listener hears a report once. -/
theorem heardBy_report {c : Channel} {i : Nat} (hi : i < c.listeners) (r : Report) :
    (c.report r).heardBy i = c.heardBy i ++ [r] := by
  have hself : (List.range c.listeners).filter (· == i) = [i] := by
    rw [List.filter_beq, List.count_range, if_pos hi]
    rfl
  have hnew : (((List.range c.listeners).map (Heard.mk · r)).filter (·.listener == i)).map (·.report) = [r] := by
    rw [List.filter_map, List.map_map]
    show ((List.range c.listeners).filter (· == i)).map (fun _ => r) = [r]
    rw [hself]
    rfl
  unfold heardBy report
  rw [List.filter_append, List.map_append, hnew]

theorem heardBy_reportAll {i : Nat} : ∀ {c : Channel} (_ : i < c.listeners) (rs : List Report),
    (c.reportAll rs).heardBy i = c.heardBy i ++ rs
  | c, _, [] => (List.append_nil (c.heardBy i)).symm
  | c, hi, r :: rs => by
    have hrec := heardBy_reportAll (c := c.report r) hi rs
    rw [heardBy_report hi, List.append_assoc] at hrec
    exact hrec

@[simp] theorem heardBy_drain (c : Channel) (i : Nat) : c.drain.2.heardBy i = c.heardBy i := rfl

theorem drain_eq_self {c : Channel} (h : c.pending = []) : c.drain.2 = c := by
  cases c
  cases h
  rfl

/-- Reports after a drain and then another drain leave the channel as the last drain alone does. -/
theorem drain_reportAll_drain : ∀ (c : Channel) (rs : List Report),
    (c.drain.2.reportAll rs).drain.2 = (c.reportAll rs).drain.2
  | _, [] => rfl
  | c, r :: rs => by
    have hstep : (c.drain.2.report r).drain.2 = (c.report r).drain.2 := rfl
    have hrec := drain_reportAll_drain (c.drain.2.report r) rs
    rw [hstep, drain_reportAll_drain (c.report r) rs] at hrec
    exact hrec.symm

end Channel

/-- Between two sessions nothing has happened to the channel but reports. -/
def Session.Reporting {ε : Type} (s s' : Session ε) : Prop := ∃ rs, s'.channel = s.channel.reportAll rs

namespace Session.Reporting

variable {ε : Type} {s s' s'' : Session ε}

theorem refl (s : Session ε) : s.Reporting s := ⟨[], rfl⟩

theorem trans (h : s.Reporting s') (h' : s'.Reporting s'') : s.Reporting s'' := by
  obtain ⟨rs, hrs⟩ := h
  obtain ⟨rs', hrs'⟩ := h'
  refine ⟨rs ++ rs', ?_⟩
  rw [Channel.reportAll_append, ← hrs, hrs']

theorem report (s : Session ε) (r : Report) : s.Reporting (s.report r) := ⟨[r], rfl⟩

end Session.Reporting
end Folio
