import Folio.Proofs.Runs.Conservation
/-!
# The reports that come back with a file

A transformation hands back what was waiting in the channel, then what the engine reported, then its own verdict: one
report of a failed page, one of a dropped stream, and otherwise none (`ContentFile.renderWith_pending`).  The path of a
report is overwritten on the way out, its kind and its message are not.
-/
namespace Folio

variable {ε : Type}

/-- What an engine answers and the session that it leaves, if it is asked for a page at all. -/
def answerTo (render : Renderer ε) (asked : Option Page) (s : Session ε) :
    Option (Except Failure String) × Session ε :=
  match asked with
  | none => (none, s)
  | some page => (some (render page s).1, (render page s).2)

/-- What a transformation itself has to say about a file, by the status and by the engine's answer. -/
def Status.verdict : Status → Option (Except Failure String) → List (ReportKind × String)
  | .dropped, _ => [(.unsupportedInput, Failure.unsupportedStream.message)]
  | .failed, some (.error failure) => [(.template, failure.message)]
  | _, _ => []

/-- How a status comes from the engine's answer. -/
inductive Status.Follows (f : ContentFile) : Option (Except Failure String) → Status → Prop where
  | dropped (stream : f.contents = .stream) : Follows f none .dropped
  | passedThrough (noStream : f.contents ≠ .stream) : Follows f none .passedThrough
  | rendered (noStream : f.contents ≠ .stream) (text : String) : Follows f (some (.ok text)) .rendered
  | failed (noStream : f.contents ≠ .stream) (failure : Failure) : Follows f (some (.error failure)) .failed

namespace Status.Follows

variable {f : ContentFile} {answer : Option (Except Failure String)} {status : Status} (h : Follows f answer status)
include h

theorem dropped_iff : status = .dropped ↔ f.contents = .stream := by
  cases h <;> simp [*]

theorem rendered_iff : status = .rendered ↔ ∃ text, answer = some (.ok text) := by
  cases h <;> simp

theorem failed_iff : status = .failed ↔ ∃ failure, answer = some (.error failure) := by
  cases h <;> simp

theorem passedThrough_iff : status = .passedThrough ↔ f.contents ≠ .stream ∧ answer = none := by
  cases h <;> simp [*]

/-- There is a verdict on the files that are not handed on as they should be. -/
theorem verdict_ne_nil (hs : status = .failed ∨ status = .dropped) : status.verdict answer ≠ [] := by
  cases h with
  | dropped | failed => exact List.cons_ne_nil _ _
  | passedThrough | rendered => simp at hs

end Status.Follows

theorem Status.verdict_passedThrough (answer : Option (Except Failure String)) :
    Status.passedThrough.verdict answer = [] := rfl

/-- What waits in the channel after a file: what waits after the engine, and the verdict. -/
theorem ContentFile.renderWith_pending (render : Renderer ε) (globals : Fields) (extensions : List String)
    (f : ContentFile) (s : Session ε) :
    ∃ (g : ContentFile) (status : Status) (after : Session ε) (asked : Option Page),
      f.renderWith render globals extensions s = (g, status, after) ∧
      (asked.isSome ↔ ∃ octets fields, f.IsPage extensions octets fields) ∧
      (∀ page ∈ asked, ∃ octets fields, f.IsPage extensions octets fields ∧ page.Shows f globals octets fields) ∧
      status.Follows f (answerTo render asked s).1 ∧
      after.channel.pending.map Report.content =
        (answerTo render asked s).2.channel.pending.map Report.content ++ status.verdict (answerTo render asked s).1 := by
  rcases f.renderWith_cases render globals extensions s with
    ⟨hs, hr⟩ | ⟨hs, hp, hr⟩ | ⟨octets, fields, page, hp, hshows, ⟨text, after, ha, hr⟩ | ⟨failure, after, ha, hr⟩⟩
  · have hp : ¬ ∃ octets fields, f.IsPage extensions octets fields := fun ⟨_, _, h⟩ => h.not_stream hs
    exact ⟨_, _, _, none, hr, by simpa using hp, by simp, .dropped hs, List.map_append⟩
  · exact ⟨_, _, _, none, hr, by simpa using hp, by simp, .passedThrough hs, (List.append_nil _).symm⟩
  · have hanswer : answerTo render (some page) s = (some (.ok text), after) := by
      rw [answerTo, ha]
    refine ⟨_, _, _, some page, hr, iff_of_true rfl ⟨_, _, hp⟩, ?_, ?_⟩
    · rintro _ ⟨⟩
      exact ⟨_, _, hp, hshows⟩
    · rw [hanswer]
      exact ⟨.rendered hp.not_stream text, (List.append_nil _).symm⟩
  · have hanswer : answerTo render (some page) s = (some (.error failure), after) := by
      rw [answerTo, ha]
    refine ⟨_, _, _, some page, hr, iff_of_true rfl ⟨_, _, hp⟩, ?_, ?_⟩
    · rintro _ ⟨⟩
      exact ⟨_, _, hp, hshows⟩
    · rw [hanswer]
      exact ⟨.failed hp.not_stream failure, List.map_append⟩

/-- **Every report that comes back with a file belongs to it.**  Whatever the engine is and does, the reports are those
that wait when it is done, and after them the verdict: the engine's failure if the file failed, the refusal of a stream if
it was dropped.  If the engine only reports, those that wait are those that waited before and then its own.  All of them
carry the path of the file, with their kinds and messages as they were, and the channel is empty afterwards. -/
theorem transform_reports (render : Renderer ε) (globals : Fields) (extensions : List String) (f : ContentFile)
    (s : Session ε) :
    ∃ (t : Transformed) (after : Session ε) (asked : Option Page),
      transform render globals extensions f s = (t, after) ∧
      (asked.isSome ↔ ∃ octets fields, f.IsPage extensions octets fields) ∧
      (∀ page ∈ asked, ∃ octets fields, f.IsPage extensions octets fields ∧ page.Shows f globals octets fields) ∧
      (t.status = .dropped ↔ f.contents = .stream) ∧
      (t.status = .passedThrough ↔ f.contents ≠ .stream ∧ (answerTo render asked s).1 = none) ∧
      (t.status = .rendered ↔ ∃ text, (answerTo render asked s).1 = some (.ok text)) ∧
      (t.status = .failed ↔ ∃ failure, (answerTo render asked s).1 = some (.error failure)) ∧
      t.reports.map Report.content = (answerTo render asked s).2.channel.pending.map Report.content ++
        t.status.verdict (answerTo render asked s).1 ∧
      (∀ reported, (answerTo render asked s).2.channel = s.channel.reportAll reported →
        t.reports.map Report.content = s.channel.pending.map Report.content ++ reported.map Report.content ++
          t.status.verdict (answerTo render asked s).1) ∧
      (∀ r ∈ t.reports, r.path = some f.path) ∧
      after.channel.pending = [] ∧
      (t.status = .failed ∨ t.status = .dropped → t.reports ≠ []) ∧
      (s.channel.pending = [] → t.status = .passedThrough → t.reports = []) := by
  obtain ⟨g, status, after, asked, hr, hasked, hshows, hstatus, hpending⟩ :=
    f.renderWith_pending render globals extensions s
  have hcontent : (after.channel.pending.map (·.withPath f.path)).map Report.content =
      (answerTo render asked s).2.channel.pending.map Report.content ++ status.verdict (answerTo render asked s).1 := by
    rw [Report.map_content_withPath, hpending]
  refine ⟨_, _, asked, transform_of_renderWith hr, hasked, hshows, hstatus.dropped_iff, hstatus.passedThrough_iff,
    hstatus.rendered_iff, hstatus.failed_iff, hcontent, ?_, ?_, rfl, ?_, ?_⟩
  · intro reported hreported
    rw [hreported, Channel.pending_reportAll, List.map_append] at hcontent
    exact hcontent
  · intro r hr
    obtain ⟨waiting, -, rfl⟩ := List.mem_map.1 hr
    rfl
  · intro hs hnone
    refine hstatus.verdict_ne_nil hs (List.append_eq_nil_iff.1 (hcontent.symm.trans ?_)).2
    rw [show after.channel.pending.map (·.withPath f.path) = [] from hnone, List.map_nil]
  · -- A file that passes through is shown to no engine, so what waits is what waited before.
    intro hs hpassed
    have hasked : asked = none := by
      cases asked with
      | none => rfl
      | some page => exact absurd (hstatus.passedThrough_iff.1 hpassed).2 (Option.some_ne_none _)
    obtain rfl : status = .passedThrough := hpassed
    subst hasked
    rw [Status.verdict_passedThrough, List.append_nil] at hcontent
    exact List.map_eq_nil_iff.1 (hcontent.trans (by rw [answerTo, hs, List.map_nil]))

/-- A report that was waiting under another path, one of the engine and the verdict. -/
example : (transform (fun _ s => (.error (.custom "no"), s.report ⟨.filter, "inside", none⟩)) [] ["html"]
    ⟨.ofText "a.html", .buffer (Bytes.ofText "x"), some [], .at ⟨0, 0, 0⟩⟩
    (⟨Channel.empty.report ⟨.filter, "before", some (.ofText "b.html")⟩, ()⟩ : Session Unit)).1.reports =
      [⟨.filter, "before", some (.ofText "a.html")⟩, ⟨.filter, "inside", some (.ofText "a.html")⟩,
        ⟨.template, "no", some (.ofText "a.html")⟩] := by
  decide +kernel

end Folio
