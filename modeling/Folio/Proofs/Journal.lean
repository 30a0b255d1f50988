import Folio.Transform
/-!
# What engines are asked for

Any engine can be made to note its calls without changing what it does (`recorded`, `transform_recorded`).  On its journal
one reads off which files are rendered: those with metadata, with octets and with the extension of HTML, each of them once
and as the page that its metadata ask for (`transform_calls`).  Whatever the engine does, no other part of a file changes.
-/
namespace Folio

variable {ε : Type}

/-! ## Pages -/

/-- A file that is to be rendered, with its octets and its metadata. -/
structure ContentFile.IsPage (f : ContentFile) (extensions : List String) (octets : Bytes) (fields : Fields) : Prop where
  contents : f.contents = .buffer octets
  nonempty : octets ≠ []
  html : isHtml f.path extensions = true
  metadata : f.meta? = some fields

/-- The page of a file: its text, inside of the layout that its metadata name unless that name is empty. -/
structure Page.Shows (p : Page) (f : ContentFile) (globals : Fields) (octets : Bytes) (fields : Fields) : Prop where
  name : p.name = f.path.text
  context : p.context = f.context globals
  wrapped : ∀ layout, Table.get? fields "template" = some (.text layout) → layout ≠ "" →
    p.source = Layout.wrap (Bytes.toText octets) layout
  bare : (∀ layout, Table.get? fields "template" = some (.text layout) → layout = "") →
    p.source = Bytes.toText octets

theorem layoutName?_eq_some_iff {fields : Fields} {layout : String} :
    layoutName? fields = some layout ↔ Table.get? fields "template" = some (.text layout) ∧ layout ≠ "" := by
  unfold layoutName?
  cases Table.get? fields "template" with
  | none => simp
  | some d =>
    cases d with
    | text name =>
      dsimp only
      by_cases hn : name = ""
      · rw [if_pos hn]
        constructor
        · intro h
          cases h
        · rintro ⟨h, hne⟩
          cases h
          exact absurd hn hne
      · rw [if_neg hn]
        constructor
        · intro h
          cases h
          exact ⟨rfl, hn⟩
        · rintro ⟨h, -⟩
          cases h
          rfl
    | _ => simp

theorem Page.shows_of_source {f : ContentFile} {globals fields : Fields} {octets : Bytes} :
    Page.Shows ⟨f.path.text, match layoutName? fields with
      | some name => Layout.wrap (Bytes.toText octets) name
      | none => Bytes.toText octets, f.context globals⟩ f globals octets fields where
  name := rfl
  context := rfl
  wrapped layout hget hne := by
    rw [layoutName?_eq_some_iff.2 ⟨hget, hne⟩]
  bare hno := by
    have hn : layoutName? fields = none := by
      rw [Option.eq_none_iff_forall_ne_some]
      intro layout hl
      obtain ⟨hget, hne⟩ := layoutName?_eq_some_iff.1 hl
      exact hne (hno layout hget)
    rw [hn]

namespace ContentFile

variable {f : ContentFile} {globals : Fields} {extensions : List String}

theorem page?_of_isPage (globals : Fields) {octets : Bytes} {fields : Fields} (h : f.IsPage extensions octets fields) :
    ∃ page, f.page? globals extensions = some page ∧ page.Shows f globals octets fields := by
  have hempty : f.contents.isEmpty = false := by
    rw [h.contents]
    simpa [Contents.isEmpty] using h.nonempty
  have htext : f.text?.getD "" = Bytes.toText octets := by
    rw [text?, h.contents]
    rfl
  refine ⟨_, ?_, Page.shows_of_source⟩
  unfold page?
  rw [hempty, h.html, h.metadata, htext]
  rfl

/-- A file that is no stream has a page only if it is to be rendered. -/
theorem page?_eq_none (hs : f.contents ≠ .stream) (h : ¬ ∃ octets fields, f.IsPage extensions octets fields) :
    f.page? globals extensions = none := by
  unfold page?
  split
  · rfl
  rename_i hc
  obtain ⟨hempty, hhtml⟩ : f.contents.isEmpty = false ∧ isHtml f.path extensions = true := by simpa using hc
  split
  · rfl
  rename_i fields hmeta
  cases hb : f.contents with
  | absent => rw [hb] at hempty; cases hempty
  | stream => exact absurd hb hs
  | buffer octets =>
    rw [hb] at hempty
    exact absurd ⟨octets, fields, hb, by simpa [Contents.isEmpty] using hempty, hhtml, hmeta⟩ h

theorem IsPage.not_stream {octets : Bytes} {fields : Fields} (h : f.IsPage extensions octets fields) :
    f.contents ≠ .stream := by
  rw [h.contents]
  exact Contents.noConfusion

/-- **All that can happen to a file**: it is a stream, it is no page, or the engine is asked for its page and answers with
a text or with a failure. -/
theorem renderWith_cases (render : Renderer ε) (globals : Fields) (extensions : List String) (f : ContentFile)
    (s : Session ε) :
    (f.contents = .stream ∧ f.renderWith render globals extensions s =
      (f, .dropped, s.report (.ofFailure .unsupportedInput .unsupportedStream (some f.path)))) ∨
    (f.contents ≠ .stream ∧ (¬ ∃ octets fields, f.IsPage extensions octets fields) ∧
      f.renderWith render globals extensions s = (f, .passedThrough, s)) ∨
    ∃ octets fields page, f.IsPage extensions octets fields ∧ page.Shows f globals octets fields ∧
      ((∃ text after, render page s = (.ok text, after) ∧ f.renderWith render globals extensions s =
          ({ f with contents := .buffer (Bytes.ofText text) }, .rendered, after)) ∨
       (∃ failure after, render page s = (.error failure, after) ∧ f.renderWith render globals extensions s =
          (f, .failed, after.report (.ofFailure .template failure (some f.path))))) := by
  by_cases hs : f.contents = .stream
  · refine Or.inl ⟨hs, ?_⟩
    rw [renderWith, if_pos (by rw [hs]; rfl)]
  have hns : ¬ f.contents.isStream = true := by
    cases hc : f.contents <;> simp_all [Contents.isStream]
  refine Or.inr ?_
  by_cases hp : ∃ octets fields, f.IsPage extensions octets fields
  · obtain ⟨octets, fields, hpage⟩ := hp
    obtain ⟨page, hsome, hshows⟩ := page?_of_isPage globals hpage
    refine Or.inr ⟨octets, fields, page, hpage, hshows, ?_⟩
    rcases hanswer : render page s with ⟨failure | text, after⟩
    · refine Or.inr ⟨failure, after, rfl, ?_⟩
      unfold renderWith
      simp only [if_neg hns, hsome, hanswer]
    · refine Or.inl ⟨text, after, rfl, ?_⟩
      unfold renderWith
      simp only [if_neg hns, hsome, hanswer]
  · refine Or.inl ⟨hs, hp, ?_⟩
    rw [renderWith, if_neg hns, page?_eq_none hs hp]

/-- What holds across reports and across renders holds across whatever happens to a file. -/
theorem renderWith_keeps {R : Session ε → Session ε → Prop} (refl : ∀ s, R s s)
    (trans : ∀ {a b c}, R a b → R b c → R a c) (report : ∀ s r, R s (s.report r)) {render : Renderer ε}
    (hrender : ∀ page s, R s (render page s).2) (globals : Fields) (extensions : List String) (f : ContentFile)
    (s : Session ε) : R s (f.renderWith render globals extensions s).2.2 := by
  rcases f.renderWith_cases render globals extensions s with
    ⟨-, hr⟩ | ⟨-, -, hr⟩ | ⟨_, _, page, -, -, ⟨text, after, ha, hr⟩ | ⟨failure, after, ha, hr⟩⟩
  all_goals rw [hr]
  · exact report s _
  · exact refl s
  · have h := hrender page s
    rw [ha] at h
    exact h
  · have h := hrender page s
    rw [ha] at h
    exact trans h (report after _)

end ContentFile

/-! ## Journals -/

/-- A call of an engine with its answer. -/
structure Call where
  page : Page
  answer : Except Failure String

/-- An engine's own state and its calls so far. -/
structure Journal (ε : Type) where
  engine : ε
  calls : List Call

/-- A session of which the calls are noted. -/
def Session.noting (s : Session ε) (calls : List Call) : Session (Journal ε) := ⟨s.channel, s.engine, calls⟩

/-- A session without its journal. -/
def Session.plain (s : Session (Journal ε)) : Session ε := ⟨s.channel, s.engine.engine⟩

/-- An engine that notes its calls. -/
def recorded (render : Renderer ε) : Renderer (Journal ε) := fun page s =>
  let (answer, after) := render page s.plain
  (answer, after.noting (s.engine.calls ++ [⟨page, answer⟩]))

theorem recorded_eq {render : Renderer ε} {page : Page} {s : Session (Journal ε)} {answer : Except Failure String}
    {after : Session (Journal ε)} (h : recorded render page s = (answer, after)) :
    render page s.plain = (answer, after.plain) ∧ after.engine.calls = s.engine.calls ++ [⟨page, answer⟩] := by
  cases h
  exact ⟨rfl, rfl⟩

/-- **Noting calls changes nothing else.** -/
theorem ContentFile.renderWith_recorded (render : Renderer ε) (globals : Fields) (extensions : List String)
    (f : ContentFile) (s : Session (Journal ε)) :
    f.renderWith render globals extensions s.plain =
      ((f.renderWith (recorded render) globals extensions s).1, (f.renderWith (recorded render) globals extensions s).2.1,
        (f.renderWith (recorded render) globals extensions s).2.2.plain) := by
  unfold renderWith
  split
  · rfl
  cases f.page? globals extensions with
  | none => rfl
  | some page =>
    rcases hanswer : recorded render page s with ⟨failure | text, after⟩
    all_goals simp only [(recorded_eq hanswer).1, hanswer]
    rfl

theorem transform_recorded (render : Renderer ε) (globals : Fields) (extensions : List String) (f : ContentFile)
    (s : Session (Journal ε)) :
    transform render globals extensions f s.plain =
      ((transform (recorded render) globals extensions f s).1,
        (transform (recorded render) globals extensions f s).2.plain) := by
  unfold transform
  rw [f.renderWith_recorded]
  rfl

theorem transform_of_renderWith {render : Renderer ε} {globals : Fields} {extensions : List String} {f g : ContentFile}
    {s after : Session ε} {status : Status} (h : f.renderWith render globals extensions s = (g, status, after)) :
    transform render globals extensions f s =
      (⟨if status = .dropped then none else some g, status, after.channel.pending.map (·.withPath f.path)⟩,
        after.drain.2) := by
  unfold transform
  rw [h]
  rfl

/-- What becomes of a file, by the calls of an engine that gives certain answers. -/
inductive ContentFile.Treated (f : ContentFile) (globals : Fields) (extensions : List String)
    (answer : Page → Except Failure String) : List Call → Status → Option ContentFile → Prop where
  | dropped (stream : f.contents = .stream) : Treated f globals extensions answer [] .dropped none
  | passedThrough (noStream : f.contents ≠ .stream) (noPage : ¬ ∃ octets fields, f.IsPage extensions octets fields) :
    Treated f globals extensions answer [] .passedThrough (some f)
  | rendered {octets : Bytes} {fields : Fields} {page : Page} {text : String} (isPage : f.IsPage extensions octets fields)
    (shows : page.Shows f globals octets fields) (answered : answer page = .ok text) :
    Treated f globals extensions answer [⟨page, .ok text⟩] .rendered
      (some { f with contents := .buffer (Bytes.ofText text) })
  | failed {octets : Bytes} {fields : Fields} {page : Page} {failure : Failure}
    (isPage : f.IsPage extensions octets fields) (shows : page.Shows f globals octets fields)
    (answered : answer page = .error failure) :
    Treated f globals extensions answer [⟨page, .error failure⟩] .failed (some f)

theorem transform_treated (render : Renderer ε) (globals : Fields) (extensions : List String) (f : ContentFile)
    (s : Session (Journal ε)) :
    ∃ (t : Transformed) (after : Session (Journal ε)) (asked : List Call),
      transform (recorded render) globals extensions f s = (t, after) ∧
      after.engine.calls = s.engine.calls ++ asked ∧ (asked = [] → after.engine = s.engine) ∧
      f.Treated globals extensions (fun page => (render page s.plain).1) asked t.status t.file := by
  rcases f.renderWith_cases (recorded render) globals extensions s with
    ⟨hs, hr⟩ | ⟨hs, hp, hr⟩ | ⟨octets, fields, page, hp, hshows, ⟨text, after, ha, hr⟩ | ⟨failure, after, ha, hr⟩⟩
  · exact ⟨_, _, [], transform_of_renderWith hr, (List.append_nil _).symm, fun _ => rfl, .dropped hs⟩
  · exact ⟨_, _, [], transform_of_renderWith hr, (List.append_nil _).symm, fun _ => rfl, .passedThrough hs hp⟩
  · obtain ⟨hanswer, hcalls⟩ := recorded_eq ha
    have hempty : [(⟨page, .ok text⟩ : Call)] = [] → after.engine = s.engine := fun h => by cases h
    exact ⟨_, _, _, transform_of_renderWith hr, hcalls, hempty, .rendered hp hshows (by rw [hanswer])⟩
  · obtain ⟨hanswer, hcalls⟩ := recorded_eq ha
    have hempty : [(⟨page, .error failure⟩ : Call)] = [] → after.engine = s.engine := fun h => by cases h
    exact ⟨_, _, _, transform_of_renderWith hr, hcalls, hempty, .failed hp hshows (by rw [hanswer])⟩

/-- **A transformation renders exactly the pages and touches nothing else.**  With its calls noted, an engine is asked
once for a page and never for another file, the status says whether it was asked and how it answered, and a file that is
not dropped differs from what it was in its contents alone, and only by the text of the answer. -/
theorem transform_calls (render : Renderer ε) (globals : Fields) (extensions : List String) (f : ContentFile)
    (s : Session (Journal ε)) :
    ∃ (t : Transformed) (after : Session (Journal ε)) (asked : List Call),
      transform (recorded render) globals extensions f s = (t, after) ∧
      transform render globals extensions f s.plain = (t, after.plain) ∧
      after.engine.calls = s.engine.calls ++ asked ∧
      ((∃ octets fields, f.IsPage extensions octets fields) ↔ asked ≠ []) ∧
      (∀ octets fields, f.IsPage extensions octets fields → ∃ page, page.Shows f globals octets fields ∧
        asked = [⟨page, (render page s.plain).1⟩]) ∧
      (asked = [] → after.engine = s.engine) ∧
      (t.status = .dropped ↔ f.contents = .stream) ∧
      (t.status = .rendered ↔ ∃ page text, asked = [⟨page, .ok text⟩]) ∧
      (t.status = .failed ↔ ∃ page failure, asked = [⟨page, .error failure⟩]) ∧
      (t.status = .passedThrough ↔ f.contents ≠ .stream ∧ asked = []) ∧
      (t.file = none ↔ t.status = .dropped) ∧
      ∀ g ∈ t.file, g.path = f.path ∧ g.stat = f.stat ∧ g.meta? = f.meta? ∧
        (t.status ≠ .rendered → g.contents = f.contents) ∧
        (∀ page text, asked = [⟨page, .ok text⟩] → g.contents = .buffer (Bytes.ofText text)) := by
  obtain ⟨⟨file, status, reports⟩, after, asked, ht, hcalls, hengine, htreated⟩ :=
    transform_treated render globals extensions f s
  have hplain := transform_recorded render globals extensions f s
  rw [ht] at hplain
  refine ⟨_, after, asked, ht, hplain, hcalls, ?_, ?_, hengine, ?_⟩
  · cases htreated with
    | dropped hs => simpa using fun octets fields (h : f.IsPage extensions octets fields) => h.not_stream hs
    | passedThrough _ hp => simpa using hp
    | rendered hp | failed hp => exact ⟨fun _ => List.cons_ne_nil _ _, fun _ => ⟨_, _, hp⟩⟩
  · intro octets fields h
    cases htreated with
    | dropped hs => exact absurd hs h.not_stream
    | passedThrough _ hp => exact absurd ⟨octets, fields, h⟩ hp
    | rendered hp hshows ha | failed hp hshows ha =>
      obtain rfl := Contents.buffer.inj (h.contents.symm.trans hp.contents)
      obtain rfl := Option.some.inj (h.metadata.symm.trans hp.metadata)
      exact ⟨_, hshows, by rw [ha]⟩
  · cases htreated with
    | dropped hs => simp [hs]
    | passedThrough hs => simp [hs]
    | rendered hp | failed hp => simp [hp.not_stream]

end Folio
