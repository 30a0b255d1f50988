import Folio.Proofs.Layout.PassThrough
import Folio.Proofs.Runs.Independence
import Folio.Proofs.Text.Octets
/-!
# Plain text goes through unchanged

Text without marks is one token, and the token prints as it stands: no line end is trimmed or rewritten, no single brace
and no closing mark means anything without an opening one.  So a page without a layout whose octets are such text comes out
with the same octets (`plain_text_unchanged`), whatever it is configured with.
-/
namespace Folio

open Template (Unmarked)

namespace Template

/-- Text without marks renders as itself. -/
theorem render_unmarked {env : Environment} {page : Page} (hpage : Unmarked page.source.toList)
    {s entered : Session RenderStack} (henter : env.scope.enter (.ofText page.name) s = .ok entered) :
    env.render page s = (.ok page.source, entered.leave) := by
  have hlevels : 1 ≤ levels env.scope.tree := Nat.le_trans (by decide) (Layout.three_le_levels env.scope.tree)
  rw [← renderAt_alone]
  exact renderAt_unmarked hlevels hpage henter

end Template

/-- A file is a page with its own text for a source if it has the extension of HTML, something in it, and metadata that ask
for no layout. -/
theorem ContentFile.page?_eq_text {f : ContentFile} {globals fields : Fields} {extensions : List String} {octets : Bytes}
    (hpath : isHtml f.path extensions = true) (hmeta : f.meta? = some fields) (hlayout : layoutName? fields = none)
    (hcontents : f.contents = .buffer octets) (hne : octets ≠ []) :
    f.page? globals extensions = some ⟨f.path.text, octets.toText, f.context globals⟩ := by
  have hempty : f.contents.isEmpty = false := by
    rw [hcontents]
    exact List.isEmpty_eq_false_iff.2 hne
  have htext : f.text? = some octets.toText := by
    unfold text?
    rw [hcontents]
    rfl
  unfold page?
  rw [hempty, hpath, hmeta, htext]
  dsimp only
  rw [hlayout]
  rfl

/-- Octets that are text are those of the text that they are read as. -/
theorem Bytes.ofText_toText {octets : Bytes} {cs : List Char} (h : Text.decode? octets = some cs) :
    octets.toText = String.ofList cs ∧ Bytes.ofText octets.toText = octets := by
  have htext : octets.toText = String.ofList cs := congrArg String.ofList (Text.decode_of_decode? h)
  refine ⟨htext, ?_⟩
  rw [htext]
  show Text.encode (String.ofList cs).toList = octets
  rw [String.toList_ofList]
  exact Text.encode_of_decode? h

/-- **Plain text goes through unchanged.**  Under every configuration, a file with the extension of HTML, with metadata that
ask for no layout, and with something in it that is UTF-8 and without marks, is rendered to the same octets without a
report, and the session is left as it was. -/
theorem plain_text_unchanged (c : Config) (t : FileTree) (now : Calendar.Moment) {f : ContentFile} {fields : Fields}
    {octets : Bytes} {cs : List Char} {s : RunSession} (hs : s.Idle) (hpath : isHtml f.path c.htmlExtensions = true)
    (hmeta : f.meta? = some fields) (hlayout : layoutName? fields = none) (hcontents : f.contents = .buffer octets)
    (hne : octets ≠ []) (hoctets : Text.decode? octets = some cs) (hplain : Unmarked cs) :
    (c.process t now f s).1 = ⟨some f, .rendered, []⟩ ∧ (c.process t now f s).2.Idle := by
  refine ⟨?_, hs.process c t now f⟩
  let page : Page := ⟨f.path.text, octets.toText, f.context c.globals⟩
  obtain ⟨htext, hback⟩ := Bytes.ofText_toText hoctets
  have hsource : Unmarked page.source.toList := by
    show Unmarked octets.toText.toList
    rw [htext, String.toList_ofList]
    exact hplain
  -- Nothing is on the stack, so the page is entered.
  have hfresh : (c.scope t now).resolve (.ofText page.name) ∉ s.engine.paths := by
    rw [hs.paths]
    exact List.not_mem_nil
  have hrender : (c.environment t now).render page s = (.ok page.source, _) :=
    Template.render_unmarked hsource (Scope.enter_of_not_mem hfresh)
  have hafter : ({ f with contents := .buffer (Bytes.ofText octets.toText) } : ContentFile) = f := by
    rw [hback, ← hcontents]
  have hstream : f.contents.isStream = false := by
    rw [hcontents]
    rfl
  obtain ⟨after, hwith, hchannel⟩ : ∃ after, f.renderWith (c.environment t now).render c.globals c.htmlExtensions s =
      (f, .rendered, after) ∧ after.channel = s.channel := by
    unfold ContentFile.renderWith
    rw [hstream, ContentFile.page?_eq_text hpath hmeta hlayout hcontents hne]
    dsimp only
    rw [hrender]
    exact ⟨_, congrArg (·, Status.rendered, _) hafter, rfl⟩
  unfold Config.process
  rw [transform_of_renderWith hwith, hchannel, hs.pending]
  rfl

/-- A file with carriage returns, single braces, closing marks and a brace at its end. -/
theorem plain_text_unchanged_braces :
    let text := "\x7d\x7d \x7b a \r\n\n%\x7d\n#\x7d \x7b"
    let f : ContentFile := ⟨.ofText "a.html", .buffer (Bytes.ofText text), some [], .at ⟨0, 0, 0⟩⟩
    Unmarked text.toList ∧
    ((Config.default (.ofText "/")).process (.empty []) ⟨0, 0, 0⟩ f RunSession.start).1 = ⟨some f, .rendered, []⟩ := by
  intro text f
  have hpath : isHtml f.path (Config.default (.ofText "/")).htmlExtensions = true := by decide +kernel
  have hne : Bytes.ofText text ≠ [] := by decide +kernel
  have hplain : Unmarked text.toList := by decide +kernel
  have hunchanged := plain_text_unchanged (Config.default (.ofText "/")) (.empty []) ⟨0, 0, 0⟩ Session.Idle.start hpath
    (f := f) rfl rfl rfl hne (Text.decode?_encode text.toList) hplain
  exact ⟨hplain, hunchanged.1⟩

end Folio
