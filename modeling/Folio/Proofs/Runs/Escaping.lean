import Folio.Proofs.Runs.PlainText
import Folio.Proofs.Template.Variable
import Folio.Proofs.Context.Merge
import Folio.Proofs.Paths.Extensions
/-!
# Where HTML is escaped

A file is rendered for the extension of its path, whatever its case and among those that are configured.  What a page
prints is escaped for its name, if the configuration says so: the name has to end in `html`, `htm` or `xml`, in small
letters, with a `.j2` behind it or without (`escapesHtml_iff`).  So a page that prints a variable prints it escaped or as
it is by its name alone (`variable_printed`), and a page that ends in capital letters is rendered and not escaped
(`variable_printed_raw`).
-/
namespace Folio

namespace Template

/-! ## Names -/

/-- The last stretch of a name between dots is one of those of HTML, and at most `.j2` follows. -/
def EndsInHtml (name : String) : Prop :=
  ∃ ending ∈ ["html", "htm", "xml"], ∃ stem, (stem = "" ∨ ∃ s, stem = s ++ ".") ∧
    (name = stem ++ ending ∨ name = stem ++ ending ++ ".j2")

theorem toList_stem {stem : String} : (stem = "" ∨ ∃ s, stem = s ++ ".") ↔
    stem.toList = [] ∨ ∃ cs, stem.toList = cs ++ ['.'] := by
  constructor
  · rintro (rfl | ⟨s, rfl⟩)
    · exact .inl rfl
    · exact .inr ⟨s.toList, String.toList_append⟩
  · rintro (h | ⟨cs, h⟩)
    · exact .inl (String.toList_injective h)
    · exact .inr ⟨String.ofList cs, String.toList_injective (by simpa using h)⟩

/-- The stretches are looked at without a `.j2`, if there is one. -/
theorem escapesHtml_eq (name : String) : escapesHtml name = true ↔ ∃ ending ∈ ["html", "htm", "xml"], ∃ stem,
    (stem = [] ∨ ∃ s, stem = s ++ ['.']) ∧
      (if ".j2".toList.isSuffixOf name.toList then name.toList.take (name.toList.length - 3) else name.toList) =
        stem ++ ending.toList := by
  unfold escapesHtml
  dsimp only
  generalize (if ".j2".toList.isSuffixOf name.toList then name.toList.take (name.toList.length - 3) else name.toList) = cs
  rw [List.contains_iff_mem]
  constructor
  · intro hmem
    have hplain : ∀ ending ∈ ["html", "htm", "xml"], '.' ∉ ending.toList := by decide
    exact ⟨_, hmem, (lastStretch_eq_iff (hplain _ hmem)).1 String.toList_ofList.symm⟩
  · rintro ⟨ending, hmem, hstretch⟩
    have hplain : ∀ ending ∈ ["html", "htm", "xml"], '.' ∉ ending.toList := by decide
    rw [(lastStretch_eq_iff (hplain _ hmem)).2 hstretch, String.ofList_toList]
    exact hmem

/-- **HTML is escaped by the end of a name.** -/
theorem escapesHtml_iff (name : String) : escapesHtml name = true ↔ EndsInHtml name := by
  rw [escapesHtml_eq]
  constructor
  · rintro ⟨ending, hmem, stem, hstem, hname⟩
    refine ⟨ending, hmem, String.ofList stem, toList_stem.2 (by simpa using hstem), ?_⟩
    split at hname
    · rename_i hsuffix
      obtain ⟨before, hbefore⟩ := List.isSuffixOf_iff_suffix.1 hsuffix
      right
      apply String.toList_injective
      rw [← hbefore] at hname ⊢
      have hlength : (before ++ ".j2".toList).length - 3 = before.length := by
        rw [List.length_append]
        exact Nat.add_sub_cancel _ 3
      rw [hlength, List.take_left] at hname
      rw [hname]
      simp
    · left
      apply String.toList_injective
      rw [hname]
      simp
  · rintro ⟨ending, hmem, stem, hstem, rfl | rfl⟩
    · refine ⟨ending, hmem, stem.toList, toList_stem.1 hstem, ?_⟩
      -- No ending of HTML is the end of `.j2`.
      have hlast : ∀ e ∈ ["html", "htm", "xml"], e.toList.reverse.headD '2' ≠ '2' ∧ e.toList.reverse ≠ [] := by decide
      have hnot : ¬ ".j2".toList.isSuffixOf (stem ++ ending).toList = true := by
        intro hsuffix
        obtain ⟨hc, hne⟩ := hlast ending hmem
        have hprefix := List.reverse_prefix.2 (List.isSuffixOf_iff_suffix.1 hsuffix)
        obtain ⟨c, cs, hending⟩ := List.exists_cons_of_ne_nil hne
        rw [String.toList_append, List.reverse_append, hending, List.cons_append] at hprefix
        rw [hending] at hc
        exact hc (List.cons_prefix_cons.1 hprefix).1.symm
      rw [if_neg hnot, String.toList_append]
    · refine ⟨ending, hmem, stem.toList, toList_stem.1 hstem, ?_⟩
      have hsuffix : ".j2".toList.isSuffixOf (stem ++ ending ++ ".j2").toList = true :=
        List.isSuffixOf_iff_suffix.2 ⟨(stem ++ ending).toList, String.toList_append.symm⟩
      have hlength : ((stem ++ ending).toList ++ ".j2".toList).length - 3 = (stem ++ ending).toList.length := by
        rw [List.length_append]
        exact Nat.add_sub_cancel _ 3
      rw [if_pos hsuffix, String.toList_append,
        hlength, List.take_left,
        String.toList_append]

/-! ## Escaped text -/

theorem not_mem_escapeChar (d : Char) {c : Char} (hc : c ∈ ['<', '>', '"', '\'', '/']) :
    c ∉ (Value.escapeChar d).toList := by
  have hnames : ∀ text ∈ ["&amp;", "&lt;", "&gt;", "&quot;", "&#x27;", "&#x2f;"], c ∉ text.toList := by
    intro text htext hmem
    have hfree : ∀ text ∈ ["&amp;", "&lt;", "&gt;", "&quot;", "&#x27;", "&#x2f;"],
        (text.toList.all fun d => !(['<', '>', '"', '\'', '/'].contains d)) = true := by decide
    have hcontains := List.all_eq_true.1 (hfree text htext) c hmem
    rw [List.contains_iff_mem.2 hc] at hcontains
    cases hcontains
  unfold Value.escapeChar
  split
  case h_7 hamp hlt hgt hquote hapostrophe hslash =>
    rw [String.toList_singleton]
    intro hmem
    obtain rfl := List.mem_singleton.1 hmem
    simp only [List.mem_cons, List.not_mem_nil, or_false] at hc
    rcases hc with rfl | rfl | rfl | rfl | rfl
    · exact hlt rfl
    · exact hgt rfl
    · exact hquote rfl
    · exact hapostrophe rfl
    · exact hslash rfl
  all_goals exact hnames _ (by decide)

/-- **Escaped text holds no mark of HTML.** -/
theorem not_mem_escapeText (s : String) {c : Char} (hc : c ∈ ['<', '>', '"', '\'', '/']) :
    c ∉ (Value.escapeText s).toList := by
  unfold Value.escapeText
  rw [String.toList_join, List.flatMap_map]
  intro hmem
  obtain ⟨d, -, hd⟩ := List.mem_flatMap.1 hmem
  exact not_mem_escapeChar d hc hd

end Template

/-! ## Variables of a page -/

theorem Table.get?_map {α β : Type} (g : α → β) (name : String) : ∀ t : List (String × α),
    Table.get? (t.map fun e => (e.1, g e.2)) name = (Table.get? t name).map g
  | [] => rfl
  | (k, v) :: t => by
    rw [List.map_cons, Table.get?, Table.get?, Table.get?_map g name t]
    split <;> rfl

/-- What metadata say under a name of their own is a variable of the page. -/
theorem ContentFile.get?_context {f : ContentFile} {fields : Fields} {name v : String} (globals : Fields)
    (hmeta : f.meta? = some fields) (hv : Table.get? fields name = some (.text v))
    (hown : name ∉ ["filename", "stats", "global"]) (hfilled : name ∈ ["published", "updated"] → v ≠ "") :
    Table.get? (f.context globals) name = some (.text v) := by
  have hmetadata : Table.get? f.metadata name = some (.text v) := by
    rw [metadata, hmeta]
    exact hv
  by_cases hdate : name ∈ f.dates.map (·.1)
  · obtain ⟨⟨given, m⟩, hm, rfl⟩ := List.mem_map.1 hdate
    have hspeaks : saysNothing (some (.text v)) = false := beq_false_of_ne (hfilled hdate)
    rw [f.context_date globals hm, hmetadata, hspeaks]
    rfl
  · rw [f.context_other globals hown hdate, hmetadata]

namespace Template

theorem Run.get?_start {env : Environment} {t : Template} {context : Fields} {session : Session RenderStack}
    {name : String} {d : Datum} (h : Table.get? context name = some d) :
    (Run.start t context session).get? env name = some (.ofDatum d) := by
  have hframe : (Table.get? (context.map fun e => (e.1, Value.ofDatum e.2)) name) = some (.ofDatum d) := by
    rw [Table.get?_map, h]
    rfl
  unfold Run.get? Run.start Frame.get?
  simp only [List.findSome?_cons, Table.get?, Option.none_or, ite_self, hframe, Option.some_or]

/-- A page that is nothing but a variable prints it, escaped by the page's name. -/
theorem render_variableSource {env : Environment} {page : Page} {name v : String} (hname : IsVariable name)
    (hsource : page.source = variableSource name) (hv : Table.get? page.context name = some (.text v))
    {s entered : Session RenderStack} (henter : env.scope.enter (.ofText page.name) s = .ok entered) :
    env.render page s = (.ok (if env.escapes page.name then Value.escapeText v else v), entered.leave) := by
  let t : Template := ⟨page.name, [.emit 1 (.variable 1 name)], []⟩
  have hread : readAt (.alone env.scope.tree) page.name page.source = .ok t := by
    rw [readAt_alone, hsource]
    exact read_variableSource hname page.name
  obtain ⟨n, hn⟩ := Nat.exists_eq_add_of_le' (Nat.le_trans (by decide : 1 ≤ 3) (Layout.three_le_levels env.scope.tree))
  have hvalue : (Run.startAt (.alone env.scope.tree) t page entered).get? env name = some (.ofDatum (.text v)) :=
    Run.get?_start hv
  obtain ⟨r, hrun, htext, hsession⟩ := runner_variable n ⟨env, page.name, env.escapes page.name, none⟩ hvalue rfl rfl
  rw [← hn] at hrun
  rw [← renderAt_alone]
  refine renderAt_eq_ok.2 ⟨entered, t, r, henter, hread, hrun, htext.symm, ?_⟩
  rw [hsession, Run.leave_startAt henter]

end Template

/-- A text is what its octets are read as. -/
theorem Bytes.toText_ofText (text : String) : (Bytes.ofText text).toText = text := by
  have hdecode : Text.decode (Bytes.ofText text) = text.toList := Text.decode_of_decode? (Text.decode?_encode text.toList)
  rw [Bytes.toText, hdecode, String.ofList_toList]

/-- A page that renders without a report is handed back with the text that it rendered to. -/
theorem Config.process_of_render (c : Config) (t : FileTree) (now : Calendar.Moment) {f : ContentFile} {page : Page}
    {text : String} {s after : RunSession} (hs : s.Idle) (hstream : f.contents.isStream = false)
    (hpage : f.page? c.globals c.htmlExtensions = some page)
    (hrender : (c.environment t now).render page s = (.ok text, after)) (hchannel : after.channel = s.channel) :
    (c.process t now f s).1 = ⟨some { f with contents := .buffer (Bytes.ofText text) }, .rendered, []⟩ := by
  have hwith : f.renderWith (c.environment t now).render c.globals c.htmlExtensions s =
      ({ f with contents := .buffer (Bytes.ofText text) }, .rendered, after) := by
    unfold ContentFile.renderWith
    rw [hstream, hpage]
    dsimp only
    rw [hrender]
    rfl
  unfold Config.process
  rw [transform_of_renderWith hwith, hchannel, hs.pending]
  rfl

/-- **A page that is nothing but a variable prints it escaped exactly if its name ends as those of HTML do.**  With
escaping on, and whatever else is configured, a file with one of the extensions of HTML whose text is a variable, and whose
metadata give a text to this variable and ask for no layout, is rendered to this text, escaped if the last stretch of its
path between dots, but for a `.j2`, is `html`, `htm` or `xml`, and as it is otherwise.  The escaped text holds no mark of
HTML. -/
theorem variable_printed (c : Config) (hescapes : c.autoescape = true) (t : FileTree) (now : Calendar.Moment)
    {f : ContentFile} {fields : Fields} {x v : String} {s : RunSession} (hs : s.Idle)
    (hpath : isHtml f.path c.htmlExtensions = true) (hmeta : f.meta? = some fields)
    (hlayout : layoutName? fields = none) (hx : Template.IsVariable x)
    (hown : x ∉ ["filename", "stats", "global"]) (hfilled : x ∈ ["published", "updated"] → v ≠ "")
    (hv : Table.get? fields x = some (.text v))
    (hcontents : f.contents = .buffer (Bytes.ofText (Template.variableSource x))) :
    ∃ printed, (c.process t now f s).1 =
        ⟨some { f with contents := .buffer (Bytes.ofText printed) }, .rendered, []⟩ ∧
      (Template.EndsInHtml f.path.text → printed = Template.Value.escapeText v ∧
        ∀ mark ∈ ['<', '>', '"', '\'', '/'], mark ∉ printed.toList) ∧
      (¬ Template.EndsInHtml f.path.text → printed = v) := by
  let page : Page := ⟨f.path.text, Template.variableSource x, f.context c.globals⟩
  let env := c.environment t now
  let printed := if env.escapes page.name then Template.Value.escapeText v else v
  have hne : Bytes.ofText (Template.variableSource x) ≠ [] := by
    intro hnil
    have hsource := Bytes.toText_ofText (Template.variableSource x)
    rw [hnil] at hsource
    have hlength := congrArg (fun text : String => text.toList.length) hsource
    simp only [Template.variableSource, String.toList_append, List.length_append] at hlength
    have hmark : "\x7b\x7b ".toList.length = 3 := rfl
    have hnothing : (Bytes.toText []).toList.length = 0 := rfl
    omega
  have hpage : f.page? c.globals c.htmlExtensions = some page := by
    rw [ContentFile.page?_eq_text hpath hmeta hlayout hcontents hne, Bytes.toText_ofText]
  have hstream : f.contents.isStream = false := by
    rw [hcontents]
    rfl
  have hfresh : (c.scope t now).resolve (.ofText page.name) ∉ s.engine.paths := by
    rw [hs.paths]
    exact List.not_mem_nil
  have hrender : env.render page s = (.ok printed, _) :=
    Template.render_variableSource hx rfl (ContentFile.get?_context c.globals hmeta hv hown hfilled)
      (Scope.enter_of_not_mem hfresh)
  have hname : env.escapes page.name = true ↔ Template.EndsInHtml f.path.text := by
    rw [← Template.escapesHtml_iff]
    show (c.autoescape && Template.escapesHtml f.path.text) = true ↔ _
    rw [hescapes, Bool.true_and]
  refine ⟨printed, c.process_of_render t now hs hstream hpage hrender rfl, ?_, ?_⟩
  · intro hends
    have hprinted : printed = Template.Value.escapeText v := if_pos (hname.2 hends)
    exact ⟨hprinted, fun mark hmark => hprinted ▸ Template.not_mem_escapeText v hmark⟩
  · intro hends
    exact if_neg (mt hname.1 hends)

/-- A title with a mark of HTML. -/
theorem variable_printed_title :
    let fields : Fields := [("title", .text "<b>")]
    let f : ContentFile := ⟨.ofText "a.html", .buffer (Bytes.ofText (Template.variableSource "title")), some fields,
      .at ⟨0, 0, 0⟩⟩
    let c := (Config.default (.ofText "/")).withAutoescape true
    isHtml f.path c.htmlExtensions = true ∧ Template.EndsInHtml f.path.text ∧
    (c.process (.empty []) ⟨0, 0, 0⟩ f RunSession.start).1 =
      ⟨some { f with contents := .buffer (Bytes.ofText "&lt;b&gt;") }, .rendered, []⟩ := by
  intro fields f c
  have hpath : isHtml f.path c.htmlExtensions = true := by decide +kernel
  have hname : f.path.text = "a.html" := by decide +kernel
  have hends : Template.EndsInHtml f.path.text := ⟨"html", by decide, "a.", .inr ⟨"a", rfl⟩, .inl hname⟩
  have hx : Template.IsVariable "title" := ⟨⟨'t', ['i', 't', 'l', 'e'], rfl, by decide, by decide⟩, by decide⟩
  have hmeta : f.meta? = some fields := rfl
  obtain ⟨printed, hprocess, hescaped, -⟩ := variable_printed c rfl (.empty []) ⟨0, 0, 0⟩ Session.Idle.start hpath hmeta
    rfl hx (by decide) (by decide) rfl rfl
  obtain rfl : printed = "&lt;b&gt;" := (hescaped hends).1.trans (by decide +kernel)
  exact ⟨hpath, hends, hprocess⟩

/-- A page whose name ends in capital letters prints a mark of HTML as it is, and one that asks for a layout does not print
the variable alone: without the layout it fails. -/
theorem variable_printed_raw :
    let fields : Fields := [("x", .text "<b>")]
    let f : ContentFile := ⟨.ofText "a.HTML", .buffer (Bytes.ofText (Template.variableSource "x")), some fields,
      .at ⟨0, 0, 0⟩⟩
    let laidOut : ContentFile := { f with path := .ofText "a.html", meta? := some (("template", .text "b.html") :: fields) }
    let c := (Config.default (.ofText "/")).withAutoescape true
    isHtml f.path c.htmlExtensions = true ∧
    (c.process (.empty []) ⟨0, 0, 0⟩ f RunSession.start).1 =
      ⟨some { f with contents := .buffer (Bytes.ofText "<b>") }, .rendered, []⟩ ∧
    isHtml laidOut.path c.htmlExtensions = true ∧
    (c.process (.empty []) ⟨0, 0, 0⟩ laidOut RunSession.start).1.status = .failed := by
  intro fields f laidOut c
  refine ⟨by decide +kernel, ?_, by decide +kernel, by decide +kernel⟩
  let page : Page := ⟨"a.HTML", Template.variableSource "x", f.context []⟩
  have hx : Template.IsVariable "x" := ⟨⟨'x', [], rfl, by decide, by decide⟩, by decide⟩
  have hpage : f.page? c.globals c.htmlExtensions = some page := by rfl
  let env := c.environment (.empty []) ⟨0, 0, 0⟩
  have hraw : env.escapes page.name = false := by decide
  have hv : Table.get? page.context "x" = some (.text "<b>") := by rfl
  have henter : env.scope.enter (.ofText page.name) RunSession.start = .ok _ :=
    Scope.enter_of_not_mem List.not_mem_nil
  have hrender := Template.render_variableSource hx rfl hv henter
  rw [hraw] at hrender
  exact c.process_of_render (.empty []) ⟨0, 0, 0⟩ Session.Idle.start rfl hpage hrender rfl

end Folio
