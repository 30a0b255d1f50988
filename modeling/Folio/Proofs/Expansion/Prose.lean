import Folio.Config
import Folio.Proofs.Expansion.Supply
import Folio.Proofs.Markdown.Paragraph
import Folio.Proofs.Template.Phrase
import Mathlib.Data.Bool.AllAny
/-!
# Lines of Markdown with expressions in them

The filter `render` converts a file that is not HTML before the engine sees its source.  A line of words and expressions is
a paragraph without markup (`Phrase.IsLine.isSimple`), and the converter writes it as it stands but for its double quotes,
which become references (`toHtml_of_not_mem`, `toHtml_of_mem`).  So the file expands to the paragraph of what the line
renders to, unless an expression holds a double quote: then its source is no template any more, and the filter reports the
reference (`line_expands`).
-/
namespace Folio

open Markdown (marks Joined isWordPart IsSimple)

namespace Template

/-- A line that begins and ends with a word or an expression: between them stand blanks, words and expressions. -/
structure Phrase.IsLine (p : Phrase) : Prop where
  texts : ∀ part ∈ p.parts, ∀ c ∈ part.1, IsLetter c ∨ c = ' '
  last : ∀ c ∈ p.last, IsLetter c ∨ c = ' '
  front : p.source.head?.any (· != ' ') = true
  back : p.source.getLast? ≠ some ' '

/-- The line as a paragraph of HTML. -/
def Phrase.paragraph (p : Phrase) : Phrase := p.enclose "<p>".toList "</p>\n".toList

/-- What stands in such a line beside words. -/
def lineSigns : List Char := Interpolation.signs ++ ['_', '\'', '"']

theorem Literal.kind_of_mem {l : Literal} {c : Char} (h : c ∈ l.source) : IsLetter c ∨ c ∈ lineSigns := by
  refine (Literal.of_mem h).imp_right ?_
  rintro rfl
  obtain hquote | hquote := l.isQuote
  · rw [hquote]
    decide
  · rw [hquote]
    decide

theorem Interpolation.kind_of_mem {i : Interpolation} {c : Char} (h : c ∈ i.source) : IsLetter c ∨ c ∈ lineSigns := by
  rcases Interpolation.of_mem h with h | h | ⟨a, -, h⟩ | h
  · exact Literal.kind_of_mem h
  · refine (i.named.of_mem h).imp_right ?_
    rintro rfl
    decide
  · exact Literal.kind_of_mem h
  · exact .inr (List.mem_append_left _ h)

theorem Phrase.IsLine.kind_of_mem {p : Phrase} (hp : p.IsLine) {c : Char} (h : c ∈ p.source) :
    IsLetter c ∨ c ∈ lineSigns := by
  have hword : ∀ {c}, IsLetter c ∨ c = ' ' → IsLetter c ∨ c ∈ lineSigns := fun h => h.imp_right (by rintro rfl; decide)
  rcases List.mem_append.1 h with h | h
  · obtain ⟨part, hpart, h⟩ := List.mem_flatMap.1 h
    rcases List.mem_append.1 h with h | h
    · exact hword (hp.texts part hpart c h)
    · exact Interpolation.kind_of_mem h
  · exact hword (hp.last c h)

/-! ## The paragraph -/

/-- The underscores of a filter's name stand between letters and digits. -/
theorem joined_filter {name : String} (hname : IsFilterName name) {rest : List Char}
    (hrest : ∀ before, Joined before rest) (before : Bool) : Joined before (name.toList ++ rest) := by
  obtain ⟨c, cs, hspelled, hc, hcs⟩ := hname.spelled
  have hline : c ≠ '_' := by
    rintro rfl
    cases hc
  have hpart : isWordPart c = true := by rw [isWordPart, Char.isAlphanum, hc, Bool.true_or, Bool.or_true]
  rw [hspelled]
  refine ⟨fun h => absurd h hline, ?_⟩
  rw [hpart]
  refine Markdown.joined_append_of_word hrest hcs fun hlast => hname.2.2 ?_
  rw [hspelled, List.getLast?_cons, hlast]
  rfl

theorem joined_interpolation (i : Interpolation) {rest : List Char} (hrest : ∀ before, Joined before rest) (before : Bool) :
    Joined before (i.source ++ rest) := by
  have hliteral : ∀ l : Literal, '_' ∉ l.source := fun l => l.not_mem (by decide)
  have hbrackets : '_' ∉ Interpolation.brackets i.argument ++ [' ', '}', '}'] := by
    cases i.argument with
    | none => decide
    | some a => simp [Interpolation.brackets, hliteral a]
  have hfront : '_' ∉ '{' :: '{' :: ' ' :: (i.subject.source ++ [' ', '|', ' ']) := by simp [hliteral]
  have hsource : i.source ++ rest = ('{' :: '{' :: ' ' :: (i.subject.source ++ [' ', '|', ' '])) ++
      (i.filter.toList ++ ((Interpolation.brackets i.argument ++ [' ', '}', '}']) ++ rest)) := by
    simp [Interpolation.source]
  rw [hsource]
  refine Markdown.joined_append_of_not_mem (joined_filter i.named ?_) hfront before
  exact Markdown.joined_append_of_not_mem hrest hbrackets

namespace Phrase.IsLine

variable {p : Phrase} (hp : p.IsLine)
include hp

theorem joined_source (before : Bool) : Joined before p.source := by
  have hword : ∀ {text : List Char}, (∀ c ∈ text, IsLetter c ∨ c = ' ') → '_' ∉ text := fun htext hmem =>
    absurd (htext _ hmem) (by decide)
  have hlast : ∀ before, Joined before p.last := by
    have hnil : ∀ before, Joined before [] := fun _ => trivial
    have hjoined := Markdown.joined_append_of_not_mem hnil (hword hp.last)
    rwa [List.append_nil] at hjoined
  have hparts : ∀ parts : List (List Char × Interpolation), (∀ part ∈ parts, ∀ c ∈ part.1, IsLetter c ∨ c = ' ') →
      ∀ before, Joined before (spell Interpolation.source parts ++ p.last) := by
    intro parts
    induction parts with
    | nil => exact fun _ => hlast
    | cons part parts ih =>
      intro h
      obtain ⟨hpart, hparts⟩ := List.forall_mem_cons.1 h
      have hrest := joined_interpolation part.2 (ih hparts)
      have hsource : spell Interpolation.source (part :: parts) ++ p.last =
          part.1 ++ (part.2.source ++ (spell Interpolation.source parts ++ p.last)) := by
        simp [spell]
      rw [hsource]
      exact Markdown.joined_append_of_not_mem hrest (hword hpart)
  exact hparts p.parts hp.texts before

/-- No bracket closes behind digits alone. -/
theorem unnumbered : (p.source.dropWhile Char.isDigit).head? ≠ some ')' := by
  have hword : ∀ {text rest : List Char}, (∀ c ∈ text, IsLetter c ∨ c = ' ') →
      (rest.dropWhile Char.isDigit).head? ≠ some ')' → ((text ++ rest).dropWhile Char.isDigit).head? ≠ some ')' := by
    intro text rest htext hrest
    induction text with
    | nil => exact hrest
    | cons c text ih =>
      obtain ⟨hc, htext⟩ := List.forall_mem_cons.1 htext
      rw [List.cons_append, List.dropWhile_cons]
      split
      · exact ih htext
      · intro heq
        rw [Option.some.inj heq] at hc
        exact absurd hc (by decide)
  obtain ⟨parts, last⟩ := p
  cases parts with
  | nil =>
    have hnil : (([] : List Char).dropWhile Char.isDigit).head? ≠ some ')' := nofun
    have hlast := hword hp.last hnil
    rwa [List.append_nil] at hlast
  | cons part parts =>
    have hsource : source ⟨part :: parts, last⟩ =
        part.1 ++ ('{' :: (part.2.source.tail ++ (spell Interpolation.source parts ++ last))) := by
      simp [source, spell, Interpolation.source]
    rw [hsource]
    refine hword (hp.texts part List.mem_cons_self) ?_
    rw [List.dropWhile_cons_of_neg (by decide), List.head?_cons]
    decide

theorem isAsciiBlank_eq_false {c : Char} (h : c ∈ p.source) (hspace : c ≠ ' ') : Markdown.isAsciiBlank c = false := by
  have hspaceless : c.toNat ≤ 13 → False := fun hle => by
    rcases hp.kind_of_mem h with (hletter | hletter) | hsign
    · have hrange := Text.range_of_isAlphanum hletter
      omega
    · omega
    · have hsigns : ∀ d ∈ lineSigns, ¬ d.toNat ≤ 13 := List.all_iff_forall_prop.1 (by decide)
      exact hsigns c hsign hle
  simp only [Markdown.isAsciiBlank, Bool.or_eq_false_iff, beq_eq_false_iff_ne, Bool.and_eq_false_iff,
    decide_eq_false_iff_not]
  exact ⟨hspace, .inr hspaceless⟩

/-- **Such a line has no markup.** -/
theorem isSimple : IsSimple p.source where
  quiet c hc hmark := by
    have hnot : ∀ m ∈ marks, ¬ (IsLetter m ∨ m ∈ lineSigns) := List.all_iff_forall_prop.1 (by decide)
    exact hnot c hmark (hp.kind_of_mem hc)
  underscores := hp.joined_source false
  front := by
    have hfront := hp.front
    have hkind := fun c => hp.kind_of_mem (c := c)
    cases hsource : p.source with
    | nil =>
      rw [hsource] at hfront
      cases hfront
    | cons c rest =>
      rw [hsource] at hfront hkind
      refine ⟨c, rest, rfl, bne_iff_ne.1 hfront, ?_⟩
      rintro rfl
      exact absurd (hkind _ List.mem_cons_self) (by decide)
  last c hc := by
    refine hp.isAsciiBlank_eq_false (List.mem_of_getLast? hc) ?_
    rintro rfl
    exact hp.back hc
  unnumbered := hp.unnumbered

/-- The engine takes the texts as they are, alone and between the tags of a paragraph. -/
theorem quiet : p.Quiet ∧ p.paragraph.Quiet := by
  have hword : ∀ {c : Char}, c = '{' ∨ c = '\n' ∨ c = '"' → ¬ (IsLetter c ∨ c = ' ') := by
    rintro c (rfl | rfl | rfl)
    all_goals decide
  have hquiet : ∀ {text : List Char}, (∀ c ∈ text, IsLetter c ∨ c = ' ') → Template.Quiet text := fun htext =>
    ⟨fun h => hword (.inl rfl) (htext _ h), fun h => hword (.inr (.inl rfl)) (htext _ h),
      fun h => hword (.inr (.inr rfl)) (htext _ h)⟩
  have htexts : ∀ part ∈ p.parts, Template.Quiet part.1 := fun part hpart => hquiet (hp.texts part hpart)
  obtain ⟨hbrace, -, hquote⟩ := hquiet hp.last
  refine ⟨⟨htexts, hbrace, hquote⟩, ?_⟩
  obtain ⟨parts, last⟩ := p
  cases parts with
  | nil => exact ⟨fun _ hpart => (nomatch hpart), by simp [paragraph, enclose, hbrace, hquote]⟩
  | cons part parts =>
    obtain ⟨⟨hopen, hbreak, hmark⟩, hrest⟩ := List.forall_mem_cons.1 htexts
    refine ⟨List.forall_mem_cons.2 ⟨⟨?_, ?_, ?_⟩, hrest⟩, by simp [paragraph, enclose, hbrace, hquote]⟩
    · simp [hopen]
    · simp [hbreak]
    · simp [hmark]

end Phrase.IsLine

/-! ## What the converter makes of a line -/

theorem Phrase.source_paragraph (p : Phrase) : p.paragraph.source = "<p>".toList ++ (p.source ++ "</p>\n".toList) :=
  spell_enclose Interpolation.source _ _ p

theorem Phrase.output_paragraph (p : Phrase) (shown : Interpolation → String) :
    p.paragraph.output shown = "<p>" ++ p.output shown ++ "</p>\n" := by
  apply String.toList_injective
  have hspelled := spell_enclose (fun i => (shown i).toList) "<p>".toList "</p>\n".toList p
  rw [output, String.toList_ofList, paragraph, hspelled]
  simp [output]

theorem Phrase.IsLine.plain_of_mem {p : Phrase} (hp : p.IsLine) {c : Char} (hc : c ∈ p.source) :
    c ∉ ['&', '<', '>'] := fun hmem => by
  have hnot : ∀ d ∈ ['&', '<', '>'], ¬ (IsLetter d ∨ d ∈ lineSigns) := List.all_iff_forall_prop.1 (by decide)
  exact hnot c hmem (hp.kind_of_mem hc)

section
variable {p : Phrase} (hp : p.IsLine) {tail : List Char} (htail : tail = [] ∨ tail = ['\n'])
include hp htail

/-- **A line without double quotes is written as it stands.** -/
theorem toHtml_of_not_mem (hquote : '"' ∉ p.source) :
    Markdown.toHtml .default (String.ofList (p.source ++ tail)) = String.ofList p.paragraph.source := by
  have hplain : ∀ c ∈ p.source, c ∉ ['&', '<', '>', '"'] := fun c hc hmem => by
    rcases List.mem_append.1 (show c ∈ ['&', '<', '>'] ++ ['"'] from hmem) with hmem | hmem
    · exact hp.plain_of_mem hc hmem
    · exact hquote (List.mem_singleton.1 hmem ▸ hc)
  rw [hp.isSimple.toHtml_eq htail, Markdown.escape_eq_self hplain, p.source_paragraph]

/-- **The first double quote of a line is written as a reference.** -/
theorem toHtml_of_mem (hquote : '"' ∈ p.source) : ∃ rest, Markdown.toHtml .default (String.ofList (p.source ++ tail)) =
    String.ofList (p.paragraph.source.takeWhile (· != '"') ++ '&' :: rest) := by
  obtain ⟨rest, hrest⟩ := Markdown.escape_of_quote (fun c hc => hp.plain_of_mem hc) hquote
  have hwhole : (p.source.takeWhile (· != '"')).length ≠ p.source.length := fun hlength => by
    have hsame := (List.takeWhile_prefix (· != '"')).eq_of_length hlength
    rw [← hsame] at hquote
    have hall := List.all_eq_true.1 (List.all_takeWhile (p := (· != '"')) (l := p.source)) '"' hquote
    exact absurd hall (by decide)
  have hfront : p.paragraph.source.takeWhile (· != '"') = "<p>".toList ++ p.source.takeWhile (· != '"') := by
    rw [p.source_paragraph, List.takeWhile_append_of_pos (List.all_eq_true.1 (by decide)), List.takeWhile_append, if_neg hwhole]
  refine ⟨rest ++ "</p>\n".toList, ?_⟩
  rw [hp.isSimple.toHtml_eq htail, hrest, hfront, List.append_assoc, List.append_assoc, List.cons_append]

end

/-! ## What the file expands to -/

/-- **Expressions survive the converter unless they hold a double quote.**  Let a file that is not HTML have for its body one
line of words and expressions, and let the filters of these come to values without a report.  Rendered as a template, the
line comes to a text.  If there is no double quote in the line, a call of the filter `render` on the file has for its value
the paragraph of this text, and nothing is reported.  Otherwise the call has no value, and it is reported that no token
begins with the first character of the reference that the converter wrote for the quote.  In both cases the stack is as it
was. -/
theorem line_expands {run : Runner} {watch : Watch} {here : Here} {r : Run} {name text : String}
    {matter : FrontMatter.Split} {p : Phrase} {tail : List Char} {value : Interpolation → Value}
    (hserves : Serves here.env r.session.engine.paths run watch)
    (hname : Table.get? here.env.filters name = some (.builtin .render))
    (hmarkdown : here.env.scope.markdown = Markdown.Options.default.converter)
    (hhtml : here.env.scope.isHtml (.ofText text) = false)
    (hread : here.env.scope.readMatter (.ofText text) = .ok matter)
    (hbody : matter.body = String.ofList (p.source ++ tail)) (htail : tail = [] ∨ tail = ['\n']) (hline : p.IsLine)
    (hfresh : here.env.scope.resolve (.ofText text) ∉ r.session.engine.paths)
    (hvalue : ∀ i ∈ p.interpolations, Answers here.env i (value i)) (line : Nat) (safe : Bool) (args : Arguments) :
    let reference : Fault := ⟨.unexpected "character" none, some ⟨text, 1⟩⟩
    ∃ out after,
      here.env.render ⟨text, String.ofList p.source, matter.attributes⟩ r.session = (.ok out, after) ∧
      after.engine.paths = r.session.engine.paths ∧ after.channel = r.session.channel ∧
      applyFilter run here line name (.text text safe) args r =
        if '"' ∈ p.source then
          .ok .undefined { r with session := after.report (filterReport name (.ofFault reference) after) }
        else .ok (.safe ("<p>" ++ out ++ "</p>\n")) { r with session := after } := by
  intro reference
  obtain ⟨env, template, escaping, block⟩ := here
  let entered : Session RenderStack :=
    { r.session with engine := r.session.engine.become (r.session.engine.paths ++ [env.scope.resolve (.ofText text)]) }
  have henter : env.scope.enter (.ofText text) r.session = .ok entered := Scope.enter_of_not_mem hfresh
  let out := p.output fun i => Here.shown ⟨env, text, env.escapes text, none⟩ (value i)
  obtain ⟨n, hn⟩ := Nat.exists_eq_add_of_le' (Nat.le_trans (by decide : 1 ≤ 3) (Layout.three_le_levels env.scope.tree))
  obtain ⟨hquiet, hquietAround⟩ := hline.quiet
  have hdirect : env.render ⟨text, String.ofList p.source, matter.attributes⟩ r.session = (.ok out, entered.leave) := by
    have hevaluate : ∀ here body, here.env = env →
        (runner (levels env.scope.tree)).evaluate here body = Runner.within evaluateNested (n + 1) here body :=
      fun _ _ _ => by rw [hn]; rfl
    have hnamed := renderNamed_phrase hevaluate hquiet hvalue text matter.attributes (entered.loading [])
    unfold Environment.render
    dsimp only
    rw [henter]
    dsimp only
    rw [hnamed]
    rfl
  -- The runner of the caller evaluates the file with as many levels as the page has.
  obtain ⟨file, _, hfile, -⟩ := hserves.inside _ (Scope.readable_of_readMatter hread) hfresh
  have hcall : renderFile run env (.text text safe) r.session =
      (if '"' ∈ p.source then .error (.ofFault reference) else .ok (.safe ("<p>" ++ out ++ "</p>\n")), entered.leave) := by
    have hconverted : env.scope.markdown matter.body =
        .ok (Markdown.toHtml .default (String.ofList (p.source ++ tail))) := by
      rw [hmarkdown, hbody]
      rfl
    unfold renderFile pathText
    dsimp only
    rw [hread]
    dsimp only
    rw [henter]
    dsimp only
    rw [hhtml, if_neg Bool.false_ne_true, hconverted]
    dsimp only
    by_cases hquote : '"' ∈ p.source
    · have haround : '"' ∈ p.paragraph.source := by
        rw [p.source_paragraph]
        exact List.mem_append_right _ (List.mem_append_left _ hquote)
      obtain ⟨rest, hsource⟩ := toHtml_of_mem hline htail hquote
      rw [hsource, renderNamed, Phrase.read_broken hquietAround haround, if_pos hquote]
    · have haround : ∀ i ∈ p.paragraph.interpolations, Answers env i (value i) := by
        rw [Phrase.paragraph, p.interpolations_enclose]
        exact hvalue
      have hevaluate : ∀ here body, here.env = env → run.file here body = Runner.within file (n + 1) here body :=
        fun here body hh => by rw [(hfile here body hh).1, hn]
      have hnamed := renderNamed_phrase hevaluate hquietAround haround text matter.attributes entered
      rw [toHtml_of_not_mem hline htail hquote, hnamed, if_neg hquote]
      dsimp only
      rw [p.output_paragraph]
  refine ⟨out, entered.leave, hdirect, List.dropLast_concat, rfl, ?_⟩
  rw [applyFilter_of_get? hname]
  show EStateM.Result.ok (settled name (renderFile run env (.text text safe) r.session)).1
    { r with session := (settled name (renderFile run env (.text text safe) r.session)).2 } = _
  rw [hcall]
  split
  · rfl
  · rfl

/-- A line with an expression in single quotes, and the paragraph that it expands to. -/
theorem line_expands_greeting :
    let f : Callable := fun _ => .ok (.plain "B")
    let a : Literal := ⟨'\'', "a", by decide, List.all_iff_forall_prop.1 (by decide)⟩
    let p : Phrase := ⟨[("Hi ".toList, ⟨a, "shout", some a, by decide⟩)], " 2".toList⟩
    let tree : FileTree := ⟨[([Bytes.ofText "note.md"], .file (Bytes.ofText (String.ofList (p.source ++ ['\n']))))], []⟩
    let env := ((Config.default (.ofText "/")).withFilter "shout" f).environment tree ⟨0, 0, 0⟩
    let r : Run := .start ⟨"t.html", [], []⟩ [] ⟨.empty, ⟨[.ofText "/t.html"], [], []⟩⟩
    String.ofList p.source = "Hi \x7b\x7b 'a' | shout('a') \x7d\x7d 2" ∧
    ∃ after, applyFilter (runner 0) ⟨env, "t.html", false, none⟩ 1 "render" (.plain "note.md") ⟨[], []⟩ r =
      .ok (.safe "<p>Hi B 2</p>\n") { r with session := after } ∧ after.channel = .empty := by
  intro f a p tree env r
  let here : Here := ⟨env, "t.html", false, none⟩
  have hserves : Serves here.env r.session.engine.paths (runner 0) (watcher 0) := runner_serves _ _ 0
  have hname : Table.get? here.env.filters "render" = some (.builtin .render) := by rfl
  have hhtml : here.env.scope.isHtml (.ofText "note.md") = false := by decide +kernel
  let matter := FrontMatter.splitOctets (Bytes.ofText (String.ofList (p.source ++ ['\n'])))
  have hread : here.env.scope.readMatter (.ofText "note.md") = .ok matter := by rfl
  have hbody : matter.body = String.ofList (p.source ++ ['\n']) := by decide +kernel
  have htexts : ∀ part ∈ p.parts, ∀ c ∈ part.1, IsLetter c ∨ c = ' ' := fun part hpart => by
    obtain rfl := List.mem_singleton.1 hpart
    exact List.all_iff_forall_prop.1 (by decide)
  have hlast : ∀ c ∈ p.last, IsLetter c ∨ c = ' ' := List.all_iff_forall_prop.1 (by decide)
  have hline : p.IsLine := ⟨htexts, hlast, by decide +kernel, by decide +kernel⟩
  have hfresh : here.env.scope.resolve (.ofText "note.md") ∉ r.session.engine.paths := by decide +kernel
  have hvalue : ∀ i ∈ p.interpolations, Answers here.env i (.plain "B") := fun i hi => by
    obtain rfl := List.mem_singleton.1 hi
    exact .of_custom (f := f) (by rfl) rfl
  obtain ⟨out, after, hdirect, -, hchannel, hcall⟩ :=
    line_expands hserves hname rfl hhtml hread hbody (.inr rfl) hline hfresh hvalue 1 false ⟨[], []⟩
  have hout : (here.env.render ⟨"note.md", String.ofList p.source, matter.attributes⟩ r.session).1 = .ok "Hi B 2" :=
    eq_ok_of_mapError (by decide +kernel)
  rw [hdirect] at hout
  obtain rfl : out = "Hi B 2" := Except.ok.inj hout
  rw [if_neg (by decide +kernel)] at hcall
  exact ⟨by decide +kernel, after, hcall, hchannel⟩

/-- **One double quote in an expression makes the file fail**: the engine reads the line as it stands, and not what the
converter makes of it. -/
theorem line_lost_at_quote :
    let f : Callable := fun _ => .ok (.plain "A")
    let line := "\x7b\x7b 'a' | shout(\"b\") \x7d\x7d"
    let tree : FileTree := ⟨[([Bytes.ofText "note.md"], .file (Bytes.ofText line))], []⟩
    let env := ((Config.default (.ofText "/")).withFilter "shout" f).environment tree ⟨0, 0, 0⟩
    (env.render ⟨"note.md", line, []⟩ ⟨.empty, .empty⟩).1 = .ok "A" ∧
    let outcome := env.render ⟨"t.html", "\x7b\x7b 'note.md' | render \x7d\x7d", []⟩ ⟨.empty, .empty⟩
    outcome.1 = .ok "" ∧ outcome.2.channel.pending.map (·.message) =
      ["render: template error: syntax error: unexpected character (in note.md:1)"] := by
  intro f line tree env
  exact ⟨eq_ok_of_mapError (by decide +kernel), eq_ok_of_mapError (by decide +kernel), by decide +kernel⟩

end Template
end Folio
