import Folio.Config
import Folio.Proofs.Stack.Nesting
/-!
# Which renders are refused

The filter `render` reads its file before it enters the path.  So it refuses a path on the stack if its file can be read,
and gives another reason if not (`renderFile_eq_cyclic_iff`).  All paths above a page were read when they were put there;
the page itself need not be in the tree, and is the only one that can be marked and unreadable.
-/
namespace Folio

theorem Scope.readMatter_of_read {scope : Scope} {p : Path} {octets : Bytes}
    (h : scope.tree.read (scope.resolve p) = .ok octets) :
    scope.readMatter p = .ok (FrontMatter.splitOctets octets) := by
  unfold readMatter
  rw [h]

theorem Scope.readMatter_of_denied {scope : Scope} {p : Path} {denial : Denial}
    (h : scope.tree.read (scope.resolve p) = .error denial) : scope.readMatter p = .error (.denied p denial) := by
  unfold readMatter
  rw [h]

/-- A path can be read exactly if the file that it leads to can. -/
theorem Scope.exists_readMatter_iff {scope : Scope} {p : Path} :
    (∃ matter, scope.readMatter p = .ok matter) ↔ ∃ octets, scope.tree.read (scope.resolve p) = .ok octets := by
  cases h : scope.tree.read (scope.resolve p) with
  | ok octets => exact iff_of_true ⟨_, readMatter_of_read h⟩ ⟨octets, rfl⟩
  | error denial =>
    refine iff_of_false ?_ (fun ⟨_, he⟩ => nomatch he)
    rintro ⟨matter, hm⟩
    rw [readMatter_of_denied h] at hm
    cases hm

/-- A fault inside of a template is not a refusal of the template. -/
theorem Failure.ofFault_ne_cyclic (fault : Template.Fault) (p : Path) (chain : List Path) :
    ofFault fault ≠ .cyclic p chain := by
  unfold ofFault
  split
  all_goals exact fun h => nomatch h

namespace Template

variable {env : Environment} {text : String} {s : Session RenderStack}

/-- The answer for a path that is not on the stack. -/
theorem renderFile_entered {matter : FrontMatter.Split} (hm : env.scope.readMatter (.ofText text) = .ok matter)
    (hfresh : env.scope.resolve (.ofText text) ∉ s.engine.paths) (run : Runner) (safe : Bool) {p : Path}
    {chain : List Path} :
    (renderFile run env (.text text safe) s).1 = .error (.cyclic p chain) ↔
      env.scope.isHtml (.ofText text) = false ∧ env.scope.markdown matter.body = .error (.cyclic p chain) := by
  unfold renderFile pathText
  simp only [hm, Scope.enter_of_not_mem hfresh]
  cases hhtml : env.scope.isHtml (.ofText text) with
  | true =>
    refine iff_of_false ?_ (fun h => nomatch h.1)
    simp only [if_true]
    split
    · exact fun h => nomatch h
    · exact fun h => Failure.ofFault_ne_cyclic _ p chain (Except.error.inj h)
  | false =>
    simp only [Bool.false_eq_true, if_false, true_and]
    cases env.scope.markdown matter.body with
    | error failure => simp only [Except.error.injEq]
    | ok source =>
      dsimp only
      refine iff_of_false ?_ (fun h => nomatch h)
      split
      · exact fun h => nomatch h
      · exact fun h => Failure.ofFault_ne_cyclic _ p chain (Except.error.inj h)

/-- **When a file is refused**: it can be read, and its path is on the stack; or a converter that is asked for the file
fails in this way itself. -/
theorem renderFile_eq_cyclic_iff (run : Runner) (safe : Bool) {p : Path} {chain : List Path} :
    (renderFile run env (.text text safe) s).1 = .error (.cyclic p chain) ↔
      ∃ matter, env.scope.readMatter (.ofText text) = .ok matter ∧
        ((env.scope.resolve (.ofText text) ∈ s.engine.paths ∧ p = env.scope.resolve (.ofText text) ∧
            chain = s.engine.paths) ∨
          (env.scope.resolve (.ofText text) ∉ s.engine.paths ∧ env.scope.isHtml (.ofText text) = false ∧
            env.scope.markdown matter.body = .error (.cyclic p chain))) := by
  cases hm : env.scope.readMatter (.ofText text) with
  | error failure =>
    refine iff_of_false ?_ (fun ⟨_, he, _⟩ => nomatch he)
    have hfailure : failure ≠ .cyclic p chain := by
      unfold Scope.readMatter at hm
      split at hm
      · cases hm
      · exact fun h => nomatch (Except.error.inj hm).trans h
    unfold renderFile pathText
    simp only [hm]
    exact fun h => hfailure (Except.error.inj h)
  | ok matter =>
    simp only [Except.ok.injEq, exists_eq_left']
    by_cases hmarked : env.scope.resolve (.ofText text) ∈ s.engine.paths
    · rw [renderFile_refused hmarked, Scope.refusal, hm]
      simp only [hmarked, true_and, not_true_eq_false, false_and, or_false, Except.error.injEq, Failure.cyclic.injEq]
      exact and_congr eq_comm eq_comm
    · rw [renderFile_entered hm hmarked]
      simp only [hmarked, false_and, not_false_eq_true, true_and, false_or]

end Template

/-- In the render of a page only the page itself can be marked and unreadable. -/
theorem render_marked_unreadable (env : Template.Environment) (page : Page) {s : Session RenderStack}
    (hs : s.engine.paths = []) :
    ∃ moments, (env.render page s).2.engine.history = moments ++ s.engine.history ∧
      ∀ m ∈ moments, ∀ key ∈ m, (∃ denial, env.scope.tree.read key = .error denial) →
        key = env.scope.resolve (.ofText page.name) := by
  obtain ⟨-, moments, hhistory, -, habove⟩ := render_course env page s
  rw [hs] at habove
  refine ⟨moments, hhistory, fun m hm key hkey ⟨denial, hdenied⟩ => ?_⟩
  obtain rfl | ⟨above, rfl, hreadable⟩ := habove m hm
  · cases hkey
  · rcases List.mem_cons.1 hkey with rfl | habove
    · rfl
    · obtain ⟨-, octets, hread⟩ := hreadable key habove
      rw [hread] at hdenied
      cases hdenied

open Template in
/-- **The filter refuses exactly the files in progress that can be read.**  What it does for a path on the stack depends on
whether the file can be read: if so it fails with the path in normal form and the whole stack, and if not it says why.
Either way it has no value, the stack is as it was, and one report is made.  Unless a converter itself fails in this way,
nothing else is refused.  In the render of a page, what is on the stack and cannot be read is the page itself. -/
theorem render_refuses_iff (env : Environment) :
    (∀ (run : Runner) (text : String) (safe : Bool) (s : Session RenderStack),
      let key := env.scope.resolve (.ofText text)
      (key ∈ s.engine.paths →
        (∀ octets, env.scope.tree.read key = .ok octets →
          renderFile run env (.text text safe) s = (.error (.cyclic key s.engine.paths), s)) ∧
        ∀ denial, env.scope.tree.read key = .error denial →
          renderFile run env (.text text safe) s = (.error (.denied (.ofText text) denial), s)) ∧
      (∀ p chain, (renderFile run env (.text text safe) s).1 = .error (.cyclic p chain) ↔
        ∃ octets, env.scope.tree.read key = .ok octets ∧
          ((key ∈ s.engine.paths ∧ p = key ∧ chain = s.engine.paths) ∨
            (key ∉ s.engine.paths ∧ env.scope.isHtml (.ofText text) = false ∧
              env.scope.markdown (FrontMatter.splitOctets octets).body = .error (.cyclic p chain))))) ∧
    (∀ (run : Runner) (here : Here) (line : Nat) (name text : String) (safe : Bool) (args : Template.Arguments) (r : Run),
      here.env = env → Table.get? env.filters name = some (.builtin .render) →
      env.scope.resolve (.ofText text) ∈ r.session.engine.paths →
      ∃ after, applyFilter run here line name (.text text safe) args r = .ok .undefined after ∧
        after = { r with session := after.session } ∧ after.session.engine = r.session.engine ∧
        after.session.channel = r.session.channel.report (filterReport name
          (env.scope.refusal (.ofText text) r.session.engine.paths) r.session)) ∧
    ∀ (page : Page) (s : Session RenderStack), s.engine.paths = [] →
      ∃ moments, (env.render page s).2.engine.history = moments ++ s.engine.history ∧
        ∀ m ∈ moments, ∀ key ∈ m, (∃ denial, env.scope.tree.read key = .error denial) →
          key = env.scope.resolve (.ofText page.name) := by
  refine ⟨fun run text safe s => ⟨fun hmarked => ⟨fun octets hread => ?_, fun denial hdenied => ?_⟩, fun p chain => ?_⟩,
    ?_, fun page s hs => render_marked_unreadable env page hs⟩
  · rw [renderFile_refused hmarked, Scope.refusal, Scope.readMatter_of_read hread]
  · rw [renderFile_refused hmarked, Scope.refusal, Scope.readMatter_of_denied hdenied]
  · rw [renderFile_eq_cyclic_iff]
    constructor
    · rintro ⟨matter, hm, hcase⟩
      obtain ⟨octets, hread⟩ := Scope.exists_readMatter_iff.1 ⟨matter, hm⟩
      rw [Scope.readMatter_of_read hread] at hm
      cases hm
      exact ⟨octets, hread, hcase⟩
    · rintro ⟨octets, hread, hcase⟩
      exact ⟨_, Scope.readMatter_of_read hread, hcase⟩
  · rintro run here line name text safe args r rfl hname hmarked
    exact ⟨_, applyFilter_refused hname hmarked run line safe args, rfl, rfl, rfl⟩

open Template in
/-- **A page that is in no tree is not refused in its own output**: it is on the stack, and the filter says that there is
no such file. -/
theorem render_absent_page :
    let env := (Config.default (.ofText "/work")).environment (.empty []) ⟨0, 0, 0⟩
    let page : Page := ⟨"a.html", "x\x7b\x7b 'a.html' | render \x7d\x7d", []⟩
    let entered : Session RenderStack := ⟨.empty, RenderStack.empty.become [.ofText "/work/a.html"]⟩
    env.scope.enter (.ofText page.name) ⟨.empty, .empty⟩ = .ok entered ∧
    env.scope.resolve (.ofText "a.html") ∈ entered.engine.paths ∧
    renderFile (runner 0) env (.text "a.html" false) entered =
      (.error (.denied (.ofText "a.html") .notFound), entered) ∧
    (¬ ∃ p chain, (renderFile (runner 0) env (.text "a.html" false) entered).1 = .error (.cyclic p chain)) ∧
    (env.render page ⟨.empty, .empty⟩).1 = .ok "x" ∧
    (env.render page ⟨.empty, .empty⟩).2.channel = Channel.empty.report
      ⟨.filter, "render: failed to read a.html: No such file or directory (os error 2)", some (.ofText "/work/a.html")⟩ := by
  intro env page entered
  have hkey : env.scope.resolve (.ofText "a.html") = .ofText "/work/a.html" := by decide +kernel
  have hmarked : env.scope.resolve (.ofText "a.html") ∈ entered.engine.paths := by
    rw [hkey]
    exact List.mem_singleton_self _
  have hdenied : env.scope.tree.read (env.scope.resolve (.ofText "a.html")) = .error .notFound := by rfl
  have henter : env.scope.enter (.ofText page.name) ⟨.empty, .empty⟩ = .ok entered := by
    rw [Scope.enter_of_not_mem List.not_mem_nil, hkey]
    rfl
  have hanswer : renderFile (runner 0) env (.text "a.html" false) entered =
      (.error (.denied (.ofText "a.html") .notFound), entered) := by
    rw [renderFile_refused hmarked, Scope.refusal, Scope.readMatter_of_denied hdenied]
  refine ⟨henter, hmarked, hanswer, ?_, eq_ok_of_mapError (by decide +kernel), by decide +kernel⟩
  rintro ⟨p, chain, hcyclic⟩
  rw [hanswer] at hcyclic
  cases hcyclic

end Folio
