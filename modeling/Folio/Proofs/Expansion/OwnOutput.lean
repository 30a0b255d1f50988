import Folio.Config
import Folio.Proofs.Expansion.Account
import Folio.Proofs.Paths.NormalForm
import Folio.Proofs.Stack.Nesting
import Folio.Proofs.Tree.Walking
/-!
# A file in its own output

A page is read by its path from the working directory, and is marked on the stack under its path from the root.  Paths in
it are taken from the root.  So a path in the page that leads to the page's own file is refused exactly if both come to the
same normal form (`own_output_refused_iff`); among paths that are absolute from the root on, these are all if the page is
marked at the place that its path leads to from the working directory (`Scope.Marks`), and none if it is not.

With a root below the working directory and a page below the root this is not so, and the file is nested in its own output
(`own_output_nested`).
-/
namespace Folio

/-- The path of a place. -/
def Place.path (place : Place) : Path := .ofParts (.root :: place.map .name)

namespace Path

/-- The normal form of an absolute path that does not climb above the root is the path of the place it leads to. -/
theorem normal_eq_path_landing {p : Path} (habsolute : p.isAbsolute = true) (hbelow : ¬ ClimbsOut 0 (inner p.octets))
    (t : FileTree) : p.normal = (t.landing p).path := by
  have hparts := parts_of_isAbsolute habsolute
  obtain ⟨names, hnames⟩ := exists_foldlM_climb_iff.2 (staysBelow_iff.2 ⟨root_not_mem_inner p.octets, hbelow⟩)
  have hfolded : folded p.parts = .root :: names.map .name := by
    rw [hparts]
    exact foldl_fold_of_climb [.root] hnames
  have hlanding : t.landing p = names := by
    show p.parts.foldl FileTree.land t.home = names
    rw [hparts, List.foldl_cons]
    exact (FileTree.foldl_land_of_climb [] hnames).trans (List.nil_append names)
  rw [normal, hfolded, hlanding]
  rfl

end Path

namespace Scope

/-- A path that from the root on is absolute and nowhere climbs above the top. -/
structure Grounded (scope : Scope) (p : Path) : Prop where
  absolute : (scope.root.join p).isAbsolute = true
  below : ¬ Path.ClimbsOut 0 (Path.inner (scope.root.join p).octets)

/-- A page of the path is marked at the place that the path leads to from the working directory. -/
def Marks (scope : Scope) (p : Path) : Prop := scope.resolve (.ofText p.text) = (scope.tree.landing p).path

variable {scope : Scope} {p : Path}

theorem Grounded.resolve_eq (h : scope.Grounded p) :
    scope.resolve p = (scope.tree.landing (scope.root.join p)).path :=
  Path.normal_eq_path_landing h.absolute h.below scope.tree

end Scope

namespace Template

/-- A call on the page's own mark, made in a render of the page. -/
theorem Made.refused {env : Environment} {key : Path} {c : Call} (h : Made env [key] c) {q : String} {safe : Bool}
    {args : List Value} (hkey : env.scope.resolve (.ofText q) = key)
    (hname : Table.get? env.filters c.name = some (.builtin .render)) (hargs : c.args = .text q safe :: args) :
    ∃ chain, c.answer = .error (env.scope.refusal (.ofText q) (key :: chain)) ∧ c.path = some key := by
  obtain ⟨run, f, v, rest, s, hf, ⟨chain, hchain⟩, hgiven, hanswer, hpath⟩ := h
  obtain rfl : f = .builtin .render := Option.some.inj (hf.symm.trans hname)
  obtain ⟨rfl, rfl⟩ : v = .text q safe ∧ rest = args := List.cons.inj (hgiven.symm.trans hargs)
  have hstack : s.engine.paths = key :: chain := hchain.symm
  have hmarked : env.scope.resolve (.ofText q) ∈ s.engine.paths := by
    rw [hkey, hstack]
    exact List.mem_cons_self
  refine ⟨chain, ?_, ?_⟩
  · rw [hanswer, ← hstack]
    exact congrArg Prod.fst (renderFile_refused hmarked run safe)
  · rw [hpath, RenderStack.current?, hstack]
    rfl

end Template

theorem ContentFile.name_of_page? {f : ContentFile} {globals : Fields} {extensions : List String} {page : Page}
    (h : f.page? globals extensions = some page) : page.name = f.path.text := by
  unfold page? at h
  split at h
  · cases h
  · split at h
    · cases h
    · obtain rfl := Option.some.inj h
      rfl

open Template in
/-- **A file is refused in its own output exactly under the path that it is marked with.**  In the render of a page each
call of a filter that fails is reported once.  A call of `render` on a path that resolves to the page's mark has no value,
wherever it is made, for the file is being rendered; on another path it is let in where only the page is being rendered.
And if a path leads from the root to the file that the page was read from, it resolves to the mark exactly if the page is
marked at its place. -/
theorem own_output_refused_iff (env : Environment) {f : ContentFile} {globals : Fields} {extensions : List String}
    {page : Page} (hpage : f.page? globals extensions = some page) {s : Session RenderStack} (hs : s.engine.paths = []) :
    let key := env.scope.resolve (.ofText page.name)
    (env.render page s).2.channel = s.channel.reportAll ((env.calls page s).filterMap Call.report?) ∧
    ∀ q : String,
      (env.scope.resolve (.ofText q) = key →
        (∀ c ∈ env.calls page s, ∀ safe args, Table.get? env.filters c.name = some (.builtin .render) →
          c.args = .text q safe :: args →
          ∃ chain, c.answer = .error (env.scope.refusal (.ofText q) (key :: chain)) ∧ c.path = some key) ∧
        ∀ run here line name safe args r, here.env = env → Table.get? env.filters name = some (.builtin .render) →
          key ∈ r.session.engine.paths →
          applyFilter run here line name (.text q safe) args r =
            .ok .undefined { r with session := r.session.report (filterReport name
              (env.scope.refusal (.ofText q) r.session.engine.paths) r.session) }) ∧
      (env.scope.resolve (.ofText q) ≠ key →
        ∀ s', s'.engine.paths = [key] → ∃ entered, env.scope.enter (.ofText q) s' = .ok entered) ∧
      (env.scope.Grounded (.ofText q) →
        env.scope.tree.landing (env.scope.root.join (.ofText q)) = env.scope.tree.landing f.path →
        (env.scope.resolve (.ofText q) = key ↔ env.scope.Marks f.path)) := by
  intro key
  obtain ⟨hchannel, hmade⟩ := render_accounts env page s
  rw [hs, List.nil_append] at hmade
  refine ⟨hchannel, fun q => ⟨fun hkey => ⟨fun c hc safe args => (hmade c hc).refused hkey, ?_⟩, ?_, ?_⟩⟩
  · rintro run here line name safe args r rfl hname hmarked
    exact applyFilter_refused hname (hkey.symm ▸ hmarked) run line safe args
  · intro hkey s' hs'
    refine ⟨_, Scope.enter_of_not_mem ?_⟩
    rw [hs', List.mem_singleton]
    exact hkey
  · intro hq hplace
    show _ = env.scope.resolve (.ofText page.name) ↔ _
    rw [hq.resolve_eq, hplace, ContentFile.name_of_page? hpage]
    exact eq_comm

/-- A page that renders itself under another spelling, with the root at the working directory. -/
theorem own_output_refused_detour :
    let octets := Bytes.ofText "x\x7b\x7b './a.html' | render \x7d\x7d"
    let tree : FileTree := ⟨[([Bytes.ofText "a.html"], .file octets)], []⟩
    let env := (Config.default (.ofText "/")).environment tree ⟨0, 0, 0⟩
    let f : ContentFile := ⟨.ofText "a.html", .buffer octets, some [], .at ⟨0, 0, 0⟩⟩
    let s : Session RenderStack := ⟨.empty, .empty⟩
    ∃ page, f.page? [] ["html"] = some page ∧ s.engine.paths = [] ∧ env.scope.Grounded (.ofText "./a.html") ∧
      env.scope.Marks f.path ∧ (env.render page s).1 = .ok "x" ∧
      (env.render page s).2.channel = Channel.empty.reportAll [⟨.filter,
        "render: " ++ (Failure.cyclic (.ofText "/a.html") [.ofText "/a.html"]).message, some (.ofText "/a.html")⟩] ∧
      ∀ c ∈ env.calls page s, ∀ safe args, Table.get? env.filters c.name = some (.builtin .render) →
        c.args = .text "./a.html" safe :: args →
        ∃ chain, c.answer = .error (env.scope.refusal (.ofText "./a.html") (.ofText "/a.html" :: chain)) := by
  intro octets tree env f s
  let page : Page := ⟨"a.html", "x\x7b\x7b './a.html' | render \x7d\x7d", f.context []⟩
  have hpage : f.page? [] ["html"] = some page := by rfl
  have hground : env.scope.Grounded (.ofText "./a.html") :=
    ⟨by rfl, (Path.staysBelow_iff.1 (Path.exists_foldlM_climb_iff.1 ⟨[Bytes.ofText "a.html"], by rfl⟩)).2⟩
  obtain ⟨hchannel, hrefused⟩ := own_output_refused_iff env hpage (s := s) rfl
  obtain ⟨hmarked, -, hmarks⟩ := hrefused "./a.html"
  have hmark : env.scope.resolve (.ofText page.name) = .ofText "/a.html" := by decide +kernel
  have hkey : env.scope.resolve (.ofText "./a.html") = env.scope.resolve (.ofText page.name) := by decide +kernel
  have hreports : (env.calls page s).filterMap Template.Call.report? = [⟨.filter,
      "render: " ++ (Failure.cyclic (.ofText "/a.html") [.ofText "/a.html"]).message, some (.ofText "/a.html")⟩] := by
    decide +kernel
  rw [hreports] at hchannel
  refine ⟨page, hpage, rfl, hground, (hmarks hground rfl).1 hkey, eq_ok_of_mapError (by decide +kernel), hchannel, ?_⟩
  intro c hc safe args hname hargs
  obtain ⟨chain, hanswer, -⟩ := (hmarked hkey).1 c hc safe args hname hargs
  rw [hmark] at hanswer
  exact ⟨chain, hanswer⟩

/-- **A page below a root that is below the working directory is nested in its own output**: it is marked as
`posts/posts/a.html`, and renders `posts/a.html`, its own file. -/
theorem own_output_nested :
    let octets := Bytes.ofText "x\x7b\x7b 'a.html' | render \x7d\x7d"
    let tree : FileTree := ⟨[([Bytes.ofText "posts"], .directory),
      ([Bytes.ofText "posts", Bytes.ofText "a.html"], .file octets)], []⟩
    let env := ((Config.default (.ofText "/")).withRoot (.ofText "posts")).environment tree ⟨0, 0, 0⟩
    ∃ f page, ContentFile.read tree ⟨0, 0, 0⟩ (.ofText "posts/a.html") = .ok f ∧ f.page? [] ["html"] = some page ∧
      tree.landing (env.scope.root.join (.ofText "a.html")) = tree.landing f.path ∧
      (env.render page ⟨.empty, .empty⟩).1 = .ok "xx" := by
  intro octets tree env
  let stat := { FileStat.at ⟨0, 0, 0⟩ with size := octets.length }
  let f : ContentFile := ⟨.ofText "posts/a.html", .buffer octets, some [], stat⟩
  let page : Page := ⟨"posts/a.html", "x\x7b\x7b 'a.html' | render \x7d\x7d", f.context []⟩
  exact ⟨f, page, by rfl, by rfl, by rfl, eq_ok_of_mapError (by decide +kernel)⟩

end Folio
