import Mathlib.Data.Set.Card
import Mathlib.Data.Set.Finite.List
import Folio.Proofs.Stack.Balance
/-!
# Nested renders end with the files

A file that is being rendered is not rendered again below itself, whatever spelling leads to it: the filter has no value
then, and one report says so (`applyFilter_of_marked`).  So the paths above the page are all different, and each of them
is a path in normal form of which a file could be read.  There are finitely many of these, since a path that can be read
is no longer than the longest path (`Scope.readable_finite`), and their number bounds the depth of nesting
(`nesting_bounded`).
-/
namespace Folio

theorem FileTree.length_le_of_read {t : FileTree} {p : Path} {octets : Bytes} (h : t.read p = .ok octets) :
    p.octets.length ≤ longestPath := by
  unfold read arrive at h
  split at h
  · cases h
  · cases h
  · cases h
  · rename_i harrive
    split at harrive
    · cases harrive
    · split at harrive
      · cases harrive
      · split at harrive
        · cases harrive
        · omega

namespace Scope

theorem readable_finite (scope : Scope) : {key : Path | scope.Readable key}.Finite := by
  have : Finite UInt8 := .of_injective UInt8.toFin fun _ _ h => UInt8.toFin_inj.1 h
  have hoctets : {octets : Bytes | octets.length ≤ FileTree.longestPath}.Finite := List.finite_length_le UInt8 _
  refine (hoctets.preimage (f := Path.octets) fun p _ q _ h => Path.eq_of_octets_eq h).subset ?_
  rintro key ⟨-, octets, hread⟩
  exact FileTree.length_le_of_read hread

/-- Paths that are all different and can be read are no more than there are. -/
theorem length_le_of_readable {scope : Scope} {keys : List Path} (hnodup : keys.Nodup)
    (hkeys : ∀ key ∈ keys, scope.Readable key) : keys.length ≤ {key | scope.Readable key}.ncard := by
  calc keys.length = keys.toFinset.card := (List.toFinset_card_of_nodup hnodup).symm
    _ = (keys.toFinset : Set Path).ncard := (Set.ncard_coe_finset _).symm
    _ ≤ {key | scope.Readable key}.ncard :=
      Set.ncard_le_ncard (fun key hkey => hkeys key (List.mem_toFinset.1 hkey)) scope.readable_finite

/-- Why a path on the stack has no value: it is being rendered, unless its file cannot be read. -/
def refusal (scope : Scope) (p : Path) (chain : List Path) : Failure :=
  match scope.readMatter p with
  | .ok _ => .cyclic (scope.resolve p) chain
  | .error failure => failure

end Scope

namespace Template

variable {here : Here} {name text : String} {matter : FrontMatter.Split}

/-- A path on the stack is not entered, and what was read of its file is left alone. -/
theorem renderFile_refused {env : Environment} {s : Session RenderStack}
    (hmarked : env.scope.resolve (.ofText text) ∈ s.engine.paths) (run : Runner) (safe : Bool) :
    renderFile run env (.text text safe) s = (.error (env.scope.refusal (.ofText text) s.engine.paths), s) := by
  unfold renderFile pathText Scope.refusal
  dsimp only
  -- The file is read before its path is entered: one that cannot be read is unreadable rather than refused.
  cases env.scope.readMatter (.ofText text) with
  | error failure => rfl
  | ok matter =>
    dsimp only
    rw [Scope.enter_of_mem hmarked]

theorem applyFilter_refused (hname : Table.get? here.env.filters name = some (.builtin .render)) {r : Run}
    (hmarked : here.env.scope.resolve (.ofText text) ∈ r.session.engine.paths) (run : Runner) (line : Nat) (safe : Bool)
    (args : Arguments) :
    applyFilter run here line name (.text text safe) args r =
      .ok .undefined { r with session := r.session.report (filterReport name
        (here.env.scope.refusal (.ofText text) r.session.engine.paths) r.session) } := by
  have hcall : callFilter run here.env (.builtin .render) (.text text safe) args.flat r.session =
      (.error (here.env.scope.refusal (.ofText text) r.session.engine.paths), r.session) :=
    renderFile_refused hmarked run safe
  rw [applyFilter_of_get? hname, hcall]
  rfl

/-- **A file that is being rendered is not rendered again**: the filter has no value, and reports this once. -/
theorem applyFilter_of_marked (hname : Table.get? here.env.filters name = some (.builtin .render))
    (hm : here.env.scope.readMatter (.ofText text) = .ok matter) {r : Run}
    (hmarked : here.env.scope.resolve (.ofText text) ∈ r.session.engine.paths) (run : Runner) (line : Nat) (safe : Bool)
    (args : Arguments) :
    applyFilter run here line name (.text text safe) args r =
      .ok .undefined { r with session := r.session.report (filterReport name
        (.cyclic (here.env.scope.resolve (.ofText text)) r.session.engine.paths) r.session) } := by
  have hrefused := applyFilter_refused hname hmarked run line safe args
  unfold Scope.refusal at hrefused
  rw [hm] at hrefused
  exact hrefused

end Template

/-- **Nesting is bounded by the files that can be read.**  In the render of a page that starts on an empty stack, all
paths on the stack are different, those above the page are paths in normal form of which a file could be read, and so
there is at most one more of them than there are such paths; to render a file once more below itself has no value and is
reported once. -/
theorem nesting_bounded (env : Template.Environment) (page : Page) {s : Session RenderStack}
    (hs : s.engine.paths = []) :
    {key | env.scope.Readable key}.Finite ∧
    (∃ moments, (env.render page s).2.engine.history = moments ++ s.engine.history ∧
      RenderStack.Course [] moments [] ∧
      ∀ m ∈ moments, m.Nodup ∧ (∀ key ∈ m.tail, env.scope.Readable key) ∧
        m.length ≤ 1 + {key | env.scope.Readable key}.ncard) ∧
    ∀ (run : Template.Runner) (here : Template.Here) (line : Nat) (name text : String) (safe : Bool)
      (args : Template.Arguments) (r : Template.Run) (matter : FrontMatter.Split), here.env = env →
      Table.get? env.filters name = some (.builtin .render) → env.scope.readMatter (.ofText text) = .ok matter →
      env.scope.resolve (.ofText text) ∈ r.session.engine.paths →
      Template.applyFilter run here line name (.text text safe) args r =
        .ok .undefined { r with session := r.session.report (Template.filterReport name
          (.cyclic (env.scope.resolve (.ofText text)) r.session.engine.paths) r.session) } := by
  refine ⟨env.scope.readable_finite, ?_, ?_⟩
  · obtain ⟨-, moments, hhistory, hcourse, habove⟩ := render_course env page s
    rw [hs] at hcourse habove
    refine ⟨moments, hhistory, hcourse, fun m hm => ?_⟩
    have hnodup := (hcourse.nodup List.nodup_nil).2 m hm
    have hreadable : ∀ key ∈ m.tail, env.scope.Readable key := by
      obtain rfl | ⟨above, rfl, hallowed⟩ := habove m hm
      · exact fun _ hk => nomatch hk
      · exact hallowed
    have hlength := Scope.length_le_of_readable hnodup.tail hreadable
    rw [List.length_tail] at hlength
    exact ⟨hnodup, hreadable, by omega⟩
  · rintro run here line name text safe args r matter rfl hname hm hmarked
    exact Template.applyFilter_of_marked hname hm hmarked run line safe args

/-- A page with one file that renders itself under another spelling. -/
theorem nesting_bounded_self :
    (⟨.empty, .empty⟩ : Session RenderStack).engine.paths = [] ∧
    let tree : FileTree := ⟨[([Bytes.ofText "b.html"], .file (Bytes.ofText "\x7b\x7b './b.html' | render \x7d\x7d"))], []⟩
    let env : Template.Environment :=
      ⟨⟨tree, .ofText "/", ["html"], .ok, fun _ format => .ok format, ⟨0, 0, 0⟩⟩, [], false, Filters.standard, []⟩
    let inside : Session RenderStack := ⟨.empty, ⟨[.ofText "/a.html", .ofText "/b.html"], [], []⟩⟩
    (∀ m ∈ (env.render ⟨"a.html", "\x7b\x7b 'b.html' | render \x7d\x7d", []⟩ ⟨.empty, .empty⟩).2.engine.history,
      m.length ≤ 1 + {key | env.scope.Readable key}.ncard) ∧
    Template.applyFilter (Template.runner 0) ⟨env, "b.html", false, none⟩ 1 "render" (.plain "./b.html") ⟨[], []⟩
      (.start ⟨"b.html", [], []⟩ [] inside) =
      .ok .undefined (.start ⟨"b.html", [], []⟩ [] (inside.report ⟨.filter,
        "render: " ++ (Failure.cyclic (.ofText "/b.html") [.ofText "/a.html", .ofText "/b.html"]).message,
        some (.ofText "/a.html")⟩)) := by
  refine ⟨rfl, ?_⟩
  intro tree env inside
  obtain ⟨-, ⟨moments, hhistory, -, hmoments⟩, hrefused⟩ :=
    nesting_bounded env ⟨"a.html", "\x7b\x7b 'b.html' | render \x7d\x7d", []⟩ (s := ⟨.empty, .empty⟩) rfl
  refine ⟨fun m hm => ?_, ?_⟩
  · rw [hhistory, show (⟨.empty, .empty⟩ : Session RenderStack).engine.history = [] from rfl, List.append_nil] at hm
    exact (hmoments m hm).2.2
  · have hkey : env.scope.resolve (.ofText "./b.html") = .ofText "/b.html" := rfl
    have hread : env.scope.readMatter (.ofText "./b.html") =
        .ok (FrontMatter.splitOctets (Bytes.ofText "\x7b\x7b './b.html' | render \x7d\x7d")) := rfl
    have h := hrefused (Template.runner 0) ⟨env, "b.html", false, none⟩ 1 "render" "./b.html" false ⟨[], []⟩
      (.start ⟨"b.html", [], []⟩ [] inside) _ rfl rfl hread
    rw [hkey] at h
    exact h (List.mem_cons_of_mem _ (List.mem_singleton_self _))

end Folio
