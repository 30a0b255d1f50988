import Folio.Config
import Folio.Proofs.Paths.Detours
import Folio.Proofs.Paths.Extensions
import Folio.Proofs.Template.Alias
/-!
# Spellings of a path

A file is read, and marked as being rendered, under its path in normal form; so its attributes and its body do not depend
on how the path is spelled.  Whether the file is taken for HTML does, and whether HTML is escaped in it: both are read off
the spelling itself.  A spelling that ends in a name ends in the name of the file (`Scope.fileName?_resolve`), but one that
ends in `..` has no name at all, and what it leads to is taken for Markdown (`Scope.isHtml_eq`).  Two spellings for which
these answers are the same come to the same (`renderFile_spellings`).
-/
namespace Folio

/-! ## Names of files -/

/-- **A spelling that ends in a name ends in the name of the file.** -/
theorem Scope.fileName?_resolve (scope : Scope) {p : Path} {n : Bytes} (h : p.fileName? = some n) :
    (scope.resolve p).fileName? = some n := by
  obtain ⟨before, hparts⟩ := List.getLast?_eq_some_iff.1 (Path.fileName?_eq_some_iff.1 h)
  rw [Path.fileName?_eq_some_iff, scope.parts_resolve, hparts, List.foldl_append, List.foldl_cons, List.foldl_nil, Path.fold,
    List.getLast?_concat]

/-- **What a spelling is taken for**: for what the file is, if it ends in a name; otherwise not for HTML. -/
theorem Scope.isHtml_eq (scope : Scope) (p : Path) :
    scope.isHtml p = (p.fileName?.isSome && scope.isHtml (scope.resolve p)) := by
  cases hn : p.fileName? with
  | none => exact isHtml_of_no_name hn _
  | some n => exact isHtml_of_fileName? (hn.trans (scope.fileName?_resolve hn).symm) _

/-- Two spellings of a file that is HTML are taken for the same if both end in a name or neither does. -/
theorem Scope.isHtml_eq_iff {scope : Scope} {p q : Path} (h : scope.resolve p = scope.resolve q) :
    scope.isHtml p = scope.isHtml q ↔
      (scope.isHtml (scope.resolve p) = true → p.fileName?.isSome = q.fileName?.isSome) := by
  rw [scope.isHtml_eq p, scope.isHtml_eq q, ← h]
  cases scope.isHtml (scope.resolve p) <;> simp

/-! ## Outcomes -/

inductive FailureKind where
  | template
  | templateNotFound
  | unreadable
  | markdown
  | date
  | cyclic
  | unsupportedStream
  | argument
  | custom
  | serialization
deriving DecidableEq, Repr

def Failure.kind : Failure → FailureKind
  | .template _ => .template
  | .templateNotFound _ => .templateNotFound
  | .unreadable .. => .unreadable
  | .markdown _ => .markdown
  | .date _ => .date
  | .cyclic .. => .cyclic
  | .unsupportedStream => .unsupportedStream
  | .argument _ => .argument
  | .custom _ => .custom
  | .serialization _ => .serialization

theorem Failure.kind_ofFault {f f' : Template.Fault} (h : f'.cause = f.cause) : (ofFault f').kind = (ofFault f).kind := by
  unfold ofFault
  rw [h]
  cases f.cause.kind <;> rfl

namespace Template

/-- The same value, or failures of the same kind. -/
inductive SameOutcome : Except Failure Value → Except Failure Value → Prop where
  | ok (v : Value) : SameOutcome (.ok v) (.ok v)
  | error {f f' : Failure} (kind : f'.kind = f.kind) : SameOutcome (.error f) (.error f')

theorem SameOutcome.refl : ∀ x : Except Failure Value, SameOutcome x x
  | .ok v => .ok v
  | .error _ => .error rfl

theorem SameOutcome.display_eq {x y : Except Failure Value} (h : SameOutcome x y) :
    x.toOption.map Value.display = y.toOption.map Value.display := by
  cases h <;> rfl

/-- The runners in the render of a page: of the page itself, and of the files in it. -/
inductive Runner.Occurs : Runner → Prop where
  | page (n : Nat) : Occurs (runner n)
  | file (k n : Nat) : Occurs (.within (evaluateFile k) n)

theorem Runner.Occurs.nameless {run : Runner} (h : run.Occurs) : run.file.Nameless := by
  cases h with
  | page n => exact runner_file_nameless n
  | file k n => exact evaluateFile_nameless k

section
variable {env : Environment} {p q : String} (h : env.scope.resolve (.ofText p) = env.scope.resolve (.ofText q))
include h

/-- A file is read under its path in normal form. -/
theorem readMatter_spellings :
    (∃ matter, env.scope.readMatter (.ofText p) = .ok matter ∧ env.scope.readMatter (.ofText q) = .ok matter) ∨
    ∃ f f', env.scope.readMatter (.ofText p) = .error f ∧ env.scope.readMatter (.ofText q) = .error f' ∧
      f'.kind = f.kind := by
  unfold Scope.readMatter
  rw [← h]
  cases env.scope.tree.read (env.scope.resolve (.ofText p)) with
  | ok octets => exact .inl ⟨_, rfl, rfl⟩
  | error denial => exact .inr ⟨_, _, rfl, rfl, rfl⟩

/-- What is done with what was read of a file does not depend on the spelling. -/
theorem readMatter_bind_spellings (f : FrontMatter.Split → Except Failure Value) :
    SameOutcome (env.scope.readMatter (.ofText p) >>= f) (env.scope.readMatter (.ofText q) >>= f) := by
  obtain ⟨matter, hm, hm'⟩ | ⟨e, e', he, he', hkind⟩ := readMatter_spellings h
  · rw [hm, hm']
    exact .refl (f matter)
  · rw [he, he']
    exact .error hkind

theorem attributesOf_spellings (safe safe' : Bool) (name : Option Value) :
    SameOutcome (attributesOf env.scope (.text p safe) name) (attributesOf env.scope (.text q safe') name) := by
  unfold attributesOf pathText
  exact readMatter_bind_spellings h _

theorem bodyOf_spellings (safe safe' : Bool) :
    SameOutcome (bodyOf env.scope (.text p safe)) (bodyOf env.scope (.text q safe')) := by
  unfold bodyOf pathText
  exact readMatter_bind_spellings h _

/-- A path is entered under its normal form. -/
theorem enter_spellings (s : Session RenderStack) : env.scope.enter (.ofText p) s = env.scope.enter (.ofText q) s := by
  unfold Scope.enter
  rw [h]

/-- A file that cannot be read, or that is being rendered, has no value under any spelling. -/
theorem renderFile_unavailable {s : Session RenderStack}
    (hs : (∃ denial, env.scope.tree.read (env.scope.resolve (.ofText p)) = .error denial) ∨
      env.scope.resolve (.ofText p) ∈ s.engine.paths) (run : Runner) (safe safe' : Bool) :
    SameOutcome (renderFile run env (.text p safe) s).1 (renderFile run env (.text q safe') s).1 ∧
      (renderFile run env (.text p safe) s).2 = (renderFile run env (.text q safe') s).2 := by
  have henter := enter_spellings h s
  unfold renderFile pathText
  dsimp only
  obtain ⟨matter, hm, hm'⟩ | ⟨f, f', hf, hf', hkind⟩ := readMatter_spellings h
  · have hmarked : env.scope.resolve (.ofText p) ∈ s.engine.paths := by
      refine hs.resolve_left ?_
      rintro ⟨denial, hdenied⟩
      unfold Scope.readMatter at hm
      rw [hdenied] at hm
      cases hm
    rw [hm, hm', ← henter, Scope.enter_of_mem hmarked]
    exact ⟨.error rfl, rfl⟩
  · rw [hf, hf']
    exact ⟨.error hkind, rfl⟩

/-- **Two spellings for which HTML is told apart alike come to the same.** -/
theorem renderFile_spellings (hhtml : env.scope.isHtml (.ofText p) = env.scope.isHtml (.ofText q))
    (hescapes : env.escapes p = env.escapes q) {run : Runner} (hrun : run.file.Nameless) (safe safe' : Bool)
    (s : Session RenderStack) :
    SameOutcome (renderFile run env (.text p safe) s).1 (renderFile run env (.text q safe') s).1 ∧
      (renderFile run env (.text p safe) s).2 = (renderFile run env (.text q safe') s).2 := by
  have henter := enter_spellings h s
  unfold renderFile pathText
  dsimp only
  obtain ⟨matter, hm, hm'⟩ | ⟨f, f', hf, hf', hkind⟩ := readMatter_spellings h
  · rw [hm, hm', ← henter, ← hhtml]
    dsimp only
    cases env.scope.enter (.ofText p) s with
    | error f => exact ⟨.error rfl, rfl⟩
    | ok entered =>
      dsimp only
      cases (if env.scope.isHtml (.ofText p) then Except.ok matter.body else env.scope.markdown matter.body) with
      | error f => exact ⟨.error rfl, rfl⟩
      | ok source =>
        dsimp only
        obtain ⟨text, after, hr, hr'⟩ | ⟨f, f', after, hr, hr', hcause⟩ :=
          renderNamed_alias hrun hescapes source matter.attributes entered
        · rw [hr, hr']
          exact ⟨.ok _, rfl⟩
        · rw [hr, hr']
          exact ⟨.error (Failure.kind_ofFault hcause), rfl⟩
  · rw [hf, hf']
    exact ⟨.error hkind, rfl⟩

end

end Template
end Folio
