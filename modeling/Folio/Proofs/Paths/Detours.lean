import Folio.Proofs.Paths.Routes
/-!
# Detours

A path can be written in more than one way: with a `.` in it, with a separator too many, or with a name and a `..` that
takes the name back (`Detour`).  Wherever one is on the way, a detour leads back there: it goes through no part, or on by a
name and back by it (`detour_foldl_fold`).  So paths that differ by detours resolve to the same path, and who has entered
one of them is refused under all the others (`Scope.enter_detours`).
-/
namespace Folio.Path

/-- A path written as a rest below some octets; the rest alone if there are none. -/
def spelled (above rest : Bytes) : Path := ⟨if above = [] then rest else above ++ separator :: rest⟩

/-- A rest that does not start at the root. -/
def IsRelative (rest : Bytes) : Prop := rest.head? ≠ some separator

instance (rest : Bytes) : Decidable (IsRelative rest) := inferInstanceAs (Decidable (_ ≠ _))

/-- A path as it is written below some octets, and the same with a detour in front of the rest. -/
inductive Detour : Path → Path → Prop where
  | here (above : Bytes) {rest : Bytes} (relative : IsRelative rest) :
    Detour (spelled above rest) (spelled above (dot :: separator :: rest))
  | again {above rest : Bytes} (nonempty : above ≠ []) (relative : IsRelative rest) :
    Detour (spelled above rest) (spelled above (separator :: rest))
  | back (above : Bytes) {name rest : Bytes} (plain : IsPlain name) (relative : IsRelative rest) :
    Detour (spelled above rest) (spelled above (name ++ separator :: dot :: dot :: separator :: rest))

/-! ## The parts of spellings -/

theorem opening_of_isRelative {rest : Bytes} (h : IsRelative rest) :
    (⟨rest⟩ : Path).opening = [] ∨ (⟨rest⟩ : Path).opening = [.here] :=
  opening_of_not_isAbsolute fun habsolute => h (beq_iff_eq.1 habsolute)

theorem isRelative_append {name : Bytes} (h : IsPlain name) (rest : Bytes) : IsRelative (name ++ rest) := by
  obtain ⟨b, bs, rfl⟩ := List.exists_cons_of_ne_nil h.nonempty
  intro hb
  obtain rfl : b = separator := Option.some.inj hb
  exact h.whole List.mem_cons_self

/-- **Folding goes through what is above, and then through the parts of the rest.** -/
theorem foldl_fold_spelled {above rest : Bytes} (h : above ≠ [] ∨ IsRelative rest) (out : List Part) :
    (spelled above rest).parts.foldl fold out = (inner rest).foldl fold ((⟨above⟩ : Path).parts.foldl fold out) := by
  by_cases habove : above = []
  · subst habove
    show (⟨rest⟩ : Path).parts.foldl fold out = (inner rest).foldl fold out
    rw [parts_eq]
    rcases opening_of_isRelative (h.resolve_left (fun hne => hne rfl)) with hopening | hopening
    · rw [hopening, List.nil_append]
    · rw [hopening]
      rfl
  · have hwritten : spelled above rest = ⟨above ++ separator :: rest⟩ := congrArg Path.mk (if_neg habove)
    have hparts : (spelled above rest).parts = (⟨above⟩ : Path).parts ++ inner rest := by
      rw [hwritten, parts_eq, parts_eq ⟨above⟩, opening_append_separator habove, inner_append_separator,
        List.append_assoc]
    rw [hparts, List.foldl_append]

theorem inner_here (rest : Bytes) : inner (dot :: separator :: rest) = inner rest :=
  inner_append_separator [dot] rest

theorem inner_again (rest : Bytes) : inner (separator :: rest) = inner rest :=
  inner_append_separator [] rest

theorem inner_back {name : Bytes} (h : IsPlain name) (rest : Bytes) :
    inner (name ++ separator :: dot :: dot :: separator :: rest) = .name name :: .up :: inner rest := by
  have hname : inner name = [.name name] := by
    rw [inner, stretches_of_not_mem h.whole, List.filterMap_cons_some h.partOfSegment_eq]
    rfl
  have hup : inner (dot :: dot :: separator :: rest) = .up :: inner rest := inner_append_separator [dot, dot] rest
  rw [inner_append_separator, hname, hup]
  rfl

/-- **A detour leads back to where it started**, wherever that is. -/
theorem detour_foldl_fold {p q : Path} (h : Detour p q) (out : List Part) :
    p.parts.foldl fold out = q.parts.foldl fold out := by
  cases h with
  | here above hrest =>
    have hdot : ∀ rest, IsRelative (dot :: rest) := fun _ h => absurd (Option.some.inj h) (by decide)
    rw [foldl_fold_spelled (.inr hrest), foldl_fold_spelled (.inr (hdot _)), inner_here]
  | again habove hrest => rw [foldl_fold_spelled (.inr hrest), foldl_fold_spelled (.inl habove), inner_again]
  | back above hname hrest =>
    rw [foldl_fold_spelled (.inr hrest), foldl_fold_spelled (.inr (isRelative_append hname _)), inner_back hname,
      List.foldl_cons, List.foldl_cons]
    -- The name is on top, so `..` takes back just this name.
    show _ = List.foldl fold (fold (_ ++ [.name _]) .up) _
    rw [Route.fold_concat_name]

end Folio.Path

namespace Folio

variable {p q : Path}

theorem Scope.resolve_eq_foldl (scope : Scope) (p : Path) :
    scope.resolve p = .ofParts (p.parts.foldl Path.fold (Path.folded scope.root.parts)) :=
  congrArg Path.ofParts (Path.foldl_parts_join (fun _ => rfl) (fun _ _ => rfl) scope.root p [])

theorem Scope.parts_resolve (scope : Scope) (p : Path) :
    (scope.resolve p).parts = p.parts.foldl Path.fold (Path.folded scope.root.parts) := by
  unfold resolve
  rw [Path.parts_normal_eq_folded]
  exact Path.foldl_parts_join (fun _ => rfl) (fun _ _ => rfl) scope.root p []

theorem Scope.resolve_detours (scope : Scope) (h : Relation.EqvGen Path.Detour p q) :
    scope.resolve p = scope.resolve q := by
  induction h with
  | rel p q hdetour => rw [resolve_eq_foldl, resolve_eq_foldl, Path.detour_foldl_fold hdetour]
  | refl => rfl
  | symm p q _ ih => exact ih.symm
  | trans p q r _ _ hpq hqr => exact hpq.trans hqr

/-- **No detour hides a path that is being rendered.**  Spellings that differ by detours, however many and wherever they
are, resolve to the same path.  While this path is on the stack, both are refused, with this path and the stack as the
reason; and while it is not, both are entered and put it on top. -/
theorem Scope.enter_detours (scope : Scope) (h : Relation.EqvGen Path.Detour p q) :
    let key := scope.resolve p
    scope.resolve q = key ∧
    ∀ s : Session RenderStack,
      (key ∈ s.engine.paths →
        scope.enter p s = .error (.cyclic key s.engine.paths) ∧ scope.enter q s = .error (.cyclic key s.engine.paths)) ∧
      (key ∉ s.engine.paths → ∃ entered, scope.enter p s = .ok entered ∧ scope.enter q s = .ok entered ∧
        entered.engine.paths = s.engine.paths ++ [key] ∧ entered.channel = s.channel) := by
  intro key
  have hkey : scope.resolve q = key := (scope.resolve_detours h).symm
  refine ⟨hkey, fun s => ⟨fun hmarked => ⟨enter_of_mem hmarked, ?_⟩, fun hfresh => ?_⟩⟩
  · rw [enter_of_mem (hkey.symm ▸ hmarked), hkey]
  · refine ⟨_, enter_of_not_mem hfresh, ?_, rfl, rfl⟩
    rw [enter_of_not_mem (hkey.symm ▸ hfresh), hkey]

/-- Three detours in the path of a file that is being rendered. -/
theorem enter_detours_refused :
    let plain : Path := .ofText "posts/a.md"
    let astray : Path := .ofText "posts//./drafts/../a.md"
    let scope := (Config.default (.ofText "/site")).scope (.empty []) ⟨0, 0, 0⟩
    let s : Session RenderStack := ⟨.empty, ⟨[.ofText "/site/index.html", .ofText "/site/posts/a.md"], [], []⟩⟩
    Relation.EqvGen Path.Detour plain astray ∧
    scope.enter astray s = .error (.cyclic (.ofText "/site/posts/a.md") s.engine.paths) := by
  intro plain astray scope s
  have hagain : Path.Detour plain (.ofText "posts//a.md") :=
    @Path.Detour.again (Bytes.ofText "posts") (Bytes.ofText "a.md") (by decide) (by decide)
  have hhere : Path.Detour (.ofText "posts//a.md") (.ofText "posts//./a.md") :=
    @Path.Detour.here (Bytes.ofText "posts/") (Bytes.ofText "a.md") (by decide)
  have hplain : Path.IsPlain (Bytes.ofText "drafts") := ⟨by decide, by decide, by decide, by decide⟩
  have hback : Path.Detour (.ofText "posts//./a.md") astray :=
    @Path.Detour.back (Bytes.ofText "posts//.") (Bytes.ofText "drafts") (Bytes.ofText "a.md") hplain (by decide)
  have hdetours : Relation.EqvGen Path.Detour plain astray :=
    .trans _ _ _ (.rel _ _ hagain) (.trans _ _ _ (.rel _ _ hhere) (.rel _ _ hback))
  obtain ⟨-, hstacks⟩ := scope.enter_detours hdetours
  have hkey : scope.resolve plain = .ofText "/site/posts/a.md" := by decide +kernel
  have hmarked : scope.resolve plain ∈ s.engine.paths := by
    rw [hkey]
    exact List.mem_cons_of_mem _ (List.mem_singleton_self _)
  have hrefused := ((hstacks s).1 hmarked).2
  rw [hkey] at hrefused
  exact ⟨hdetours, hrefused⟩

end Folio
