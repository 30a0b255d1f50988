import Folio.Proofs.Template.Evaluation
/-!
# Evaluations in lockstep

The session stands beside the rest of a run: of all the steps of evaluation only the calls of filters, and the templates
that are loaded, look at it or change it.  So a relation that joins in sequence, and that holds of what looks at the rest of
the run, of what changes it and of what is loaded (`Lockstep`), holds of everything that evaluates by itself or leads to
another place of the render.  It holds of whole templates, at every level, as soon as it holds of the calls of filters
(`Lockstep.within`).

The second evaluation may have other filters of the caller; the rest of its environment is the same (`Here.withFilters`).
-/
namespace Folio.Template

variable {α β : Type}

/-- The same place in an environment with other filters. -/
def Here.withFilters (here : Here) (fs : Filters) : Here := { here with env := { here.env with filters := fs } }

theorem Here.withFilters_env {here : Here} {env : Environment} (h : here.env = env) :
    (here.withFilters env.filters).env = env := by
  rw [← h]
  rfl

/-- A place in an environment, and the same place with other filters. -/
structure Here.Refiltered (env : Environment) (fs : Filters) (here here' : Here) : Prop where
  env : here.env = env
  eq : here' = here.withFilters fs

/-! ## Changes beside the variables of a run -/

/-- The run with other frames. -/
def Run.withFrames (r : Run) (frames : List Frame) : Run := { r with frames := frames }

/-- The run with other variables for snippets to share. -/
def Run.withScopes (r : Run) (scopes : List Variables) : Run := { r with scopes := scopes }

/-- A change of a run that has nothing to do with its variables: it neither looks at the frames and the shared variables
nor changes them. -/
structure Run.Aside (g : Run → Run) : Prop where
  frames : ∀ r frames, g (r.withFrames frames) = (g r).withFrames frames
  scopes : ∀ r scopes, g (r.withScopes scopes) = (g r).withScopes scopes

/-- A change of the session is one. -/
theorem Run.Aside.session (s : Session RenderStack) : Run.Aside fun r => { r with session := s } where
  frames _ _ := rfl
  scopes _ _ := rfl

namespace Run.Aside

variable {g : Run → Run} (hg : Run.Aside g)
include hg

theorem frames_eq (r : Run) : (g r).frames = r.frames := by
  have h := congrArg Run.frames (hg.frames r r.frames)
  exact h

theorem scopes_eq (r : Run) : (g r).scopes = r.scopes := by
  have h := congrArg Run.scopes (hg.scopes r r.scopes)
  exact h

theorem get?_eq (r : Run) (env : Environment) (name : String) : (g r).get? env name = r.get? env name := by
  unfold Run.get?
  rw [hg.frames_eq, hg.scopes_eq]

theorem onFrame (r : Run) (f : Frame → Frame) : (g r).onFrame f = g (r.onFrame f) := by
  unfold Run.onFrame
  rw [hg.frames_eq]
  cases r.frames with
  | nil => rfl
  | cons frame rest => exact (hg.frames r _).symm

theorem onScope (r : Run) (n : Nat) (f : Variables → Variables) : (g r).onScope n f = g (r.onScope n f) := by
  unfold Run.onScope
  rw [hg.scopes_eq]
  exact (hg.scopes r _).symm

theorem store (r : Run) (name : String) (v : Value) : (g r).store name v = g (r.store name v) := by
  unfold Run.store
  rw [hg.frames_eq]
  cases r.frames.head?.bind (·.shared) with
  | none => exact hg.onFrame r _
  | some n =>
    dsimp only
    rw [hg.onScope, hg.onFrame]

theorem sharing (r : Run) : (g r).sharing = (r.sharing.1, g r.sharing.2) := by
  have hhead : (g r).frames.head?.bind (·.shared) = r.frames.head?.bind (·.shared) := by rw [hg.frames_eq]
  unfold Run.sharing
  rw [hhead]
  cases r.frames.head?.bind (·.shared) with
  | some n => rfl
  | none =>
    show ((g r).scopes.length, ((g r).withScopes ((g r).scopes ++ [[]])).onFrame _) = _
    rw [hg.scopes_eq, ← hg.scopes, hg.onFrame]
    rfl

theorem share (env : Environment) (n : Nat) (r : Run) (name : String) :
    (g r).share env n name = g (r.share env n name) := by
  unfold Run.share
  rw [hg.scopes_eq, hg.get?_eq]
  cases r.scopes[n]? with
  | none => rfl
  | some vs =>
    dsimp only
    split
    · rfl
    · exact hg.onScope r n _

theorem foldl_share (env : Environment) (n : Nat) : ∀ (names : List String) (r : Run),
    names.foldl (Run.share env n) (g r) = g (names.foldl (Run.share env n) r)
  | [], _ => rfl
  | name :: names, r => by
    rw [List.foldl_cons, hg.share, foldl_share env n names]
    rfl

end Run.Aside

/-! ## Relations past the session -/

/-- A relation between steps of evaluation that joins in sequence, also around a fault that is caught, and that holds of
steps that look at the run or change it apart from its session, and of loading templates and telling which are loaded. -/
structure Lockstep (Rel : ∀ {α : Type}, Eval α → Eval α → Calls → Calls → Prop) : Prop where
  pure : ∀ {α : Type} (a : α), Rel (pure a) (pure a) .none .none
  throw : ∀ {α : Type} (f : Fault), Rel (throw f : Eval α) (throw f) .none .none
  bind : ∀ {α β : Type} {x x' : Eval α} {f f' : α → Eval β} {t t' k k'}, Rel x x' t t' →
    (∀ a, Rel (f a) (f' a) (k a) (k' a)) → Rel (x >>= f) (x' >>= f') (t.andThen x k) (t'.andThen x' k')
  catching : ∀ {α : Type} {x x' : Eval α} {f f' : Fault → Eval α} {t t'}, Rel x x' t t' →
    (∀ e, Rel (f e) (f' e) .none .none) → Rel (tryCatch x f) (tryCatch x' f') t t'
  look : ∀ {α : Type} {f f' : Run → Eval α} {t u : Run → Calls},
    (∀ r s, Rel (f r) (f' { r with session := s }) (t r) (u { r with session := s })) →
    Rel (get >>= f) (get >>= f') (fun r => t r r) (fun r => u r r)
  change : ∀ {f : Run → Run}, (∀ r s, f { r with session := s } = { f r with session := s }) →
    Rel (modify f : Eval Unit) (modify f) .none .none
  load : ∀ name, Rel (modify fun r => { r with session := r.session.load name })
    (modify fun r => { r with session := r.session.load name }) .none .none
  debug : Rel loadedNames loadedNames .debug .debug

namespace Lockstep

variable {Rel : ∀ {α : Type}, Eval α → Eval α → Calls → Calls → Prop} (h : Lockstep Rel)
include h

/-! ## Steps in sequence -/

theorem quietly {x x' : Eval α} {f f' : α → Eval β} {k k' : α → Calls} (hx : Rel x x' .none .none)
    (hf : ∀ a, Rel (f a) (f' a) (k a) (k' a)) : Rel (x >>= f) (x' >>= f') (.after x k) (.after x' k') :=
  h.bind hx hf

theorem andQuietly {x x' : Eval α} {f f' : α → Eval β} {t t' : Calls} (hx : Rel x x' t t')
    (hf : ∀ a, Rel (f a) (f' a) .none .none) : Rel (x >>= f) (x' >>= f') t t' := by
  have hb := h.bind hx hf
  rw [Calls.andThen_none, Calls.andThen_none] at hb
  exact hb

/-- A step that looks at the run it starts in, and whose calls are none of its own. -/
theorem look_same {f f' : Run → Eval α} {t t' : Calls} (hf : ∀ r s, Rel (f r) (f' { r with session := s }) t t') :
    Rel (get >>= f) (get >>= f') t t' :=
  h.look (t := fun _ => t) (u := fun _ => t') hf

theorem change_bind {f : Run → Run} {x x' : Eval α} {t t' : Calls}
    (hf : ∀ r s, f { r with session := s } = { f r with session := s }) (hx : Rel x x' t t') :
    Rel (modify f >>= fun _ => x) (modify f >>= fun _ => x') (fun r => t (f r)) (fun r => t' (f r)) :=
  h.quietly (h.change hf) fun _ => hx

variable (here : Here) (fs : Filters) (line : Nat)

theorem fail (cause : Cause) :
    Rel (here.fail line cause : Eval α) ((here.withFilters fs).fail line cause) .none .none :=
  h.throw _

theorem checkDepth : Rel (checkDepth here line) (checkDepth (here.withFilters fs) line) .none .none := by
  refine h.look_same fun r s => ?_
  show Rel (if r.depth > deepestFrame then _ else _) (if r.depth > deepestFrame then _ else _) .none .none
  split
  · exact h.fail here fs line .tooDeep
  · exact h.pure ()

theorem inFrame (frame : Frame) {x x' : Eval α} {t t' : Calls} (hx : Rel x x' t t') :
    Rel (inFrame here line frame x) (inFrame (here.withFilters fs) line frame x') (.inFrame here line frame t)
      (.inFrame (here.withFilters fs) line frame t') :=
  h.quietly (h.checkDepth here fs line) fun _ =>
  h.quietly (h.change fun _ _ => rfl) fun _ =>
  h.andQuietly hx fun a =>
  h.andQuietly (h.change fun _ _ => rfl) fun _ => h.pure a

/-- Definitions share the frame that they stand in. -/
theorem define (run run' : Runner) (signature : Signature) (body : List Stmt) :
    Rel ((Stmt.define 0 signature body).exec run here) ((Stmt.define 0 signature body).exec run' (here.withFilters fs))
      .none .none := by
  simp only [Stmt.exec]
  refine h.change fun r s => ?_
  have hs := Run.Aside.session s
  rw [hs.sharing r]
  dsimp only
  rw [hs.foldl_share here.env r.sharing.1 signature.mentioned r.sharing.2]
  exact hs.store ((signature.mentioned.foldl (Run.share here.env r.sharing.1) r.sharing.2).defining here.template).2 _ _

/-- The steps of evaluation. -/
theorem steps (env : Environment) (fs : Filters) : Steps Rel (Here.Refiltered env fs) where
  beside := by
    rintro here _ ⟨-, rfl⟩
    exact ⟨rfl, rfl⟩
  escaped := by
    rintro here _ b ⟨rfl, rfl⟩
    exact ⟨rfl, rfl⟩
  pure := h.pure
  throw := by
    rintro _ here _ line f ⟨-, rfl⟩
    exact h.throw _
  bind := h.bind
  known := by
    rintro _ here _ name f f' t t' ⟨-, rfl⟩ hf
    exact h.look (t := fun r => t (r.get? here.env name)) (u := fun r => t' (r.get? here.env name)) fun r s =>
      hf (r.get? here.env name)
  bindings := h.look_same fun _ _ => h.pure _
  sink := fun {_ _ _ t t'} hf => h.look (t := fun r => t r.sink) (u := fun r => t' r.sink) fun r _ => hf r.sink
  toSink _ := h.change fun _ _ => rfl
  print _ := h.change fun _ _ => rfl
  store name v := h.change fun r s => (Run.Aside.session s).store r name v
  place _ := h.change fun r s => (Run.Aside.session s).onFrame r _
  define := by
    rintro here _ run run' signature body ⟨-, rfl⟩
    exact h.define here fs run run' signature body
  frame := by
    rintro _ here _ line frame x x' t t' ⟨-, rfl⟩ hx
    exact h.inFrame here fs line frame hx
  load := h.load
  debug := h.debug
  unlessInherited := fun {_ _ t t'} hx => by
    refine h.look (t := fun r s => if r.parent.isSome || r.sink.discarding then [] else t s)
      (u := fun r s => if r.parent.isSome || r.sink.discarding then [] else t' s) fun r _ => ?_
    dsimp only
    split
    · exact h.pure ()
    · exact hx

/-! ## Snippets, blocks and inclusion -/

theorem inheritFrom (v : Value) :
    Rel (inheritFrom here line v) (inheritFrom (here.withFilters fs) line v) .none .none := by
  refine h.look_same fun r s => ?_
  dsimp only
  split
  · exact h.fail here fs line _
  · split
    · refine h.look_same fun r s => ?_
      dsimp only
      split
      · exact h.fail here fs line _
      · refine h.andQuietly ((h.steps here.env fs).findTemplate ⟨rfl, rfl⟩ line _) fun t => ?_
        split
        · exact h.fail here fs line _
        · exact h.change fun _ _ => rfl
    · exact h.fail here fs line _

variable {env : Environment} {fs : Filters} {run run' : Runner} {watch watch' : Watch}

/-- The steps of evaluation and those that lead out of a piece of template, if the runners and the calls of filters are
related. -/
theorem congruence
    (hrun : ∀ here body, here.env = env → Rel (run here body) (run' (here.withFilters fs) body) (watch here body)
      (watch' (here.withFilters fs) body))
    (hfilter : ∀ here line name v args, here.env = env → Rel (applyFilter run here line name v args)
      (applyFilter run' (here.withFilters fs) line name v args) (.ofFilter run watch here name v args)
      (.ofFilter run' watch' (here.withFilters fs) name v args)) :
    Congruence Rel (Here.Refiltered env fs) True run run' watch watch' where
  toSteps := h.steps env fs
  filter := by
    rintro here _ line name v args ⟨hh, rfl⟩
    exact hfilter here line name v args hh
  snippet := by
    rintro here _ line number signature body scope args ⟨hh, rfl⟩
    refine h.quietly ((h.steps env fs).lift ⟨hh, rfl⟩ line _) fun bindings => ?_
    let template (outer : Run) : String := (outer.origins[number]?).getD here.template
    refine h.look (t := fun outer => Calls.ofBody watch here line (template outer) body scope bindings)
      (u := fun outer => Calls.ofBody watch' (here.withFilters fs) line (template outer) body scope bindings) ?_
    intro outer s
    have hbody := hrun { here with template := template outer, block := none } body hh
    have htext := (h.steps env fs).captured .empty hbody
    refine h.change_bind (fun _ _ => rfl) ?_
    refine h.quietly (h.checkDepth here fs line) fun _ => h.andQuietly htext fun text => ?_
    exact h.andQuietly (h.change fun _ _ => rfl) fun _ => h.pure (here.textValue text)
  block := by
    rintro here _ line name ⟨hh, rfl⟩
    refine h.look (t := fun r => Calls.ofTurn watch here line name (Table.get? r.blocks name))
      (u := fun r => Calls.ofTurn watch' (here.withFilters fs) line name (Table.get? r.blocks name)) fun r s => ?_
    dsimp only
    cases Table.get? r.blocks name with
    | none => exact h.fail here fs line _
    | some layers =>
      dsimp only [Calls.ofTurn]
      cases layers.bodies[layers.depth]? with
      | none => exact h.fail here fs line _
      | some entry =>
        have hbody := hrun { here with template := entry.1, block := some name } entry.2 hh
        exact h.inFrame here fs line .empty hbody
  outer := by
    rintro ⟨env, template, escaping, block⟩ _ line ⟨hh, rfl⟩
    cases block with
    | none => exact h.fail _ fs line _
    | some name =>
      let here : Here := ⟨env, template, escaping, some name⟩
      refine h.look (t := fun r => Calls.ofNext watch here line name (Table.get? r.blocks name))
        (u := fun r => Calls.ofNext watch' (here.withFilters fs) line name (Table.get? r.blocks name)) fun r s => ?_
      dsimp only
      cases Table.get? r.blocks name with
      | none => exact h.fail _ fs line _
      | some layers =>
        dsimp only [Calls.ofNext]
        cases layers.bodies[layers.depth + 1]? with
        | none => exact h.fail _ fs line _
        | some entry =>
          have hbody := h.inFrame here fs line .empty (hrun { here with template := entry.1 } entry.2 hh)
          refine h.change_bind (fun _ _ => rfl) ?_
          exact h.andQuietly (h.catching hbody fun _ => h.fail here fs line _) fun _ => h.change fun _ _ => rfl
  inherit := by
    rintro here _ line v - ⟨-, rfl⟩
    exact h.inheritFrom here fs line v
  inclusion := by
    rintro here _ line t ⟨hh, rfl⟩
    have hbody := hrun { here with template := t.name, escaping := here.env.escapes t.name } t.body hh
    refine h.look_same fun outer s => ?_
    refine h.change_bind (fun r s => ?_) ?_
    · rw [(Run.Aside.session s).onFrame r]
    refine h.quietly (h.checkDepth here fs line) fun _ => ?_
    refine h.andQuietly (h.catching hbody fun _ => h.fail here fs line _) fun _ => h.change fun r s => ?_
    rw [(Run.Aside.session s).onFrame r]

/-! ## Levels -/

/-- **What holds of the calls of filters holds of whole templates**, at every level. -/
theorem within {file file' : Evaluator} {watchFile watchFile' : Watcher}
    (hfilter : ∀ n here line name v args, here.env = env →
      Rel (applyFilter (.within file n) here line name v args)
        (applyFilter (.within file' n) (here.withFilters fs) line name v args)
        (.ofFilter (.within file n) (.within file watchFile n) here name v args)
        (.ofFilter (.within file' n) (.within file' watchFile' n) (here.withFilters fs) name v args)) :
    ∀ (n : Nat) (here : Here) (body : List Stmt), here.env = env →
      Rel (evaluateAt file n here body) (evaluateAt file' n (here.withFilters fs) body)
        (watchAt file watchFile n here body) (watchAt file' watchFile' n (here.withFilters fs) body)
  | 0, _, _, _ => h.throw _
  | n + 1, here, body, hh => by
    have hbelow := within hfilter n
    have hbody := (h.congruence hbelow (hfilter n)).execAll ⟨hh, rfl⟩ body (.inl trivial)
    refine h.look
      (t := fun outer r => (Stmt.callsAll (.within file n) (.within file watchFile n) here body).andThen
        (Stmt.execAll (.within file n) here body)
        (fun _ r => Calls.ofParent (watchAt file watchFile n) here outer r.parent r) { r with parent := none })
      (u := fun outer r =>
        (Stmt.callsAll (.within file' n) (.within file' watchFile' n) (here.withFilters fs) body).andThen
        (Stmt.execAll (.within file' n) (here.withFilters fs) body)
        (fun _ r => Calls.ofParent (watchAt file' watchFile' n) (here.withFilters fs) outer r.parent r)
        { r with parent := none }) fun outer s => ?_
    refine h.change_bind (fun _ _ => rfl) (h.bind hbody fun _ => ?_)
    refine h.look (t := fun r => Calls.ofParent (watchAt file watchFile n) here outer r.parent)
      (u := fun r => Calls.ofParent (watchAt file' watchFile' n) (here.withFilters fs) { outer with session := s } r.parent)
      fun r s => ?_
    dsimp only
    cases r.parent with
    | none => exact h.change fun _ _ => rfl
    | some parent =>
      have hparent := hbelow { here with template := parent.1 } parent.2 hh
      exact h.change_bind (fun _ _ => rfl) (h.andQuietly hparent fun _ => h.change fun _ _ => rfl)

end Lockstep
end Folio.Template
