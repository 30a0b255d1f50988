import Folio.Proofs.Template.Evaluation
import Mathlib.Tactic.Common
/-!
# Evaluation inside a block

A template that stays by itself (`Stmt.StayAll`) can be evaluated as it stands, or as the body of a block of a template
around it.  Inside the block the variables it was given are those of the template around it, one frame further out, and
blocks are there that it does not know of (`InBlock`).  Neither can be told from within: what evaluates without the block
evaluates inside it, to the same value and with the same effect (`Follows`).  Nothing is said of an evaluation that fails
without the block, since a block of the name it calls may be there inside.

What the template includes has the same blocks of its own both ways, and may inherit; this is the open form of the
relation, and it holds at every level of nesting (`runner_follows`).
-/
namespace Folio.Template

variable {α β : Type} {given : Variables} {isOpen : Prop} {k : Nat} {r r' : Run}

/-! ## Frames -/

/-- Frames of a template that was given variables, and of the body of a block in a template that was given them; so many
frames were opened since. -/
inductive Nests (given : Variables) : Nat → List Frame → List Frame → Prop where
  | outermost (f : Frame) : Nests given 0 [{ f with base := .given given }]
      [{ f with base := .nothing }, ⟨[], none, .given given, none⟩]
  | push (f : Frame) {k : Nat} {fs fs' : List Frame} (h : Nests given k fs fs') : Nests given (k + 1) (f :: fs) (f :: fs')

namespace Nests

variable {fs fs' : List Frame} {f : Frame}

theorem length_eq (h : Nests given k fs fs') : fs'.length = fs.length + 1 := by
  induction h with
  | outermost => rfl
  | push f h ih => simp [ih]

theorem head_shared (h : Nests given k fs fs') : fs'.head?.bind (·.shared) = fs.head?.bind (·.shared) := by
  cases h with
  | outermost => rfl
  | push => rfl

theorem head_bindings (h : Nests given k fs fs') : fs'.head?.map (·.bindings) = fs.head?.map (·.bindings) := by
  cases h with
  | outermost => rfl
  | push => rfl

/-- Variables are found with the same values. -/
theorem findSome?_eq (h : Nests given k fs fs') (scopes : List Variables) (name : String) :
    fs'.findSome? (·.get? scopes name) = fs.findSome? (·.get? scopes name) := by
  induction h with
  | outermost f =>
    have hnothing : Table.get? ([] : Variables) name = none := rfl
    simp only [List.findSome?_cons, List.findSome?_nil, Frame.get?, hnothing, ite_self, Option.none_or, Option.or_none]
    cases Table.get? f.bindings name with
    | some v => rfl
    | none =>
      cases (if name = "loop" then f.loop else none) with
      | some v => rfl
      | none => cases Table.get? given name <;> rfl
  | push f h ih => simp only [List.findSome?_cons, ih]

theorem tail (h : Nests given (k + 1) fs fs') : Nests given k fs.tail fs'.tail := by
  cases h with
  | push f h => exact h

end Nests

/-! ## Runs -/

/-- A run of a template, and one in which the template is the body of a block.  In the open form both are in a template
that was included, with blocks of its own; otherwise the first run has no blocks. -/
structure InBlock (given : Variables) (isOpen : Prop) (k : Nat) (r r' : Run) : Prop where
  session : r'.session = r.session
  scopes : r'.scopes = r.scopes
  sink : r'.sink = r.sink
  inherited : r'.inherited = r.inherited
  parent : r'.parent = r.parent
  frames : Nests given k r.frames r'.frames
  outerDepth : r.outerDepth = r'.outerDepth + 1
  origins : r'.origins = r.origins
  same : isOpen → r'.blocks = r.blocks
  stays : ¬ isOpen → r.blocks = [] ∧ r.parent = none

namespace InBlock

theorem depth_eq (h : InBlock given isOpen k r r') : r'.depth = r.depth := by
  unfold Run.depth
  rw [h.frames.length_eq, h.outerDepth]
  omega

theorem get?_eq (h : InBlock given isOpen k r r') (env : Environment) (name : String) :
    r'.get? env name = r.get? env name := by
  unfold Run.get?
  rw [h.scopes, h.frames.findSome?_eq]

/-- A change of the innermost frame that leaves alone what the frame has below its variables. -/
theorem onFrame (h : InBlock given isOpen k r r') {g : Frame → Frame}
    (hg : ∀ f b, g { f with base := b } = { g f with base := b }) :
    InBlock given isOpen k (r.onFrame g) (r'.onFrame g) := by
  obtain ⟨session, frames, scopes, sink, blocks, inherited, parent, outerDepth, origins⟩ := r
  obtain ⟨session', frames', scopes', sink', blocks', inherited', parent', outerDepth', origins'⟩ := r'
  have hframes := h.frames
  dsimp only at hframes
  cases hframes with
  | outermost f =>
    refine { h with frames := ?_ }
    show Nests given 0 [g { f with base := .given given }] (g { f with base := .nothing } :: _)
    rw [hg f (.given given), hg f .nothing]
    exact .outermost (g f)
  | push f hrest => exact { h with frames := .push (g f) hrest }

theorem onScope (h : InBlock given isOpen k r r') (n : Nat) (f : Variables → Variables) :
    InBlock given isOpen k (r.onScope n f) (r'.onScope n f) :=
  { h with scopes := congrArg (List.modify · n f) h.scopes }

theorem store (h : InBlock given isOpen k r r') (name : String) (v : Value) :
    InBlock given isOpen k (r.store name v) (r'.store name v) := by
  unfold Run.store
  rw [h.frames.head_shared]
  cases r.frames.head?.bind (·.shared) with
  | none => exact h.onFrame fun _ _ => rfl
  | some n => exact (h.onScope n _).onFrame fun _ _ => rfl

theorem sharing (h : InBlock given isOpen k r r') :
    r'.sharing.1 = r.sharing.1 ∧ InBlock given isOpen k r.sharing.2 r'.sharing.2 := by
  unfold Run.sharing
  rw [h.frames.head_shared]
  cases r.frames.head?.bind (·.shared) with
  | some n => exact ⟨rfl, h⟩
  | none =>
    dsimp only
    rw [h.scopes]
    have hscopes : InBlock given isOpen k { r with scopes := r.scopes ++ [[]] } { r' with scopes := r.scopes ++ [[]] } :=
      { h with scopes := rfl }
    exact ⟨rfl, hscopes.onFrame fun _ _ => rfl⟩

theorem share (h : InBlock given isOpen k r r') (env : Environment) (n : Nat) (name : String) :
    InBlock given isOpen k (r.share env n name) (r'.share env n name) := by
  unfold Run.share
  rw [h.scopes, h.get?_eq]
  cases r.scopes[n]? with
  | none => exact h
  | some vs =>
    dsimp only
    split
    · exact h
    · exact h.onScope n _

theorem defining (h : InBlock given isOpen k r r') (template : String) :
    (r'.defining template).1 = (r.defining template).1 ∧
      InBlock given isOpen k (r.defining template).2 (r'.defining template).2 :=
  ⟨congrArg List.length h.origins, { h with origins := congrArg (· ++ [template]) h.origins }⟩

theorem shareAll (env : Environment) (n : Nat) : ∀ (names : List String) {r r' : Run}, InBlock given isOpen k r r' →
    InBlock given isOpen k (names.foldl (Run.share env n) r) (names.foldl (Run.share env n) r')
  | [], _, _, h => h
  | name :: names, _, _, h => shareAll env n names (h.share env n name)

end InBlock

/-! ## Steps in sequence -/

theorem Eval.bind_eq_ok {x : Eval α} {f : α → Eval β} {b : β} {r s : Run} :
    (x >>= f) r = .ok b s ↔ ∃ a t, x r = .ok a t ∧ f a t = .ok b s := by
  show EStateM.bind x f r = _ ↔ _
  unfold EStateM.bind
  constructor
  · intro h
    cases hx : x r with
    | ok a t =>
      rw [hx] at h
      exact ⟨a, t, rfl, h⟩
    | error e t =>
      rw [hx] at h
      cases h
  · rintro ⟨a, t, hx, hf⟩
    rw [hx]
    exact hf

/-- A step whose faults are replaced by others has a value where it has one by itself. -/
theorem Eval.tryCatch_fail_eq_ok {x : Eval α} {here : Here} {line : Nat} {cause : Cause} {a : α} {r s : Run} :
    (tryCatch x fun _ => here.fail line cause) r = .ok a s ↔ x r = .ok a s := by
  show EStateM.tryCatch x _ r = _ ↔ _
  unfold EStateM.tryCatch
  cases x r with
  | ok b t => rfl
  | error e t =>
    constructor
    · intro h
      cases h
    · intro h
      cases h

/-- What the first step comes to without the block, the second one comes to inside it. -/
def Follows (given : Variables) (isOpen : Prop) (x x' : Eval α) : Prop :=
  ∀ k r r', InBlock given isOpen k r r' → ∀ a s, x r = .ok a s → ∃ s', x' r' = .ok a s' ∧ InBlock given isOpen k s s'

/-- A place without a block and the same place inside one. -/
inductive Here.Within (here : Here) : Here → Prop where
  | intro (block : Option String) (hblock : here.block = none ∨ block = here.block) :
    here.Within { here with block := block }

namespace Follows

protected theorem pure (a : α) : Follows given isOpen (pure a : Eval α) (pure a) := by
  intro k r r' h b s hs
  cases hs
  exact ⟨r', rfl, h⟩

protected theorem throw (f : Fault) (x' : Eval α) : Follows given isOpen (throw f : Eval α) x' := by
  intro k r r' h b s hs
  cases hs

theorem fail (here : Here) (line : Nat) (cause : Cause) (x' : Eval α) :
    Follows given isOpen (here.fail line cause : Eval α) x' := .throw _ _

protected theorem bind {x x' : Eval α} {f f' : α → Eval β} (hx : Follows given isOpen x x')
    (hf : ∀ a, Follows given isOpen (f a) (f' a)) : Follows given isOpen (x >>= f) (x' >>= f') := by
  intro k r r' h b s hs
  obtain ⟨a, t, hx₁, hf₁⟩ := Eval.bind_eq_ok.1 hs
  obtain ⟨t', hx', ht⟩ := hx k r r' h a t hx₁
  obtain ⟨s', hf', hs'⟩ := hf a k t t' ht b s hf₁
  exact ⟨s', Eval.bind_eq_ok.2 ⟨a, t', hx', hf'⟩, hs'⟩

/-- A step that looks at the run it starts in. -/
theorem get_bind {f f' : Run → Eval α}
    (hf : ∀ k r r', InBlock given isOpen k r r' → ∀ a s, f r r = .ok a s →
      ∃ s', f' r' r' = .ok a s' ∧ InBlock given isOpen k s s') :
    Follows given isOpen (get >>= f) (get >>= f') := hf

protected theorem modify {f f' : Run → Run} (hf : ∀ k r r', InBlock given isOpen k r r' →
    InBlock given isOpen k (f r) (f' r')) : Follows given isOpen (modify f : Eval Unit) (modify f') := by
  intro k r r' h a s hs
  cases hs
  exact ⟨f' r', rfl, hf k r r' h⟩

/-- A step whose faults are replaced by others. -/
theorem caught {x x' : Eval α} (hx : Follows given isOpen x x') (here here' : Here) (line : Nat) (cause : Cause) :
    Follows given isOpen (tryCatch x fun _ => here.fail line cause) (tryCatch x' fun _ => here'.fail line cause) := by
  intro k r r' h a s hs
  obtain ⟨s', hx', hs'⟩ := hx k r r' h a s (Eval.tryCatch_fail_eq_ok.1 hs)
  exact ⟨s', Eval.tryCatch_fail_eq_ok.2 hx', hs'⟩

variable {here here' : Here}

theorem checkDepth (here here' : Here) (line : Nat) :
    Follows given isOpen (checkDepth here line) (checkDepth here' line) := by
  refine get_bind fun k r r' h a s hs => ?_
  beta_reduce at hs ⊢
  rw [h.depth_eq]
  split at hs
  · cases hs
  · rename_i hdepth
    rw [if_neg hdepth]
    exact Follows.pure () k r r' h a s hs

/-- A step in a frame of its own, which both have. -/
theorem inFrame (here here' : Here) (line : Nat) (frame : Frame) {x x' : Eval α} (hx : Follows given isOpen x x') :
    Follows given isOpen (inFrame here line frame x) (inFrame here' line frame x') := by
  intro k r r' h a s hs
  obtain ⟨_, t, hcheck, hs⟩ := Eval.bind_eq_ok.1 hs
  obtain ⟨t', hcheck', ht⟩ := checkDepth here here' line k r r' h _ _ hcheck
  obtain ⟨_, u, hpush, hs⟩ := Eval.bind_eq_ok.1 hs
  cases hpush
  obtain ⟨b, v, hx₁, hs⟩ := Eval.bind_eq_ok.1 hs
  have hpushed : InBlock given isOpen (k + 1) { t with frames := frame :: t.frames }
      { t' with frames := frame :: t'.frames } := { ht with frames := .push frame ht.frames }
  obtain ⟨v', hx', hv⟩ := hx (k + 1) _ _ hpushed _ _ hx₁
  obtain ⟨_, w, hpop, hs⟩ := Eval.bind_eq_ok.1 hs
  cases hpop
  cases hs
  have hpopped : InBlock given isOpen k { v with frames := v.frames.tail } { v' with frames := v'.frames.tail } :=
    { hv with frames := hv.frames.tail }
  refine ⟨_, ?_, hpopped⟩
  refine Eval.bind_eq_ok.2 ⟨(), t', hcheck', Eval.bind_eq_ok.2 ⟨(), _, rfl, Eval.bind_eq_ok.2 ⟨a, v', hx', ?_⟩⟩⟩
  rfl

/-- Definitions share the frame that they stand in. -/
theorem define (hp : here.Within here') (run run' : Runner) (signature : Signature) (body : List Stmt) :
    Follows given isOpen ((Stmt.define 0 signature body).exec run here)
      ((Stmt.define 0 signature body).exec run' here') := by
  simp only [Stmt.exec]
  refine .modify fun k r r' h => ?_
  obtain ⟨block, -⟩ := hp
  obtain ⟨hnumber, hsharing⟩ := h.sharing
  rw [hnumber]
  obtain ⟨hnext, hdefining⟩ :=
    (InBlock.shareAll here.env r.sharing.1 signature.mentioned hsharing).defining here.template
  dsimp only
  rw [hnext]
  exact hdefining.store _ _

/-- The steps of evaluation. -/
theorem steps : Steps (fun {_} x x' _ _ => Follows given isOpen x x') Here.Within where
  beside := by
    rintro here _ ⟨block, -⟩
    exact ⟨rfl, rfl⟩
  escaped := by
    rintro here _ b ⟨block, hblock⟩
    exact .intro block hblock
  pure := .pure
  throw line f _ := .throw _ _
  bind := .bind
  known := by
    rintro _ here _ name f f' t t' ⟨block, -⟩ hf
    refine get_bind fun k r r' h a s hs => ?_
    beta_reduce at hs ⊢
    rw [h.get?_eq]
    exact hf _ k r r' h a s hs
  bindings := get_bind fun k r r' h a s hs => by
    rw [h.frames.head_bindings]
    exact Follows.pure _ k r r' h a s hs
  sink := fun {_ _ _ _ _} hf => get_bind fun k r r' h a s hs => by
    rw [h.sink]
    exact hf _ k r r' h a s hs
  toSink _ := .modify fun _ _ _ h => { h with sink := rfl }
  print text := .modify fun _ _ _ h => { h with sink := congrArg (Sink.print · text) h.sink }
  store name v := .modify fun _ _ _ h => h.store name v
  place _ := .modify fun _ _ _ h => h.onFrame fun _ _ => rfl
  define run run' signature body hp := define hp run run' signature body
  frame := by
    rintro _ here here' line frame x x' t t' - hx
    exact inFrame here here' line frame hx
  load name := .modify fun _ _ _ h => { h with session := congrArg (Session.load · name) h.session }
  debug := get_bind fun k r r' h a s hs => by
    rw [h.session]
    exact Follows.pure _ k r r' h a s hs
  unlessInherited := fun {_ _ _ _} hx => get_bind fun k r r' h a s hs => by
    rw [h.parent, h.sink]
    split at hs
    · rename_i hskip
      rw [if_pos hskip]
      exact Follows.pure () k r r' h a s hs
    · rename_i hskip
      rw [if_neg hskip]
      exact hx k r r' h a s hs

end Follows

/-! ## Snippets, blocks and inclusion -/

theorem runner_parent : ∀ {n : Nat} {here : Here} {body : List Stmt} {a : Unit} {r s : Run},
    runner n here body r = .ok a s → s.parent = r.parent
  | 0, _, _, _, _, _, h => nomatch h
  | n + 1, here, body, _, r, s, h => by
    rw [runner, Runner.within_succ] at h
    obtain ⟨_, _, hget, h⟩ := Eval.bind_eq_ok.1 h
    cases hget
    obtain ⟨_, _, hnone, h⟩ := Eval.bind_eq_ok.1 h
    cases hnone
    obtain ⟨_, t, hbody, h⟩ := Eval.bind_eq_ok.1 h
    obtain ⟨_, _, hget, h⟩ := Eval.bind_eq_ok.1 h
    cases hget
    cases ht : t.parent with
    | none =>
      rw [ht] at h
      cases h
      rfl
    | some parent =>
      rw [ht] at h
      obtain ⟨_, _, hparent, h⟩ := Eval.bind_eq_ok.1 h
      obtain ⟨_, _, hrun, h⟩ := Eval.bind_eq_ok.1 h
      cases h
      rfl

theorem checkDepth_eq_ok {here : Here} {line : Nat} {a : Unit} (h : checkDepth here line r = .ok a r') : r' = r := by
  obtain ⟨_, _, hget, h⟩ := Eval.bind_eq_ok.1 h
  cases hget
  split at h
  · cases h
  · cases h
    rfl

/-- Runners of which the second does inside a block what the first does without it, also where a template inherits; the
template that goes on after the one around is left alone. -/
structure RunnerFollows (given : Variables) (run : Runner) : Prop where
  follows : ∀ {here here'}, Here.Within here here' → ∀ body, Follows given True (run here body) (run here' body)
  parent : ∀ {here body a r s}, run here body r = .ok a s → s.parent = r.parent

theorem Run.onFrame_parent (r : Run) (f : Frame → Frame) : (r.onFrame f).parent = r.parent := by
  unfold Run.onFrame
  cases r.frames with
  | nil => rfl
  | cons frame rest => rfl

namespace RunnerFollows

variable {run : Runner} {here here' : Here}

theorem captured_parent (hrun : RunnerFollows given run) {sink : Sink} {body : List Stmt} {text : String}
    (h : captured sink (run here body) r = .ok text r') : r'.parent = r.parent := by
  obtain ⟨_, _, hget, h⟩ := Eval.bind_eq_ok.1 h
  cases hget
  obtain ⟨_, _, hset, h⟩ := Eval.bind_eq_ok.1 h
  cases hset
  obtain ⟨_, t, hbody, h⟩ := Eval.bind_eq_ok.1 h
  have hparent := hrun.parent hbody
  cases h
  exact hparent

theorem filter (hp : here.Within here') (line : Nat) (name : String) (v : Value) (args : Arguments) :
    Follows given isOpen (applyFilter run here line name v args) (applyFilter run here' line name v args) := by
  obtain ⟨block, hblock⟩ := hp
  unfold applyFilter
  cases Table.get? here.env.filters name with
  | none =>
    dsimp only
    cases standardFilter? name with
    | none => exact .fail here line _ _
    | some f => exact Follows.steps.lift (.intro block hblock) line (f v args)
  | some f =>
    refine Follows.get_bind fun k r r' h a s hs => ?_
    beta_reduce at hs ⊢
    rw [h.session]
    revert hs
    rcases callFilter run here.env f v args.flat r.session with ⟨failure | w, after⟩
    · intro hs
      cases hs
      exact ⟨_, rfl, { h with session := rfl }⟩
    · intro hs
      cases hs
      exact ⟨_, rfl, { h with session := rfl }⟩

variable (hrun : RunnerFollows given run) (hp : here.Within here')
include hrun hp

/-- A snippet sees nothing of the frames and the blocks around its call. -/
theorem snippet (line number : Nat) (signature : Signature) (body : List Stmt) (scope : Nat) (args : Arguments) :
    Follows given isOpen (callSnippet run here line number signature body scope args)
      (callSnippet run here' line number signature body scope args) := by
  obtain ⟨block, hblock⟩ := hp
  refine .bind (Follows.steps.lift (.intro block hblock) line _) fun bindings => ?_
  refine Follows.get_bind fun k r r' h a s hs => ?_
  beta_reduce at hs ⊢
  rw [h.origins]
  obtain ⟨_, _, hset, hs⟩ := Eval.bind_eq_ok.1 hs
  cases hset
  have hsame : { r' with
        frames := [⟨bindings, none, .shared scope, none⟩]
        outerDepth := r'.depth + snippetDepth
        blocks := [] } =
      { r with
        frames := [⟨bindings, none, .shared scope, none⟩]
        outerDepth := r.depth + snippetDepth
        blocks := [] } := by
    rw [h.depth_eq, h.session, h.scopes, h.sink, h.inherited, h.parent, h.origins]
  obtain ⟨_, _, hcheck, hs⟩ := Eval.bind_eq_ok.1 hs
  obtain rfl := checkDepth_eq_ok hcheck
  obtain ⟨text, t, hbody, hs⟩ := Eval.bind_eq_ok.1 hs
  have hparent := hrun.captured_parent hbody
  cases hs
  refine ⟨{ t with frames := r'.frames, outerDepth := r'.outerDepth, blocks := r'.blocks }, ?_, ?_⟩
  · refine Eval.bind_eq_ok.2 ⟨(), _, congrArg (EStateM.Result.ok ()) hsame, ?_⟩
    exact Eval.bind_eq_ok.2 ⟨_, _, hcheck, Eval.bind_eq_ok.2 ⟨text, t, hbody, rfl⟩⟩
  · exact {
      session := rfl
      scopes := rfl
      sink := rfl
      inherited := rfl
      parent := rfl
      frames := h.frames
      outerDepth := h.outerDepth
      origins := rfl
      same := h.same
      stays := fun hclosed => ⟨(h.stays hclosed).1, hparent.trans (h.stays hclosed).2⟩ }

/-- Blocks are called in what was included only: without the block around it, a template that stays has none. -/
theorem block (line : Nat) (name : String) :
    Follows given isOpen (callBlock run here line name) (callBlock run here' line name) := by
  obtain ⟨block, hblock⟩ := hp
  refine Follows.get_bind fun k r r' h a s => ?_
  by_cases hopen : isOpen
  · obtain rfl := eq_true hopen
    rw [h.same hopen]
    cases Table.get? r.blocks name with
    | none => exact (nomatch ·)
    | some layers =>
      dsimp only
      cases layers.bodies[layers.depth]? with
      | none => exact (nomatch ·)
      | some entry =>
        have hwithin : Here.Within { here with template := entry.1, block := some name }
          { here with template := entry.1, block := some name } := .intro _ (.inr rfl)
        have hbody := hrun.follows hwithin entry.2
        exact Follows.inFrame here _ line .empty hbody k r r' h a s
  · rw [(h.stays hopen).1]
    exact (nomatch ·)

/-- Likewise the body of a block further out. -/
theorem outer (line : Nat) : Follows given isOpen (callSuper run here line) (callSuper run here' line) := by
  obtain ⟨env, template, escaping, around⟩ := here
  obtain ⟨block, hblock⟩ := hp
  cases around with
  | none => exact .fail _ line _ _
  | some name =>
    obtain rfl : block = some name := hblock.resolve_left (Option.some_ne_none name)
    refine Follows.get_bind fun k r r' h a s => ?_
    by_cases hopen : isOpen
    · obtain rfl := eq_true hopen
      rw [h.same hopen]
      cases Table.get? r.blocks name with
      | none => exact (nomatch ·)
      | some layers =>
        dsimp only
        cases layers.bodies[layers.depth + 1]? with
        | none => exact (nomatch ·)
        | some entry =>
          let here : Here := ⟨env, template, escaping, some name⟩
          have hwithin : Here.Within { here with template := entry.1 } { here with template := entry.1 } :=
            .intro _ (.inr rfl)
          have hbody := hrun.follows hwithin entry.2
          have hframe := Follows.inFrame here here line .empty hbody
          refine (Follows.bind (.modify fun _ _ _ h => ?_) fun _ => (hframe.caught here here line _).bind fun _ =>
            .modify fun _ _ _ h => ?_) k r r' h a s
          · exact { h with
              same := fun _ => congrArg (Table.insert name _) (h.same trivial)
              stays := (absurd trivial ·) }
          · exact { h with
              same := fun _ => congrArg (Table.insert name _) (h.same trivial)
              stays := (absurd trivial ·) }
    · rw [(h.stays hopen).1]
      exact (nomatch ·)

omit hrun in
/-- In what was included a template is inherited from as without the block. -/
theorem inherit (line : Nat) (v : Value) :
    Follows given True (inheritFrom here line v) (inheritFrom here' line v) := by
  obtain ⟨block, hblock⟩ := hp
  refine Follows.get_bind fun k r r' h a s => ?_
  rw [h.parent]
  refine (?_ : Follows given True (_ : Eval Unit) _) k r r' h a s
  split
  · exact .fail here line _ _
  · cases v with
    | text name safe =>
      refine Follows.get_bind fun k r r' h a s => ?_
      rw [h.inherited]
      refine (?_ : Follows given True (_ : Eval Unit) _) k r r' h a s
      split
      · exact .fail here line _ _
      · refine .bind (Follows.steps.findTemplate (.intro block hblock) line name) fun found => ?_
        cases found with
        | none => exact .fail here line _ _
        | some t =>
          exact .modify fun _ _ _ h => { h with
            inherited := congrArg (name :: ·) h.inherited
            parent := rfl
            sink := congrArg (fun s : Sink => { s with discarding := true }) h.sink
            same := fun _ => congrArg (addBlocks t) (h.same trivial)
            stays := (absurd trivial ·) }
    | _ => exact .fail here line _ _

/-- A template is included with blocks of its own. -/
theorem inclusion (line : Nat) (t : Template) :
    Follows given isOpen (includeTemplate run here line t) (includeTemplate run here' line t) := by
  refine Follows.get_bind fun k r r' h a s hs => ?_
  beta_reduce at hs ⊢
  obtain ⟨_, _, hset, hs⟩ := Eval.bind_eq_ok.1 hs
  cases hset
  have hinside : InBlock given True k
      { r.onFrame (fun f => { f with shared := none }) with
        blocks := addBlocks t [], outerDepth := r.outerDepth + includeDepth }
      { r'.onFrame (fun f => { f with shared := none }) with
        blocks := addBlocks t [], outerDepth := r'.outerDepth + includeDepth } :=
    { h.onFrame (g := fun f => { f with shared := none }) fun _ _ => rfl with
      outerDepth := by
        have houter := h.outerDepth
        dsimp only
        omega
      same := fun _ => rfl
      stays := (absurd trivial ·) }
  obtain ⟨_, _, hcheck, hs⟩ := Eval.bind_eq_ok.1 hs
  obtain ⟨t', hcheck', ht⟩ := Follows.checkDepth here here' line k _ _ hinside _ _ hcheck
  obtain rfl := checkDepth_eq_ok hcheck
  obtain ⟨_, u, hbody, hs⟩ := Eval.bind_eq_ok.1 hs
  rw [Eval.tryCatch_fail_eq_ok] at hbody
  have hparent := hrun.parent hbody
  obtain ⟨block, hblock⟩ := hp
  have hwithin : Here.Within { here with template := t.name, escaping := here.env.escapes t.name }
    { here with template := t.name, escaping := here.env.escapes t.name, block := block } := .intro block hblock
  obtain ⟨u', hbody', hu⟩ := hrun.follows hwithin t.body k _ _ ht _ _ hbody
  cases hs
  refine ⟨_, Eval.bind_eq_ok.2 ⟨(), _, rfl, Eval.bind_eq_ok.2 ⟨_, _, hcheck', Eval.bind_eq_ok.2 ⟨_, u',
    Eval.tryCatch_fail_eq_ok.2 hbody', rfl⟩⟩⟩, ?_⟩
  -- The frame gets its shared variables back, and the run its blocks.
  have hback := hu.onFrame (g := fun f => { f with shared := r.frames.head?.bind (·.shared) }) fun _ _ => rfl
  rw [h.frames.head_shared, h.inherited]
  exact { hback with
    inherited := rfl
    outerDepth := h.outerDepth
    same := h.same
    stays := fun hclosed => by
      obtain ⟨hblocks, hnone⟩ := h.stays hclosed
      refine ⟨hblocks, (Run.onFrame_parent u _).trans (hparent.trans ?_)⟩
      exact (Run.onFrame_parent r _).trans hnone }

omit hrun hp in
/-- The steps of evaluation and those that lead out of a piece of template. -/
theorem congruence (hrun : RunnerFollows given run) (watch : Watch) :
    Congruence (fun {_} x x' _ _ => Follows given isOpen x x') Here.Within isOpen run run watch watch where
  toSteps := Follows.steps
  filter line name v args hp := filter hp line name v args
  snippet line number signature body scope args hp := hrun.snippet hp line number signature body scope args
  block line name hp := hrun.block hp line name
  outer line hp := hrun.outer hp line
  inherit line v hopen hp := by
    obtain rfl := eq_true hopen
    exact inherit hp line v
  inclusion line t hp := hrun.inclusion hp line t

end RunnerFollows

/-! ## Levels -/

/-- **Whatever is included evaluates inside a block as it does without it**, at every level of nesting. -/
theorem runner_follows : ∀ n : Nat, RunnerFollows given (runner n)
  | 0 => ⟨fun _ _ => .throw _ _, runner_parent⟩
  | n + 1 => by
    refine ⟨fun {here here'} hp body => ?_, runner_parent⟩
    have hbody : Follows given True (Stmt.execAll (runner n) here body) (Stmt.execAll (runner n) here' body) :=
      ((runner_follows n).congruence (watcher n)).execAll hp body (.inl trivial)
    refine Follows.get_bind fun k r r' h a s => ?_
    rw [h.parent, h.sink]
    refine (Follows.bind ?_ fun _ => hbody.bind fun _ => Follows.get_bind fun k t t' ht a s => ?_) k r r' h a s
    · exact .modify fun _ _ _ h => { h with
        parent := rfl
        stays := (absurd trivial ·) }
    · rw [ht.parent]
      cases t.parent with
      | none =>
        refine (Follows.modify fun _ _ _ h => ?_) k t t' ht a s
        exact { h with
          parent := rfl
          stays := (absurd trivial ·) }
      | some parent =>
        have hwithin : Here.Within { here with template := parent.1 } { here' with template := parent.1 } := by
          obtain ⟨block, hblock⟩ := hp
          exact .intro block hblock
        have hparent := (runner_follows n).follows hwithin parent.2
        refine (Follows.bind (.modify fun _ _ _ h => ?_) fun _ => hparent.bind fun _ =>
          .modify fun _ _ _ h => ?_) k t t' ht a s
        · exact { h with
            parent := rfl
            sink := congrArg (fun s : Sink => { s with discarding := r.sink.discarding }) h.sink
            stays := (absurd trivial ·) }
        · exact { h with
            parent := rfl
            stays := (absurd trivial ·) }

/-- **A template that stays by itself evaluates inside a block as it does without it.** -/
theorem runner_stays (n : Nat) {here here' : Here} (hp : here.Within here') {body : List Stmt}
    (hstays : Stmt.StayAll body) : Follows given False (runner n here body) (runner n here' body) := by
  cases n with
  | zero => exact .throw _ _
  | succ n =>
    have hbody : Follows given False (Stmt.execAll (runner n) here body) (Stmt.execAll (runner n) here' body) :=
      ((runner_follows n).congruence (watcher n)).execAll hp body (.inr hstays)
    refine Follows.get_bind fun k r r' h a s => ?_
    obtain ⟨-, hnone⟩ := h.stays not_false
    rw [h.parent, h.sink, hnone]
    refine (Follows.bind ?_ fun _ => hbody.bind fun _ => Follows.get_bind fun k t t' ht a s => ?_) k r r' h a s
    · exact .modify fun _ _ _ h => { h with
        parent := rfl
        stays := fun hclosed => ⟨(h.stays hclosed).1, rfl⟩ }
    · -- Nothing was inherited from, so nothing goes on.
      rw [ht.parent, (ht.stays not_false).2]
      refine (Follows.modify fun _ _ _ h => ?_) k t t' ht a s
      exact { h with
        parent := rfl
        stays := fun hclosed => ⟨(h.stays hclosed).1, rfl⟩ }

end Folio.Template
