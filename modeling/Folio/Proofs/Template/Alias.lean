import Folio.Proofs.Template.Agreement
/-!
# What a template is called

A run keeps the names of templates beside the bodies of blocks and for its snippets, and says them in its faults.  Nothing
else depends on them.  So the same statements in templates of different names (`Here.Aliased`), evaluated in runs that
differ in such names only (`Renamed`), come to the same value, or to faults with the same cause, and leave such runs
(`Renames`).  This holds at every level of a render (`evaluateFile_nameless`), so a source comes to the same text under
every name (`renderNamed_alias`).
-/
namespace Folio.Template

variable {α β : Type}

/-! ## Blocks -/

/-- What layers are apart from the names of their templates. -/
def Layers.unnamed (l : Layers) : List (List Stmt) × Nat := (l.bodies.map (·.2), l.depth)

/-- The same bodies of blocks, in templates of other names. -/
def SameBlocks (bs bs' : Table Layers) : Prop :=
  ∀ name, (Table.get? bs name).map Layers.unnamed = (Table.get? bs' name).map Layers.unnamed

/-- The body at a place of the layers of a block. -/
theorem Layers.body_of_unnamed {l l' : Layers} (h : l.unnamed = l'.unnamed) (i : Nat) :
    (l.bodies[i]? = none ∧ l'.bodies[i]? = none) ∨
    ∃ template template' body, l.bodies[i]? = some (template, body) ∧ l'.bodies[i]? = some (template', body) := by
  have hbodies := congrArg (·[i]?) (congrArg Prod.fst h)
  simp only [unnamed, List.getElem?_map] at hbodies
  cases hl : l.bodies[i]? with
  | none =>
    rw [hl] at hbodies
    exact .inl ⟨rfl, Option.map_eq_none_iff.1 hbodies.symm⟩
  | some entry =>
    rw [hl] at hbodies
    obtain ⟨entry', hl', hbody⟩ := Option.map_eq_some_iff.1 hbodies.symm
    have hsame : entry'.2 = entry.2 := hbody
    refine .inr ⟨entry.1, entry'.1, entry.2, rfl, hl'.trans ?_⟩
    rw [← hsame]

namespace SameBlocks

variable {bs bs' : Table Layers}

theorem refl (bs : Table Layers) : SameBlocks bs bs := fun _ => rfl

theorem lookup (h : SameBlocks bs bs') (name : String) :
    (Table.get? bs name = none ∧ Table.get? bs' name = none) ∨
    ∃ l l', Table.get? bs name = some l ∧ Table.get? bs' name = some l' ∧ l.unnamed = l'.unnamed := by
  have hname := h name
  cases hl : Table.get? bs name with
  | none =>
    rw [hl] at hname
    exact .inl ⟨rfl, Option.map_eq_none_iff.1 hname.symm⟩
  | some l =>
    rw [hl] at hname
    obtain ⟨l', hl', hsame⟩ := Option.map_eq_some_iff.1 hname.symm
    exact .inr ⟨l, l', rfl, hl', hsame.symm⟩

theorem insert (h : SameBlocks bs bs') (name : String) {l l' : Layers} (hl : l.unnamed = l'.unnamed) :
    SameBlocks (Table.insert name l bs) (Table.insert name l' bs') := by
  intro other
  rw [Table.get?_insert, Table.get?_insert]
  split
  · exact congrArg some hl
  · exact h other

/-- Templates with the same blocks add the same to them. -/
theorem addBlocks (h : SameBlocks bs bs') {t t' : Template} (ht : t.blocks = t'.blocks) :
    SameBlocks (addBlocks t bs) (addBlocks t' bs') := by
  unfold Template.addBlocks
  rw [ht]
  generalize t'.blocks = entries
  induction entries generalizing bs bs' with
  | nil => exact h
  | cons entry entries ih =>
    refine ih (h.insert entry.1 ?_)
    obtain ⟨hl, hl'⟩ | ⟨l, l', hl, hl', hsame⟩ := h.lookup entry.1
    · rw [hl, hl']
      rfl
    · have hbodies : l.bodies.map (·.2) = l'.bodies.map (·.2) := congrArg Prod.fst hsame
      have hdepth : l.depth = l'.depth := congrArg Prod.snd hsame
      simp only [hl, hl', Option.getD_some, Layers.unnamed, List.map_append, hbodies, hdepth, List.map_cons, List.map_nil]

end SameBlocks

/-! ## Runs and places -/

/-- The run with other names of templates, beside its blocks and for its snippets. -/
def Run.withNames (r : Run) (blocks : Table Layers) (origins : List String) : Run :=
  { r with blocks := blocks, origins := origins }

/-- Two runs that differ in the names of templates only. -/
inductive Renamed : Run → Run → Prop where
  | intro {r : Run} {blocks : Table Layers} {origins : List String} (same : SameBlocks r.blocks blocks)
    (length : origins.length = r.origins.length) : Renamed r (r.withNames blocks origins)

theorem Run.Aside.names (blocks : Table Layers) (origins : List String) : Run.Aside (·.withNames blocks origins) where
  frames _ _ := rfl
  scopes _ _ := rfl

namespace Renamed

variable {r r' : Run}

/-- A change that has nothing to do with names. -/
theorem change {g : Run → Run}
    (hg : ∀ r blocks origins, g (r.withNames blocks origins) = (g r).withNames blocks origins) (h : Renamed r r') :
    Renamed (g r) (g r') := by
  obtain ⟨same, length⟩ := h
  rename_i blocks origins
  have hself := hg r r.blocks r.origins
  have hblocks : (g (r.withNames r.blocks r.origins)).blocks = r.blocks := by rw [hself]; rfl
  have horigins : (g (r.withNames r.blocks r.origins)).origins = r.origins := by rw [hself]; rfl
  have hsame : SameBlocks (g r).blocks blocks := by
    rw [show (g r).blocks = r.blocks from hblocks]
    exact same
  rw [hg]
  exact .intro hsame (length.trans (congrArg List.length horigins.symm))

/-- Other blocks, the same in both. -/
theorem withBlocks (h : Renamed r r') {bs bs' : Table Layers} (same : SameBlocks bs bs') :
    Renamed { r with blocks := bs } { r' with blocks := bs' } := by
  obtain ⟨-, length⟩ := h
  exact .intro same length

theorem sharing (h : Renamed r r') : r'.sharing.1 = r.sharing.1 ∧ Renamed r.sharing.2 r'.sharing.2 := by
  have hnames : ∀ (r : Run) blocks origins,
      (r.withNames blocks origins).sharing = (r.sharing.1, r.sharing.2.withNames blocks origins) :=
    fun r blocks origins => (Run.Aside.names blocks origins).sharing r
  refine ⟨?_, h.change (g := fun r => r.sharing.2) fun r blocks origins => congrArg Prod.snd (hnames r blocks origins)⟩
  obtain ⟨-, -⟩ := h
  rw [hnames]

/-- A snippet gets the same number. -/
theorem defining (h : Renamed r r') (template template' : String) :
    (r'.defining template').1 = (r.defining template).1 ∧
      Renamed (r.defining template).2 (r'.defining template').2 := by
  obtain ⟨same, length⟩ := h
  rename_i blocks origins
  refine ⟨length, .intro same ?_⟩
  show (origins ++ [template']).length = (r.origins ++ [template]).length
  rw [List.length_append, List.length_append, length]
  rfl

end Renamed

/-- A place, and the same place in a template of another name. -/
inductive Here.Aliased (here : Here) : Here → Prop where
  | intro (template : String) : here.Aliased { here with template := template }

/-- Two steps of evaluation that came to the same value, or to faults with the same cause. -/
inductive EndRenamed : EStateM.Result Fault Run α → EStateM.Result Fault Run α → Prop where
  | ok (a : α) {r r' : Run} (renamed : Renamed r r') : EndRenamed (.ok a r) (.ok a r')
  | error {f f' : Fault} (cause : f'.cause = f.cause) {r r' : Run} (renamed : Renamed r r') :
    EndRenamed (.error f r) (.error f' r')

/-- Two steps of evaluation that differ in the names of templates at most. -/
def Renames (x x' : Eval α) : Prop := ∀ r r', Renamed r r' → EndRenamed (x r) (x' r')

namespace Renames

variable {here here' : Here} {run : Runner}

/-! ## Steps in sequence -/

protected theorem pure (a : α) : Renames (pure a : Eval α) (pure a) := fun _ _ h => .ok a h

protected theorem throw {f f' : Fault} (h : f'.cause = f.cause) : Renames (throw f : Eval α) (throw f') :=
  fun _ _ hr => .error h hr

protected theorem bind {x x' : Eval α} {f f' : α → Eval β} (hx : Renames x x') (hf : ∀ a, Renames (f a) (f' a)) :
    Renames (x >>= f) (x' >>= f') := by
  intro r r' h
  have hr := hx r r' h
  show EndRenamed (EStateM.bind x f r) (EStateM.bind x' f' r')
  unfold EStateM.bind
  generalize x r = y at hr
  generalize x' r' = y' at hr
  cases hr with
  | ok a renamed => exact hf a _ _ renamed
  | error cause renamed => exact .error cause renamed

/-- A step whose faults are replaced by another one. -/
theorem caught {x x' : Eval α} {f f' : Eval α} (hx : Renames x x') (hf : Renames f f') :
    Renames (tryCatch x fun _ => f) (tryCatch x' fun _ => f') := by
  intro r r' h
  have hr := hx r r' h
  show EndRenamed (EStateM.tryCatch x _ r) (EStateM.tryCatch x' _ r')
  unfold EStateM.tryCatch
  generalize x r = y at hr
  generalize x' r' = y' at hr
  cases hr with
  | ok a renamed => exact .ok a renamed
  | error _ renamed => exact hf _ _ renamed

/-- A step that looks at the run it starts in. -/
theorem look {f f' : Run → Eval α} (hf : ∀ r r', Renamed r r' → Renames (f r) (f' r')) :
    Renames (get >>= f) (get >>= f') := fun r r' h => hf r r' h r r' h

protected theorem modify {g g' : Run → Run} (hg : ∀ r r', Renamed r r' → Renamed (g r) (g' r')) :
    Renames (modify g : Eval Unit) (modify g') := fun r r' h => .ok () (hg r r' h)

/-- A change that has nothing to do with names. -/
theorem change {g : Run → Run}
    (hg : ∀ r blocks origins, g (r.withNames blocks origins) = (g r).withNames blocks origins) :
    Renames (modify g : Eval Unit) (modify g) := .modify fun _ _ h => h.change hg

theorem fail (here here' : Here) (line : Nat) (cause : Cause) :
    Renames (here.fail line cause : Eval α) (here'.fail line cause) := .throw rfl

theorem checkDepth (here here' : Here) (line : Nat) : Renames (checkDepth here line) (checkDepth here' line) := by
  refine look fun r _ h => ?_
  obtain ⟨-, -⟩ := h
  show Renames (if r.depth > deepestFrame then _ else _) (if r.depth > deepestFrame then _ else _)
  split
  · exact fail here here' line .tooDeep
  · exact .pure ()

theorem inFrame (here here' : Here) (line : Nat) (frame : Frame) {x x' : Eval α} (hx : Renames x x') :
    Renames (inFrame here line frame x) (inFrame here' line frame x') :=
  .bind (checkDepth here here' line) fun _ =>
  .bind (change fun _ _ _ => rfl) fun _ =>
  .bind hx fun a =>
  .bind (change fun _ _ _ => rfl) fun _ => .pure a

/-- A definition notes the template that it stands in, and is stored under the same number. -/
theorem define (hp : here.Aliased here') (run : Runner) (signature : Signature) (body : List Stmt) :
    Renames ((Stmt.define 0 signature body).exec run here) ((Stmt.define 0 signature body).exec run here') := by
  simp only [Stmt.exec]
  refine .modify fun r r' h => ?_
  obtain ⟨template⟩ := hp
  obtain ⟨hnumber, hsharing⟩ := h.sharing
  rw [hnumber]
  have hshared := hsharing.change (g := fun r' => signature.mentioned.foldl (Run.share here.env r.sharing.1) r')
    fun r' b o => (Run.Aside.names b o).foldl_share here.env r.sharing.1 signature.mentioned r'
  obtain ⟨hnext, hdefining⟩ := hshared.defining here.template template
  dsimp only at hnext ⊢
  rw [hnext]
  exact hdefining.change (g := fun r' => r'.store signature.name (.snippet _ signature body r.sharing.1))
    fun r' b o => (Run.Aside.names b o).store r' _ _

/-- The steps of evaluation. -/
theorem steps : Steps (fun {_} x x' _ _ => Renames x x') Here.Aliased where
  beside := by
    rintro here _ ⟨template⟩
    exact ⟨rfl, rfl⟩
  escaped := by
    rintro here _ b ⟨template⟩
    exact .intro template
  pure := .pure
  throw _ _ _ := .throw rfl
  bind := .bind
  known := by
    rintro _ here _ name f f' t t' ⟨template⟩ hf
    refine look fun r _ h => ?_
    obtain ⟨-, -⟩ := h
    exact hf (r.get? here.env name)
  bindings := look fun r _ h => by
    obtain ⟨-, -⟩ := h
    exact .pure _
  sink := fun hf => look fun r _ h => by
    obtain ⟨-, -⟩ := h
    exact hf r.sink
  toSink _ := change fun _ _ _ => rfl
  print _ := change fun _ _ _ => rfl
  store name v := change fun r b o => (Run.Aside.names b o).store r name v
  place _ := change fun r b o => (Run.Aside.names b o).onFrame r _
  define run run' signature body hp := by
    have hdefine := define hp run signature body
    simp only [Stmt.exec] at hdefine ⊢
    exact hdefine
  frame := by
    rintro _ here here' line frame x x' t t' - hx
    exact inFrame here here' line frame hx
  load _ := change fun _ _ _ => rfl
  debug := look fun r _ h => by
    obtain ⟨-, -⟩ := h
    exact .pure _
  unlessInherited := fun hx => look fun r _ h => by
    obtain ⟨-, -⟩ := h
    show Renames (if r.parent.isSome || r.sink.discarding then _ else _)
      (if r.parent.isSome || r.sink.discarding then _ else _)
    split
    · exact .pure ()
    · exact hx

/-! ## Snippets, blocks and inclusion -/

theorem captured (sink : Sink) {x x' : Eval Unit} (hx : Renames x x') :
    Renames (captured sink x) (captured sink x') :=
  @Steps.captured (fun {_} x x' _ _ => Renames x x') _ steps sink x x' .none .none hx

section
variable (hrun : ∀ ⦃here here'⦄ body, here.Aliased here' → Renames (run here body) (run here' body))
  (hp : here.Aliased here')
include hrun hp

theorem snippet (line number : Nat) (signature : Signature) (body : List Stmt) (scope : Nat) (args : Arguments) :
    Renames (callSnippet run here line number signature body scope args)
      (callSnippet run here' line number signature body scope args) := by
  obtain ⟨template⟩ := hp
  refine .bind (steps.lift (.intro template) line _) fun bindings => look fun outer _ h => ?_
  obtain ⟨same, length⟩ := h
  refine .bind (.modify fun r _ h => ?_) fun _ => .bind (checkDepth _ _ line) fun _ => ?_
  · have hframes := h.change (g := fun r => { r with
      frames := [⟨bindings, none, .shared scope, none⟩], outerDepth := r.depth + snippetDepth }) fun _ _ _ => rfl
    exact hframes.withBlocks (.refl [])
  · refine .bind (captured .empty (hrun body (.intro _))) fun text => ?_
    refine .bind (.modify fun r _ h => ?_) fun _ => .pure (here.textValue text)
    have hback := h.change (g := fun r => { r with frames := outer.frames, outerDepth := outer.outerDepth }) fun _ _ _ => rfl
    exact hback.withBlocks same

theorem block (line : Nat) (name : String) :
    Renames (callBlock run here line name) (callBlock run here' line name) := by
  obtain ⟨template⟩ := hp
  refine look fun r _ h => ?_
  obtain ⟨same, -⟩ := h
  obtain ⟨hl, hl'⟩ | ⟨l, l', hl, hl', hsame⟩ := same.lookup name
  · simp only [Run.withNames, hl, hl']
    exact fail _ _ line _
  · have hdepth : l.depth = l'.depth := congrArg Prod.snd hsame
    simp only [Run.withNames, hl, hl', hdepth]
    obtain ⟨hb, hb'⟩ | ⟨own, own', body, hb, hb'⟩ := Layers.body_of_unnamed hsame l'.depth
    · simp only [hb, hb']
      exact fail _ _ line _
    · simp only [hb, hb']
      exact inFrame _ _ line .empty (hrun body (.intro own'))

theorem outer (line : Nat) : Renames (callSuper run here line) (callSuper run here' line) := by
  obtain ⟨template⟩ := hp
  unfold callSuper
  cases here.block with
  | none => exact fail _ _ line _
  | some name =>
    refine look fun r _ h => ?_
    obtain ⟨same, -⟩ := h
    obtain ⟨hl, hl'⟩ | ⟨l, l', hl, hl', hsame⟩ := same.lookup name
    · simp only [Run.withNames, hl, hl']
      exact fail _ _ line _
    · have hdepth : l.depth = l'.depth := congrArg Prod.snd hsame
      have hnext : Layers.unnamed { l with depth := l'.depth + 1 } = Layers.unnamed { l' with depth := l'.depth + 1 } :=
        congrArg (·, l'.depth + 1) (congrArg Prod.fst hsame)
      simp only [Run.withNames, hl, hl', hdepth]
      obtain ⟨hb, hb'⟩ | ⟨own, own', body, hb, hb'⟩ := Layers.body_of_unnamed hsame (l'.depth + 1)
      · simp only [hb, hb']
        exact fail _ _ line _
      · simp only [hb, hb']
        refine .bind (.modify fun r _ h => ?_) fun _ => ?_
        · obtain ⟨same, length⟩ := h
          exact .intro (same.insert name hnext) length
        · refine .bind (caught (inFrame _ _ line .empty (hrun body (.intro own'))) (fail _ _ line _)) fun _ => ?_
          refine .modify fun r _ h => ?_
          obtain ⟨same, length⟩ := h
          exact .intro (same.insert name hsame) length

theorem inclusion (line : Nat) (t : Template) :
    Renames (includeTemplate run here line t) (includeTemplate run here' line t) := by
  obtain ⟨template⟩ := hp
  refine look fun outer _ h => ?_
  obtain ⟨same, -⟩ := h
  refine .bind (.modify fun r r' h => ?_) fun _ => .bind (checkDepth _ _ line) fun _ => ?_
  · have hfresh := h.change
      (g := fun r => { r.onFrame (fun f => { f with shared := none }) with outerDepth := r.outerDepth + includeDepth })
      fun r b o => by rw [(Run.Aside.names b o).onFrame r]; rfl
    exact hfresh.withBlocks (.refl (addBlocks t []))
  · refine .bind (caught (hrun t.body (.intro _)) (fail _ _ line _)) fun _ => .modify fun r r' h => ?_
    have hback := h.change
      (g := fun r => { r.onFrame (fun f => { f with shared := outer.frames.head?.bind (·.shared) }) with
        inherited := outer.inherited, outerDepth := outer.outerDepth })
      fun r b o => by rw [(Run.Aside.names b o).onFrame r]; rfl
    exact hback.withBlocks same

end

theorem inherit (hp : here.Aliased here') (line : Nat) (v : Value) :
    Renames (inheritFrom here line v) (inheritFrom here' line v) := by
  obtain ⟨template⟩ := hp
  refine look fun r _ h => ?_
  obtain ⟨-, -⟩ := h
  show Renames (if r.parent.isSome then _ else _) (if r.parent.isSome then _ else _)
  split
  · exact fail _ _ line _
  · split
    · rename_i name safe
      refine look fun r _ h => ?_
      obtain ⟨-, -⟩ := h
      show Renames (if r.inherited.contains name then _ else _) (if r.inherited.contains name then _ else _)
      split
      · exact fail _ _ line _
      · refine .bind (steps.findTemplate (.intro template) line name) fun t => ?_
        split
        · exact fail _ _ line _
        · rename_i t
          refine .modify fun r _ h => ?_
          obtain ⟨same, length⟩ := h
          exact .intro (same.addBlocks rfl) length
    · exact fail _ _ line _

/-- The calls of filters are the same: what a filter is given has no names of templates. -/
theorem filter (hp : here.Aliased here') (run : Runner) (line : Nat) (name : String) (v : Value) (args : Arguments) :
    Renames (applyFilter run here line name v args) (applyFilter run here' line name v args) := by
  obtain ⟨template⟩ := hp
  cases hf : Table.get? here.env.filters name with
  | some f =>
    have hf' : Table.get? { here with template := template }.env.filters name = some f := hf
    intro r r' h
    obtain ⟨same, length⟩ := h
    rw [applyFilter_of_get? hf, applyFilter_of_get? hf']
    exact .ok _ (.intro same length)
  | none =>
    unfold applyFilter
    simp only [hf]
    cases standardFilter? name with
    | none => exact fail _ _ line _
    | some f => exact steps.lift (.intro template) line _

theorem congruence (run : Runner) (watch : Watch)
    (hrun : ∀ ⦃here here'⦄ body, here.Aliased here' → Renames (run here body) (run here' body)) :
    Congruence (fun {_} x x' _ _ => Renames x x') Here.Aliased True run run watch watch where
  toSteps := steps
  filter line name v args hp := filter hp run line name v args
  snippet line number signature body scope args hp := snippet hrun hp line number signature body scope args
  block line name hp := block hrun hp line name
  outer line hp := outer hrun hp line
  inherit line v _ hp := inherit hp line v
  inclusion line t hp := inclusion hrun hp line t

end Renames

/-! ## Levels -/

/-- An evaluator for which names of templates make no difference. -/
def Evaluator.Nameless (evaluate : Evaluator) : Prop :=
  ∀ ⦃here here'⦄ body, here.Aliased here' → Renames (evaluate here body) (evaluate here' body)

theorem evaluateAt_nameless (file : Evaluator) : ∀ n : Nat, Evaluator.Nameless (evaluateAt file n)
  | 0, _, _, _, _ => .throw rfl
  | n + 1, here, here', body, hp => by
    have hbelow := evaluateAt_nameless file n
    have hcongruence := Renames.congruence (.within file n) ⟨fun _ _ => .none, fun _ _ => .none⟩ hbelow
    have hbody := hcongruence.execAll hp body (.inl trivial)
    refine .look fun outer _ h => ?_
    obtain ⟨-, -⟩ := h
    refine .bind (.change fun _ _ _ => rfl) fun _ => .bind hbody fun _ => .look fun r r' h => ?_
    have hparent : r'.parent = r.parent := by
      obtain ⟨-, -⟩ := h
      rfl
    dsimp only
    rw [hparent]
    cases r.parent with
    | none => exact .change fun _ _ _ => rfl
    | some parent =>
      obtain ⟨template⟩ := hp
      exact .bind (.change fun _ _ _ => rfl) fun _ =>
        .bind (hbelow parent.2 (.intro parent.1)) fun _ => .change fun _ _ _ => rfl

/-- **Names of templates make no difference to a file**, however deep it is nested. -/
theorem evaluateFile_nameless : ∀ k : Nat, Evaluator.Nameless (evaluateFile k)
  | 0, _, _, _, _ => .throw rfl
  | k + 1, here, here', body, hp => by
    obtain ⟨template⟩ := hp
    exact evaluateAt_nameless (evaluateFile k) (levels here.env.scope.tree) body (.intro template)

theorem runner_file_nameless (n : Nat) : Evaluator.Nameless (runner n).file := by
  intro here here' body hp
  obtain ⟨template⟩ := hp
  exact evaluateFile_nameless (renders here.env.scope.tree) body (.intro template)

/-! ## Sources -/

/-- Under another name a source is the same template, or has a fault with the same cause. -/
theorem read_alias (name name' source : String) :
    (∃ f f', read name source = .error f ∧ read name' source = .error f' ∧ f'.cause = f.cause) ∨
    ∃ body blocks, read name source = .ok ⟨name, body, blocks⟩ ∧ read name' source = .ok ⟨name', body, blocks⟩ := by
  unfold read
  dsimp only
  split
  · exact .inr ⟨_, _, rfl, rfl⟩
  · exact .inl ⟨_, _, rfl, rfl, rfl⟩

/-- **A source comes to the same under every name in which HTML is escaped alike**: to the same text or to a fault with
the same cause, and the session is left the same. -/
theorem renderNamed_alias {evaluate : Evaluator} (he : evaluate.Nameless) {env : Environment} {name name' : String}
    (hescapes : env.escapes name = env.escapes name') (source : String) (context : Fields) (s : Session RenderStack) :
    (∃ text after, renderNamed evaluate env name source context s = (.ok text, after) ∧
      renderNamed evaluate env name' source context s = (.ok text, after)) ∨
    ∃ f f' after, renderNamed evaluate env name source context s = (.error f, after) ∧
      renderNamed evaluate env name' source context s = (.error f', after) ∧ f'.cause = f.cause := by
  unfold renderNamed
  obtain ⟨f, f', hf, hf', hcause⟩ | ⟨body, blocks, ht, ht'⟩ := read_alias name name' source
  · rw [hf, hf']
    exact .inr ⟨f, f', s, rfl, rfl, hcause⟩
  · rw [ht, ht']
    dsimp only
    have hstart : Renamed (.start ⟨name, body, blocks⟩ context s) (.start ⟨name', body, blocks⟩ context s) :=
      .intro ((SameBlocks.refl []).addBlocks rfl) rfl
    have hend := @he ⟨env, name, env.escapes name, none⟩ _ body (.intro name') _ _ hstart
    rw [← hescapes]
    dsimp only at hend
    generalize evaluate ⟨env, name, env.escapes name, none⟩ body _ = y at hend ⊢
    generalize evaluate ⟨env, name', env.escapes name, none⟩ body _ = y' at hend ⊢
    cases hend with
    | ok a renamed =>
      obtain ⟨-, -⟩ := renamed
      exact .inl ⟨_, _, rfl, rfl⟩
    | error cause renamed =>
      obtain ⟨-, -⟩ := renamed
      exact .inr ⟨_, _, _, rfl, rfl, cause⟩

end Folio.Template
