import Folio.Proofs.Template.Calls
/-!
# Relations across evaluation

Two evaluations of the same piece of template, in places that differ in their filters at most, go through the same steps,
also where different runners take them further.
So a relation between steps of evaluation that joins in sequence, and that holds of each step that looks at the run or
changes it (`Congruence`), holds of every expression and statement: one case for each kind of them (`Congruence.eval`,
`Congruence.exec`).  With the two evaluations the relation is told the filter calls that either of them makes.
-/
namespace Folio.Template

variable {α β : Type}

theorem Calls.andThen_none (t : Calls) (x : Eval α) : t.andThen x (fun _ => .none) = t := by
  funext r
  have hnone : Calls.after x (fun _ => .none) r = [] := by
    unfold Calls.after
    cases x r with
    | ok _ _ => rfl
    | error _ _ => rfl
  exact (congrArg (t r ++ ·) hnone).trans (List.append_nil _)

/-- Two places that differ in their filters, in their blocks and in the template they are in at most. -/
structure Here.Beside (here here' : Here) : Prop where
  escaping : here'.escaping = here.escaping
  env : here'.env = { here.env with filters := here'.env.filters }

mutual
/-- No tag of the statement makes its template inherit from another one. -/
def Stmt.Stays : Stmt → Prop
  | .inherit _ _ => False
  | .loop _ _ _ _ _ body otherwise => Stmt.StayAll body ∧ Stmt.StayAll otherwise
  | .choose _ yes no => Stmt.StayAll yes ∧ Stmt.StayAll no
  | .scoped _ body | .capture _ _ _ body | .filtered _ body | .escaped _ body | .define _ _ body => Stmt.StayAll body
  | _ => True
termination_by structural s => s

def Stmt.StayAll : List Stmt → Prop
  | [] => True
  | s :: ss => s.Stays ∧ Stmt.StayAll ss
termination_by structural ss => ss
end

/-- A relation between steps of evaluation, at places that are paired, that joins in sequence and holds of the steps that
look at the run or change it. -/
structure Steps (Rel : ∀ {α : Type}, Eval α → Eval α → Calls → Calls → Prop) (Pair : Here → Here → Prop) : Prop where
  beside : ∀ {here here'}, Pair here here' → here.Beside here'
  escaped : ∀ {here here'} b, Pair here here' → Pair { here with escaping := b } { here' with escaping := b }
  pure : ∀ {α : Type} (a : α), Rel (pure a) (pure a) .none .none
  throw : ∀ {α : Type} {here here'} line (f : Fault), Pair here here' →
    Rel (throw (f.placed ⟨here.template, line⟩) : Eval α) (throw (f.placed ⟨here'.template, line⟩)) .none .none
  bind : ∀ {α β : Type} {x x' : Eval α} {f f' : α → Eval β} {t t' k k'}, Rel x x' t t' →
    (∀ a, Rel (f a) (f' a) (k a) (k' a)) → Rel (x >>= f) (x' >>= f') (t.andThen x k) (t'.andThen x' k')
  known : ∀ {α : Type} {here here'} name {f f' : Option Value → Eval α} {t t' : Option Value → Calls}, Pair here here' →
    (∀ v, Rel (f v) (f' v) (t v) (t' v)) →
    Rel (get >>= fun r => f (r.get? here.env name)) (get >>= fun r => f' (r.get? here'.env name))
      (fun r => t (r.get? here.env name) r) (fun r => t' (r.get? here'.env name) r)
  bindings : Rel (get >>= fun r => Pure.pure ((r.frames.head?.map (·.bindings)).getD []))
    (get >>= fun r => Pure.pure ((r.frames.head?.map (·.bindings)).getD [])) .none .none
  sink : ∀ {α : Type} {f f' : Sink → Eval α} {t t' : Sink → Calls}, (∀ s, Rel (f s) (f' s) (t s) (t' s)) →
    Rel (get >>= fun r => f r.sink) (get >>= fun r => f' r.sink) (fun r => t r.sink r) (fun r => t' r.sink r)
  toSink : ∀ s, Rel (modify fun r => { r with sink := s }) (modify fun r => { r with sink := s }) .none .none
  print : ∀ text, Rel (print text) (print text) .none .none
  store : ∀ name v, Rel (modify fun r => r.store name v) (modify fun r => r.store name v) .none .none
  place : ∀ v, Rel (modify fun r => r.onFrame fun f => { f with loop := some v })
    (modify fun r => r.onFrame fun f => { f with loop := some v }) .none .none
  define : ∀ {here here'} run run' signature body, Pair here here' →
    Rel ((Stmt.define 0 signature body).exec run here) ((Stmt.define 0 signature body).exec run' here') .none .none
  frame : ∀ {α : Type} {here here'} line frame {x x' : Eval α} {t t'}, Pair here here' → Rel x x' t t' →
    Rel (inFrame here line frame x) (inFrame here' line frame x') (.inFrame here line frame t)
      (.inFrame here' line frame t')
  load : ∀ name, Rel (modify fun r => { r with session := r.session.load name })
    (modify fun r => { r with session := r.session.load name }) .none .none
  debug : Rel loadedNames loadedNames .debug .debug
  unlessInherited : ∀ {x x' : Eval Unit} {t t'}, Rel x x' t t' →
    Rel (get >>= fun r => if r.parent.isSome || r.sink.discarding then Pure.pure () else x)
      (get >>= fun r => if r.parent.isSome || r.sink.discarding then Pure.pure () else x')
      (fun r => if r.parent.isSome || r.sink.discarding then [] else t r)
      (fun r => if r.parent.isSome || r.sink.discarding then [] else t' r)

/-- Such a relation that holds also of the steps that leave the piece of template at hand: to a filter, a snippet, a
block, another template, each evaluation with its own runner.  If it is not open to inheritance it is asked about
statements that stay in their template only. -/
structure Congruence (Rel : ∀ {α : Type}, Eval α → Eval α → Calls → Calls → Prop) (Pair : Here → Here → Prop)
    (isOpen : Prop) (run run' : Runner) (watch watch' : Watch) : Prop extends Steps Rel Pair where
  filter : ∀ {here here'} line name v args, Pair here here' →
    Rel (applyFilter run here line name v args) (applyFilter run' here' line name v args)
      (.ofFilter run watch here name v args) (.ofFilter run' watch' here' name v args)
  snippet : ∀ {here here'} line number signature body scope args, Pair here here' →
    Rel (callSnippet run here line number signature body scope args)
      (callSnippet run' here' line number signature body scope args)
      (.ofSnippet watch here line number signature body scope args)
      (.ofSnippet watch' here' line number signature body scope args)
  block : ∀ {here here'} line name, Pair here here' →
    Rel (callBlock run here line name) (callBlock run' here' line name) (.ofBlock watch here line name)
      (.ofBlock watch' here' line name)
  outer : ∀ {here here'} line, Pair here here' →
    Rel (callSuper run here line) (callSuper run' here' line) (.ofSuper watch here line) (.ofSuper watch' here' line)
  inherit : ∀ {here here'} line v, isOpen → Pair here here' →
    Rel (inheritFrom here line v) (inheritFrom here' line v) .none .none
  inclusion : ∀ {here here'} line t, Pair here here' →
    Rel (includeTemplate run here line t) (includeTemplate run' here' line t) (.ofTemplate watch here line t)
      (.ofTemplate watch' here' line t)

namespace Steps

variable {Rel : ∀ {α : Type}, Eval α → Eval α → Calls → Calls → Prop} {Pair : Here → Here → Prop} {here here' : Here}
  (h : Steps Rel Pair) (hp : Pair here here')
include h

/-! ## Steps in sequence -/

/-- A step without calls, and what goes on with its value. -/
theorem quietly {x x' : Eval α} {f f' : α → Eval β} {k k' : α → Calls} (hx : Rel x x' .none .none)
    (hf : ∀ a, Rel (f a) (f' a) (k a) (k' a)) : Rel (x >>= f) (x' >>= f') (.after x k) (.after x' k') :=
  h.bind hx hf

/-- A step, and what goes on with its value without calls. -/
theorem andQuietly {x x' : Eval α} {f f' : α → Eval β} {t t' : Calls} (hx : Rel x x' t t')
    (hf : ∀ a, Rel (f a) (f' a) .none .none) : Rel (x >>= f) (x' >>= f') t t' := by
  have hb := h.bind hx hf
  rw [Calls.andThen_none, Calls.andThen_none] at hb
  exact hb

theorem captured (s : Sink) {x x' : Eval Unit} {t t' : Calls} (hx : Rel x x' t t') :
    Rel (captured s x) (captured s x') (.captured s t) (.captured s t') := by
  -- What to do with the sink that was there before.
  have hstep : ∀ outer : Sink, Rel
      (modify (fun r => { r with sink := s }) >>= fun _ => x >>= fun _ => get >>= fun r =>
        modify (fun r => { r with sink := outer }) >>= fun _ => Pure.pure r.sink.text)
      (modify (fun r => { r with sink := s }) >>= fun _ => x' >>= fun _ => get >>= fun r =>
        modify (fun r => { r with sink := outer }) >>= fun _ => Pure.pure r.sink.text)
      (.captured s t) (.captured s t') := fun outer =>
    h.quietly (h.toSink s) fun _ => h.andQuietly hx fun _ =>
      h.sink fun inner => h.andQuietly (h.toSink outer) fun _ => h.pure inner.text
  exact h.sink hstep

/-- What imports print is lost, and then the sink is as before. -/
theorem discarding {x x' : Eval Unit} {t t' : Calls} (hx : Rel x x' t t') :
    Rel (get >>= fun r => modify (fun r => { r with sink := ⟨[], true⟩ }) >>= fun _ => x >>= fun _ =>
        modify fun s => { s with sink := r.sink })
      (get >>= fun r => modify (fun r => { r with sink := ⟨[], true⟩ }) >>= fun _ => x' >>= fun _ =>
        modify fun s => { s with sink := r.sink }) (.captured ⟨[], true⟩ t) (.captured ⟨[], true⟩ t') := by
  have hstep : ∀ outer : Sink, Rel
      (modify (fun r => { r with sink := ⟨[], true⟩ }) >>= fun _ => x >>= fun _ => modify fun s => { s with sink := outer })
      (modify (fun r => { r with sink := ⟨[], true⟩ }) >>= fun _ => x' >>= fun _ => modify fun s => { s with sink := outer })
      (.captured ⟨[], true⟩ t) (.captured ⟨[], true⟩ t') := fun outer =>
    h.quietly (h.toSink _) fun _ => h.andQuietly hx fun _ => h.toSink outer
  exact h.sink hstep

include hp

theorem fail (line : Nat) (cause : Cause) : Rel (here.fail line cause : Eval α) (here'.fail line cause) .none .none :=
  h.throw line ⟨cause, none⟩ hp

theorem lift (line : Nat) : ∀ x : Except Cause α, Rel (here.lift line x) (here'.lift line x) .none .none
  | .ok a => h.pure a
  | .error cause => h.fail hp line cause

theorem locate (line : Nat) (name : String) :
    Rel (here.locate line (here.env.template name)) (here'.locate line (here'.env.template name)) .none .none := by
  have hsame : here'.env.template name = here.env.template name := by
    rw [(h.beside hp).env]
    rfl
  rw [hsame]
  cases here.env.template name with
  | ok t => exact h.pure t
  | error f => exact h.throw line f hp

theorem findTemplate (line : Nat) (name : String) :
    Rel (findTemplate here line name) (findTemplate here' line name) .none .none := by
  refine h.andQuietly (h.locate hp line name) fun t => ?_
  cases t with
  | none => exact h.pure _
  | some t => exact h.andQuietly (h.load name) fun _ => h.pure _

/-! ## Functions -/

theorem callStandard (line : Nat) (name : String) (args : Arguments) :
    Rel (callStandard here line name args) (callStandard here' line name args) (.ofStandard name) (.ofStandard name) := by
  unfold Template.callStandard Calls.ofStandard
  cases standardFunction? name with
  | none => exact h.fail hp line _
  | some f =>
    cases f with
    | pure f => exact h.lift hp line _
    | debug => exact h.andQuietly h.debug fun _ => h.pure _

theorem callFunction (line : Nat) (name : String) (args : Arguments) :
    Rel (callFunction here line name args) (callFunction here' line name args) (.ofFunction here name)
      (.ofFunction here' name) := by
  have htags : here'.env.tags = here.env.tags := by rw [(h.beside hp).env]
  unfold Template.callFunction Calls.ofFunction
  rw [htags]
  cases Table.get? here.env.tags name with
  | none => exact h.callStandard hp line name args
  | some tag =>
    cases tag with
    | global d => exact h.callStandard hp line name args
    | function f =>
      dsimp only
      cases f args.flat with
      | ok v => exact h.pure v
      | error failure => exact h.fail hp line _

/-! ## Output -/

theorem emit (v : Value) : Rel (here.emit v) (here'.emit v) .none .none := by
  unfold Here.emit
  rw [(h.beside hp).escaping]
  exact h.print _

theorem textValue_eq (s : String) : here'.textValue s = here.textValue s := by
  unfold Here.textValue
  rw [(h.beside hp).escaping]

theorem lookup (name : String) : Rel (lookup here name) (lookup here' name) .none .none :=
  have hvalue : ∀ v : Option Value, Rel (Pure.pure (v.getD .undefined)) (Pure.pure (v.getD .undefined)) .none .none :=
    fun _ => h.pure _
  h.known name hp hvalue

/-! ## Assignments and items -/

-- The targets of a list need the pair through the single targets only.
set_option linter.unusedSectionVars false in
mutual
theorem assignTo (line : Nat) : ∀ (t : Target) (v : Value),
    Rel (assignTo here line t v) (assignTo here' line t v) .none .none
  | .name name, v => by
    simp only [Template.assignTo]
    exact h.store name v
  | .list targets, v => by
    cases v with
    | list vs =>
      simp only [Template.assignTo]
      split
      · exact assignAll line targets vs
      · exact h.fail hp line _
    | map es =>
      simp only [Template.assignTo]
      split
      · exact assignAll line targets _
      · exact h.fail hp line _
    | _ =>
      simp only [Template.assignTo]
      exact h.fail hp line _

theorem assignAll (line : Nat) : ∀ (ts : List Target) (vs : List Value),
    Rel (assignAll here line ts vs) (assignAll here' line ts vs) .none .none
  | [], _ => by
    simp only [Template.assignAll]
    exact h.pure ()
  | t :: ts, [] => by
    simp only [Template.assignAll]
    exact h.pure ()
  | t :: ts, v :: vs => by
    simp only [Template.assignAll]
    exact h.andQuietly (assignTo line t v) fun _ => assignAll line ts vs
end

omit hp in
theorem eachItem {f f' : Nat → Option Value → Value → Option Value → Eval Unit}
    {t t' : Nat → Option Value → Value → Option Value → Calls}
    (hf : ∀ index previous v following, Rel (f index previous v following) (f' index previous v following)
      (t index previous v following) (t' index previous v following)) :
    ∀ (vs : List Value) (index : Nat) (previous : Option Value),
      Rel (eachItem f index previous vs) (eachItem f' index previous vs) (.ofEach f t index previous vs)
        (.ofEach f' t' index previous vs)
  | [], _, _ => h.pure ()
  | v :: vs, index, previous =>
    h.bind (hf index previous v vs.head?) fun _ => eachItem hf vs (index + 1) (some v)

omit hp in
theorem assignNames (exports : Variables) : ∀ names : List (String × String),
    Rel (assignNames exports names) (assignNames exports names) .none .none
  | [] => h.pure ()
  | (_, given) :: rest => h.andQuietly (h.store given _) fun _ => assignNames exports rest

end Steps

namespace Congruence

variable {Rel : ∀ {α : Type}, Eval α → Eval α → Calls → Calls → Prop} {Pair : Here → Here → Prop} {isOpen : Prop}
  {run run' : Runner} {watch watch' : Watch} {here here' : Here} (h : Congruence Rel Pair isOpen run run' watch watch')
  (hp : Pair here here')
include h hp

/-! ## Calls and inclusion -/

theorem callValue (line : Nat) (callee : Value) (args : Arguments) :
    Rel (callValue run here line callee args) (callValue run' here' line callee args)
      (.ofValue watch here line callee args) (.ofValue watch' here' line callee args) := by
  unfold Template.callValue
  cases callee with
  | function name text => exact h.callFunction hp line name args
  | snippet number signature body scope => exact h.snippet line number signature body scope args hp
  | _ => exact h.fail hp line _

theorem callMethod (line : Nat) (v : Value) (name : String) (args : Arguments) :
    Rel (callMethod run here line v name args) (callMethod run' here' line v name args)
      (.ofMethod watch here line v name args) (.ofMethod watch' here' line v name args) := by
  cases v with
  | loop index count previous following =>
    unfold Template.callMethod
    split
    · exact h.pure _
    · rename_i hmap
      cases hmap
    · exact h.fail hp line _
  | map entries =>
    simp only [Template.callMethod, Calls.ofMethod]
    cases Value.valueAt? entries (.plain name) with
    | some callee => exact h.callValue hp line callee args
    | none => exact h.fail hp line _
  | _ => exact h.fail hp line _

theorem callName (line : Nat) (name : String) (args : Arguments) :
    Rel (callName run here line name args) (callName run' here' line name args)
      (.ofName watch here line name args) (.ofName watch' here' line name args) := by
  unfold Template.callName Calls.ofName
  split
  · split
    · exact h.fail hp line _
    · refine h.andQuietly (h.captured .empty (h.outer line hp)) fun text => ?_
      rw [h.textValue_eq hp]
      exact h.pure _
  · split
    · split
      · exact h.fail hp line _
      · exact h.fail hp line _
    · have hcallee : ∀ callee : Option Value, Rel
          (callee.elim (here.fail line (.unknownFunction name)) fun v => Template.callValue run here line v args)
          (callee.elim (here'.fail line (.unknownFunction name)) fun v => Template.callValue run' here' line v args)
          (callee.elim .none fun v => Calls.ofValue watch here line v args)
          (callee.elim .none fun v => Calls.ofValue watch' here' line v args) := by
        intro callee
        cases callee with
        | some v => exact h.callValue hp line v args
        | none => exact h.fail hp line _
      have hname := h.known name hp hcallee
      refine Eq.mp (congr (congr (congr (congrArg _ ?_) ?_) ?_) ?_) hname
      · refine congrArg (get >>= ·) (funext fun r => ?_)
        cases r.get? here.env name <;> rfl
      · refine congrArg (get >>= ·) (funext fun r => ?_)
        cases r.get? here'.env name <;> rfl
      · funext r
        cases r.get? here.env name <;> rfl
      · funext r
        cases r.get? here'.env name <;> rfl

theorem includeFirst (line : Nat) (ignoreMissing : Bool) : ∀ vs tried : List Value,
    Rel (includeFirst run here line ignoreMissing tried vs) (includeFirst run' here' line ignoreMissing tried vs)
      (.ofFirst watch here line vs) (.ofFirst watch' here' line vs)
  | [], tried => by
    unfold Template.includeFirst
    split
    · exact h.pure ()
    · split
      · exact h.fail hp line _
      · exact h.fail hp line _
  | v :: vs, tried => by
    cases v with
    | text name safe =>
      unfold Template.includeFirst
      refine h.quietly (h.findTemplate hp line name) fun t => ?_
      cases t with
      | some t => exact h.inclusion line t hp
      | none => exact includeFirst line ignoreMissing vs _
    | _ => exact h.fail hp line _

theorem includeAny (line : Nat) (ignoreMissing : Bool) (v : Value) :
    Rel (includeAny run here line ignoreMissing v) (includeAny run' here' line ignoreMissing v)
      (.ofInclusion watch here line v) (.ofInclusion watch' here' line v) :=
  h.includeFirst hp line ignoreMissing _ []

/-! ## Expressions -/

-- The parts of an expression need the pair through the expression only.
set_option linter.unusedSectionVars false in
mutual
theorem eval : ∀ e : Expr,
    Rel (e.eval run here) (e.eval run' here') (e.calls run watch here) (e.calls run' watch' here')
  | .constant _ c => by
    simp only [Expr.eval, Expr.calls]
    exact h.pure c.value
  | .variable _ name => by
    simp only [Expr.eval, Expr.calls]
    exact h.lookup hp name
  | .negate line e => by
    simp only [Expr.eval, Expr.calls]
    exact h.andQuietly (eval e) fun v => h.lift hp line v.negate
  | .not _ e => by
    simp only [Expr.eval, Expr.calls]
    exact h.andQuietly (eval e) fun _ => h.pure _
  | .and _ left right => by
    simp only [Expr.eval, Expr.calls]
    refine h.bind (eval left) fun v => ?_
    split
    · exact eval right
    · exact h.pure v
  | .or _ left right => by
    simp only [Expr.eval, Expr.calls]
    refine h.bind (eval left) fun v => ?_
    split
    · exact h.pure v
    · exact eval right
  | .binary line op left right => by
    simp only [Expr.eval, Expr.calls]
    exact h.bind (eval left) fun _ => h.andQuietly (eval right) fun _ => h.lift hp line _
  | .choose _ condition yes no => by
    simp only [Expr.eval, Expr.calls]
    refine h.bind (eval condition) fun v => ?_
    split
    · exact eval yes
    · exact evalOption .undefined no
  | .filter line name subject args => by
    simp only [Expr.eval, Expr.calls]
    exact h.bind (eval subject) fun v => h.bind (evalArgs args _) fun args => h.filter line name v args hp
  | .test line name subject args => by
    simp only [Expr.eval, Expr.calls]
    refine h.bind (eval subject) fun v => ?_
    refine h.andQuietly (evalArgs args _) fun args => ?_
    split
    · exact h.andQuietly (h.lift hp line _) fun _ => h.pure _
    · exact h.fail hp line _
  | .attribute line e name => by
    simp only [Expr.eval, Expr.calls]
    exact h.andQuietly (eval e) fun _ => h.lift hp line _
  | .item line e index => by
    simp only [Expr.eval, Expr.calls]
    exact h.bind (eval e) fun _ => h.andQuietly (eval index) fun _ => h.lift hp line _
  | .slice line e start stop step => by
    simp only [Expr.eval, Expr.calls]
    exact h.bind (eval e) fun _ =>
      h.bind (evalOption .none start) fun _ =>
      h.bind (evalOption .none stop) fun _ =>
      h.andQuietly (evalOption .none step) fun _ => h.lift hp line _
  | .call line callee args => by
    cases callee with
    | «variable» _ name =>
      simp only [Expr.eval, Expr.calls]
      exact h.bind (evalArgs args _) fun args => h.callName hp line name args
    | «attribute» _ e name =>
      simp only [Expr.eval, Expr.calls]
      split
      · refine h.andQuietly (h.captured .empty (h.block line name hp)) fun text => ?_
        rw [h.textValue_eq hp]
        exact h.pure _
      · exact h.bind (eval e) fun v => h.bind (evalArgs args _) fun args => h.callMethod hp line v name args
    | _ => exact h.bind (eval _) fun v => h.bind (evalArgs args _) fun args => h.callValue hp line v args
  | .list _ items => by
    simp only [Expr.eval, Expr.calls]
    exact h.andQuietly (evalAll items) fun _ => h.pure _
  | .map _ entries => by
    simp only [Expr.eval, Expr.calls]
    exact h.andQuietly (evalEntries entries) fun _ => h.pure _

theorem evalOption (otherwise : Value) : ∀ e : Option Expr,
    Rel (Expr.evalOption run here otherwise e) (Expr.evalOption run' here' otherwise e)
      (Expr.callsOption run watch here e) (Expr.callsOption run' watch' here' e)
  | none => by
    simp only [Expr.evalOption, Expr.callsOption]
    exact h.pure otherwise
  | some e => by
    simp only [Expr.evalOption, Expr.callsOption]
    exact eval e

theorem evalAll : ∀ es : List Expr,
    Rel (Expr.evalAll run here es) (Expr.evalAll run' here' es) (Expr.callsAll run watch here es)
      (Expr.callsAll run' watch' here' es)
  | [] => by
    simp only [Expr.evalAll, Expr.callsAll]
    exact h.pure []
  | e :: es => by
    simp only [Expr.evalAll, Expr.callsAll]
    exact h.bind (eval e) fun _ => h.andQuietly (evalAll es) fun _ => h.pure _

theorem evalEntries : ∀ es : List (Expr × Expr),
    Rel (Expr.evalEntries run here es) (Expr.evalEntries run' here' es) (Expr.callsEntries run watch here es)
      (Expr.callsEntries run' watch' here' es)
  | [] => by
    simp only [Expr.evalEntries, Expr.callsEntries]
    exact h.pure []
  | (key, e) :: es => by
    simp only [Expr.evalEntries, Expr.callsEntries]
    exact h.bind (eval key) fun _ => h.bind (eval e) fun _ => h.andQuietly (evalEntries es) fun _ => h.pure _

theorem evalArgs : ∀ (args : List Arg) (done : Arguments),
    Rel (Arg.evalAll run here done args) (Arg.evalAll run' here' done args) (Arg.calls run watch here done args)
      (Arg.calls run' watch' here' done args)
  | [], done => by
    simp only [Arg.evalAll, Arg.calls]
    exact h.pure done
  | .positional e :: args, _ => by
    simp only [Arg.evalAll, Arg.calls]
    exact h.bind (eval e) fun _ => evalArgs args _
  | .named name e :: args, _ => by
    simp only [Arg.evalAll, Arg.calls]
    exact h.bind (eval e) fun _ => evalArgs args _
end

/-! ## Chains of filters, loops and imports -/

theorem applyFilters : ∀ (calls : List FilterCall) (v : Value),
    Rel (applyFilters run here calls v) (applyFilters run' here' calls v) (.ofChain run watch here calls v)
      (.ofChain run' watch' here' calls v)
  | [], v => h.pure v
  | call :: calls, v =>
    h.bind (h.evalArgs hp call.args _) fun args =>
    h.bind (h.filter call.line call.name v args hp) fun w => applyFilters calls w

theorem assignEach : ∀ assignments : List (Target × Expr),
    Rel (assignEach run here assignments) (assignEach run' here' assignments)
      (.ofAssignments run watch here assignments) (.ofAssignments run' watch' here' assignments)
  | [] => h.pure ()
  | (t, e) :: rest =>
    h.bind (h.eval hp e) fun v => h.quietly (h.assignTo hp e.line t v) fun _ => assignEach rest

theorem keptItems (line : Nat) (target : Target) (condition : Expr) : ∀ vs : List Value,
    Rel (keptItems run here line target condition vs) (keptItems run' here' line target condition vs)
      (.ofKept run watch here line target condition vs) (.ofKept run' watch' here' line target condition vs)
  | [] => h.pure []
  | v :: vs =>
    h.quietly (h.assignTo hp line target v) fun _ =>
    h.bind (h.eval hp condition) fun _ =>
    h.andQuietly (keptItems line target condition vs) fun _ => h.pure _

theorem loopItems (line : Nat) (target : Target) (source : Expr) (condition : Option Expr) :
    Rel (loopItems run here line target source condition) (loopItems run' here' line target source condition)
      (.ofItems run watch here line target source condition)
      (.ofItems run' watch' here' line target source condition) := by
  refine h.bind (h.eval hp source) fun v => ?_
  cases v.items? with
  | none => exact h.fail hp line _
  | some items =>
    cases condition with
    | none => exact h.pure items
    | some condition => exact h.frame line .empty hp (h.keptItems hp line target condition items)

theorem exported (line : Nat) (name : Expr) :
    Rel (exported run here line name) (exported run' here' line name) (.ofExport run watch here line name)
      (.ofExport run' watch' here' line name) :=
  h.frame line .empty hp <|
    h.bind (h.eval hp name) fun v => h.andQuietly (h.includeAny hp line false v) fun _ => h.bindings

/-! ## Statements -/

omit hp

mutual
theorem exec : ∀ {here here' : Here}, Pair here here' → ∀ s : Stmt, isOpen ∨ s.Stays →
    Rel (s.exec run here) (s.exec run' here') (s.calls run watch here)
      (s.calls run' watch' here')
  | _, _, _, .plain text, _ => by
    simp only [Stmt.exec, Stmt.calls]
    exact h.print text
  | _, _, hp, .emit _ e, _ => by
    simp only [Stmt.exec, Stmt.calls]
    exact h.andQuietly (h.eval hp e) fun v => h.emit hp v
  | _, _, hp, .loop line target source condition _ body otherwise, hs => by
    simp only [Stmt.Stays, or_and_left] at hs
    simp only [Stmt.exec, Stmt.calls]
    refine h.bind (h.loopItems hp line target source condition) fun items => ?_
    refine h.bind (h.frame line .empty hp (h.eachItem ?_ items 0 none)) fun _ => ?_
    · intro index previous v following
      exact h.quietly (h.place _) fun _ => h.quietly (h.assignTo hp line target v) fun _ => execAll hp body hs.1
    · split
      · exact execAll hp otherwise hs.2
      · exact h.pure _
  | _, _, hp, .choose condition yes no, hs => by
    simp only [Stmt.Stays, or_and_left] at hs
    simp only [Stmt.exec, Stmt.calls]
    refine h.bind (h.eval hp condition) fun v => ?_
    split
    · exact execAll hp yes hs.1
    · exact execAll hp no hs.2
  | _, _, hp, .scoped values body, hs => by
    simp only [Stmt.exec, Stmt.calls]
    exact h.frame _ .empty hp <| h.bind (h.assignEach hp values) fun _ => execAll hp body hs
  | _, _, hp, .assign line target e, _ => by
    simp only [Stmt.exec, Stmt.calls]
    exact h.andQuietly (h.eval hp e) fun v => h.assignTo hp line target v
  | _, _, hp, .capture line target filters body, hs => by
    simp only [Stmt.exec, Stmt.calls]
    refine h.bind (h.captured .empty (execAll hp body hs)) fun text => ?_
    rw [h.textValue_eq hp]
    exact h.andQuietly (h.applyFilters hp filters _) fun v => h.assignTo hp line target v
  | _, _, hp, .block line name, _ => by
    simp only [Stmt.exec, Stmt.calls]
    exact h.unlessInherited (h.block line name hp)
  | _, _, hp, .inherit line parent, hs => by
    simp only [Stmt.exec, Stmt.calls]
    have hopen : isOpen := hs.resolve_right fun hstays => hstays
    exact h.andQuietly (h.eval hp parent) fun v => h.inherit line v hopen hp
  | _, _, hp, .include line name ignoreMissing, _ => by
    simp only [Stmt.exec, Stmt.calls]
    exact h.bind (h.eval hp name) fun v => h.includeAny hp line ignoreMissing v
  | _, _, hp, .importAs line name target, _ => by
    simp only [Stmt.exec, Stmt.calls]
    have himport := h.andQuietly (h.exported hp line name) fun exports =>
      h.assignTo hp line target (.ofEntries (exports.map fun e => (.plain e.1, e.2)))
    have hlost := h.discarding himport
    simp only [bind_assoc] at hlost
    exact hlost
  | _, _, hp, .importNames line name names, _ => by
    simp only [Stmt.exec, Stmt.calls]
    have himport := h.andQuietly (h.exported hp line name) fun exports => h.assignNames exports names
    have hlost := h.discarding himport
    simp only [bind_assoc] at hlost
    exact hlost
  | _, _, hp, .define line signature body, _ => by
    simp only [Stmt.calls]
    have hdefine := h.define run run' signature body hp
    simp only [Stmt.exec] at hdefine ⊢
    exact hdefine
  | _, _, hp, .filtered filters body, hs => by
    simp only [Stmt.exec, Stmt.calls]
    refine h.bind (h.captured .empty (execAll hp body hs)) fun text => ?_
    rw [h.textValue_eq hp]
    exact h.andQuietly (h.applyFilters hp filters _) fun v => h.emit hp v
  | _, _, hp, .escaped mode body, hs => by
    simp only [Stmt.exec, Stmt.calls]
    exact h.bind (h.eval hp mode) fun v => execAll (h.escaped v.isTrue hp) body hs
  | _, _, hp, .evaluate _ e, _ => by
    simp only [Stmt.exec, Stmt.calls]
    exact h.andQuietly (h.eval hp e) fun _ => h.pure ()

theorem execAll : ∀ {here here' : Here}, Pair here here' → ∀ ss : List Stmt, isOpen ∨ Stmt.StayAll ss →
    Rel (Stmt.execAll run here ss) (Stmt.execAll run' here' ss) (Stmt.callsAll run watch here ss)
      (Stmt.callsAll run' watch' here' ss)
  | _, _, _, [], _ => by
    simp only [Stmt.execAll, Stmt.callsAll]
    exact h.pure ()
  | _, _, hp, s :: ss, hs => by
    simp only [Stmt.StayAll, or_and_left] at hs
    simp only [Stmt.execAll, Stmt.callsAll]
    exact h.bind (exec hp s hs.1) fun _ => execAll hp ss hs.2
end

end Congruence
end Folio.Template
