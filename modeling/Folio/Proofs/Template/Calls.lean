import Folio.Template.Render
/-!
# The calls of an evaluation

Which calls of filters of the registry an evaluation makes, in the order in which they come out, with what they answered,
and where between them it asks for the state of the engine.  The calls follow the structure of templates as evaluation does.
They are gathered along the steps of evaluation and not read off the session, so a step that were to take the session back to
an earlier one would not take the calls back.  A call inside of a file that the filter `render` renders stands before the
call of `render` itself.
-/
namespace Folio.Template

/-- A call of a filter of the registry: its arguments, the value that it was applied to first. -/
structure Call where
  name : String
  args : List Value
  answer : Except Failure Value
  /-- The file that the run was rendering. -/
  path : Option Path

/-- The report of a call that failed. -/
def Call.report? (c : Call) : Option Report :=
  match c.answer with
  | .ok _ => none
  | .error f => some ⟨.filter, c.name ++ ": " ++ f.message, c.path⟩

/-- A call of a filter of the registry, or of the function `debug`. -/
inductive Event where
  | filter (call : Call)
  | debug

def Event.call? : Event → Option Call
  | .filter c => some c
  | .debug => none

def Event.report? (e : Event) : Option Report := e.call?.bind Call.report?

instance (events : List Event) : Decidable (.debug ∈ events) := by
  refine decidable_of_iff ((events.any fun e => e.call?.isNone) = true) ?_
  rw [List.any_eq_true]
  constructor
  · rintro ⟨e, he, hnone⟩
    cases e with
    | filter c => cases hnone
    | debug => exact he
  · exact fun h => ⟨.debug, h, rfl⟩

/-- The calls of a step of evaluation, by the run in which it starts. -/
abbrev Calls := Run → List Event

/-- The calls of statements at a place, beside what evaluates them. -/
abbrev Watcher := Here → List Stmt → Calls

/-- The calls of statements at other places of a render and of those of files, beside a runner. -/
structure Watch where
  watch : Watcher
  file : Watcher

instance : CoeFun Watch fun _ => Watcher := ⟨Watch.watch⟩

namespace Calls

variable {α : Type}

def none : Calls := fun _ => []

/-- The calls that go on with the value of a step. -/
def after (x : Eval α) (k : α → Calls) : Calls := fun r =>
  match x r with
  | .ok a r => k a r
  | .error _ _ => []

/-- The calls of a step, and then those that go on with its value. -/
def andThen (t : Calls) (x : Eval α) (k : α → Calls) : Calls := fun r => t r ++ after x k r

def captured (sink : Sink) (t : Calls) : Calls := fun r => t { r with sink := sink }

def inFrame (here : Here) (line : Nat) (frame : Frame) (t : Calls) : Calls :=
  after (checkDepth here line) fun _ r => t { r with frames := frame :: r.frames }

/-- The calls of one step for every item. -/
def ofEach (f : Nat → Option Value → Value → Option Value → Eval Unit)
    (t : Nat → Option Value → Value → Option Value → Calls) (index : Nat) (previous : Option Value) :
    List Value → Calls
  | [] => none
  | v :: vs => (t index previous v vs.head?).andThen (f index previous v vs.head?) fun _ =>
    ofEach f t (index + 1) (some v) vs

section
variable (run : Runner) (watch : Watch)

/-! ## Filters -/

/-- The calls in the render of a source under a name. -/
def ofSource (watcher : Watcher) (env : Environment) (name source : String) (context : Fields)
    (session : Session RenderStack) : List Event :=
  match read name source with
  | .error _ => []
  | .ok t => watcher ⟨env, name, env.escapes name, .none⟩ t.body (.start t context session)

/-- The calls in a file that the filter `render` renders. -/
def ofFile (env : Environment) (v : Value) (session : Session RenderStack) : List Event :=
  match pathText v with
  | .error _ => []
  | .ok name =>
    let path := Path.ofText name
    match env.scope.readMatter path with
    | .error _ => []
    | .ok matter =>
      match env.scope.enter path session with
      | .error _ => []
      | .ok session =>
        match if env.scope.isHtml path then .ok matter.body else env.scope.markdown matter.body with
        | .error _ => []
        | .ok source => ofSource watch.file env name source matter.attributes session

/-- The calls inside of a call of a filter. -/
def inside (env : Environment) (f : Filter) (v : Value) (session : Session RenderStack) : List Event :=
  match f with
  | .builtin .render => ofFile watch env v session
  | _ => []

def ofFilter (here : Here) (name : String) (v : Value) (args : Arguments) : Calls := fun r =>
  match Table.get? here.env.filters name with
  | .none => []
  | some f =>
    let (answer, after) := callFilter run here.env f v args.flat r.session
    inside watch here.env f v r.session ++ [.filter ⟨name, v :: args.flat, answer, after.engine.current?⟩]

/-! ## Calls of values, blocks, inclusion -/

/-- The calls in the body of a snippet that a template defines. -/
def ofBody (here : Here) (line : Nat) (template : String) (body : List Stmt) (scope : Nat) (bindings : Variables) :
    Calls := fun r =>
  after (checkDepth here line) (fun _ => captured .empty (watch { here with template := template, block := .none } body))
    { r with
      frames := [⟨bindings, .none, .shared scope, .none⟩]
      outerDepth := r.depth + snippetDepth
      blocks := [] }

def ofSnippet (here : Here) (line number : Nat) (signature : Signature) (body : List Stmt) (scope : Nat)
    (args : Arguments) : Calls :=
  after (here.lift line (bind signature.parameters args)) fun bindings r =>
    ofBody watch here line ((r.origins[number]?).getD here.template) body scope bindings r

def debug : Calls := fun _ => [.debug]

def ofStandard (name : String) : Calls :=
  match standardFunction? name with
  | some .debug => debug
  | _ => none

def ofFunction (here : Here) (name : String) : Calls :=
  match Table.get? here.env.tags name with
  | some (.function _) => none
  | _ => ofStandard name

def ofValue (here : Here) (line : Nat) (callee : Value) (args : Arguments) : Calls :=
  match callee with
  | .function name _ => ofFunction here name
  | .snippet number signature body scope => ofSnippet watch here line number signature body scope args
  | _ => none

def ofMethod (here : Here) (line : Nat) (v : Value) (name : String) (args : Arguments) : Calls :=
  match v with
  | .map entries =>
    match Value.valueAt? entries (.plain name) with
    | some callee => ofValue watch here line callee args
    | .none => none
  | _ => none

/-- The calls in the body of a block that is in turn. -/
def ofTurn (here : Here) (line : Nat) (name : String) : Option Layers → Calls
  | .none => none
  | some layers =>
    match layers.bodies[layers.depth]? with
    | .none => none
    | some (template, body) =>
      inFrame here line .empty (watch { here with template := template, block := some name } body)

def ofBlock (here : Here) (line : Nat) (name : String) : Calls := fun r =>
  ofTurn watch here line name (Table.get? r.blocks name) r

/-- The calls in the body that a block has in the next template outward. -/
def ofNext (here : Here) (line : Nat) (name : String) : Option Layers → Calls
  | .none => none
  | some layers =>
    match layers.bodies[layers.depth + 1]? with
    | .none => none
    | some (template, body) => fun r =>
      inFrame here line .empty (watch { here with template := template } body)
        { r with blocks := Table.insert name { layers with depth := layers.depth + 1 } r.blocks }

def ofSuper (here : Here) (line : Nat) : Calls :=
  match here.block with
  | .none => none
  | some name => fun r => ofNext watch here line name (Table.get? r.blocks name) r

def ofName (here : Here) (line : Nat) (name : String) (args : Arguments) : Calls :=
  if name = "super" then
    if !args.flat.isEmpty then none else captured .empty (ofSuper watch here line)
  else if name = "loop" then none
  else fun r =>
    match r.get? here.env name with
    | some callee => ofValue watch here line callee args r
    | .none => []

def ofTemplate (here : Here) (line : Nat) (t : Template) : Calls := fun r =>
  after (checkDepth here line)
    (fun _ => watch { here with template := t.name, escaping := here.env.escapes t.name } t.body)
    { r.onFrame (fun f => { f with shared := .none }) with
      blocks := addBlocks t []
      outerDepth := r.outerDepth + includeDepth }

/-- The calls in the first template that exists. -/
def ofFirst (here : Here) (line : Nat) : List Value → Calls
  | [] => none
  | v :: vs =>
    match v with
    | .text name _ => after (findTemplate here line name) fun
      | some t => ofTemplate watch here line t
      | .none => ofFirst here line vs
    | _ => none

def ofInclusion (here : Here) (line : Nat) (v : Value) : Calls :=
  ofFirst watch here line (match v with
    | .list vs => vs
    | v => [v])

end
end Calls

/-! ## Expressions -/

section
variable (run : Runner) (watch : Watch) (here : Here)

mutual
def Expr.calls : Expr → Calls
  | .constant _ _ => .none
  | .variable _ _ => .none
  | .negate _ e => e.calls
  | .not _ e => e.calls
  | .and _ left right => left.calls.andThen (left.eval run here) fun v => if v.isTrue then right.calls else .none
  | .or _ left right => left.calls.andThen (left.eval run here) fun v => if v.isTrue then .none else right.calls
  | .binary _ _ left right => left.calls.andThen (left.eval run here) fun _ => right.calls
  | .choose _ condition yes no =>
    condition.calls.andThen (condition.eval run here) fun v => if v.isTrue then yes.calls else Expr.callsOption no
  | .filter _ name subject args =>
    subject.calls.andThen (subject.eval run here) fun v =>
      (Arg.calls ⟨[], []⟩ args).andThen (Arg.evalAll run here ⟨[], []⟩ args) fun args =>
        Calls.ofFilter run watch here name v args
  | .test _ _ subject args => subject.calls.andThen (subject.eval run here) fun _ => Arg.calls ⟨[], []⟩ args
  | .attribute _ e _ => e.calls
  | .item _ e index => e.calls.andThen (e.eval run here) fun _ => index.calls
  | .slice _ e start stop step =>
    e.calls.andThen (e.eval run here) fun _ =>
      (Expr.callsOption start).andThen (Expr.evalOption run here .none start) fun _ =>
        (Expr.callsOption stop).andThen (Expr.evalOption run here .none stop) fun _ => Expr.callsOption step
  | .call line (.variable _ name) args =>
    (Arg.calls ⟨[], []⟩ args).andThen (Arg.evalAll run here ⟨[], []⟩ args) fun args =>
      Calls.ofName watch here line name args
  | .call line (.attribute _ e name) args =>
    if isSelf e then .captured .empty (Calls.ofBlock watch here line name)
    else e.calls.andThen (e.eval run here) fun v =>
      (Arg.calls ⟨[], []⟩ args).andThen (Arg.evalAll run here ⟨[], []⟩ args) fun args =>
        Calls.ofMethod watch here line v name args
  | .call line callee args =>
    callee.calls.andThen (callee.eval run here) fun v =>
      (Arg.calls ⟨[], []⟩ args).andThen (Arg.evalAll run here ⟨[], []⟩ args) fun args =>
        Calls.ofValue watch here line v args
  | .list _ items => Expr.callsAll items
  | .map _ entries => Expr.callsEntries entries
termination_by structural e => e

def Expr.callsOption : Option Expr → Calls
  | none => .none
  | some e => e.calls
termination_by structural e => e

def Expr.callsAll : List Expr → Calls
  | [] => .none
  | e :: es => e.calls.andThen (e.eval run here) fun _ => Expr.callsAll es
termination_by structural es => es

def Expr.callsEntries : List (Expr × Expr) → Calls
  | [] => .none
  | (key, e) :: es =>
    key.calls.andThen (key.eval run here) fun _ => e.calls.andThen (e.eval run here) fun _ => Expr.callsEntries es
termination_by structural es => es

def Arg.calls (done : Arguments) : List Arg → Calls
  | [] => .none
  | .positional e :: args => e.calls.andThen (e.eval run here) fun v =>
    Arg.calls { done with values := done.values ++ [v] } args
  | .named name e :: args => e.calls.andThen (e.eval run here) fun v =>
    Arg.calls { done with named := done.named ++ [(name, v)] } args
termination_by structural args => args
end
end

namespace Calls

variable (run : Runner) (watch : Watch) (here : Here)

/-- The calls in a chain of filters, the filters of the chain among them. -/
def ofChain : List FilterCall → Value → Calls
  | [], _ => none
  | f :: fs, v =>
    (Arg.calls run watch here ⟨[], []⟩ f.args).andThen (Arg.evalAll run here ⟨[], []⟩ f.args) fun args =>
      (ofFilter run watch here f.name v args).andThen (applyFilter run here f.line f.name v args) fun w =>
        ofChain fs w

def ofAssignments : List (Target × Expr) → Calls
  | [] => none
  | (t, e) :: rest => (e.calls run watch here).andThen (e.eval run here) fun v =>
    after (assignTo here e.line t v) fun _ => ofAssignments rest

def ofKept (line : Nat) (target : Target) (condition : Expr) : List Value → Calls
  | [] => none
  | v :: vs => after (assignTo here line target v) fun _ =>
    (condition.calls run watch here).andThen (condition.eval run here) fun _ => ofKept line target condition vs

def ofItems (line : Nat) (target : Target) (source : Expr) (condition : Option Expr) : Calls :=
  (source.calls run watch here).andThen (source.eval run here) fun v =>
    match v.items?, condition with
    | .none, _ => none
    | some _, .none => none
    | some items, some condition => inFrame here line .empty (ofKept run watch here line target condition items)

def ofExport (line : Nat) (name : Expr) : Calls :=
  inFrame here line .empty <|
    (name.calls run watch here).andThen (name.eval run here) fun v => ofInclusion watch here line v

end Calls

/-! ## Statements -/

section
variable (run : Runner) (watch : Watch)

mutual
def Stmt.calls (here : Here) : Stmt → Calls
  | .plain _ => .none
  | .emit _ e => e.calls run watch here
  | .loop line target source condition _ body otherwise =>
    (Calls.ofItems run watch here line target source condition).andThen
      (loopItems run here line target source condition) fun items =>
    let place (index : Nat) (previous : Option Value) (following : Option Value) : Eval Unit :=
      modify fun r => r.onFrame fun f => { f with loop := some (.loop index items.length previous following) }
    let step (index : Nat) (previous : Option Value) (v : Value) (following : Option Value) : Eval Unit := do
      place index previous following
      assignTo here line target v
      Stmt.execAll run here body
    let stepCalls (index : Nat) (previous : Option Value) (v : Value) (following : Option Value) : Calls :=
      .after (place index previous following) fun _ =>
      .after (assignTo here line target v) fun _ => Stmt.callsAll here body
    (Calls.inFrame here line .empty (.ofEach step stepCalls 0 none items)).andThen
      (inFrame here line .empty (eachItem step 0 none items)) fun _ =>
    if items.isEmpty then Stmt.callsAll here otherwise else .none
  | .choose condition yes no =>
    (condition.calls run watch here).andThen (condition.eval run here) fun v =>
      if v.isTrue then Stmt.callsAll here yes else Stmt.callsAll here no
  | .scoped values body =>
    .inFrame here (((values.head?).map (·.2.line)).getD 0) .empty <|
      (Calls.ofAssignments run watch here values).andThen (assignEach run here values) fun _ => Stmt.callsAll here body
  | .assign _ _ e => e.calls run watch here
  | .capture _ _ filters body =>
    (Calls.captured .empty (Stmt.callsAll here body)).andThen (captured .empty (Stmt.execAll run here body)) fun text =>
      .ofChain run watch here filters (here.textValue text)
  | .block line name => fun r =>
    if r.parent.isSome || r.sink.discarding then [] else Calls.ofBlock watch here line name r
  | .inherit _ parent => parent.calls run watch here
  | .include line name _ =>
    (name.calls run watch here).andThen (name.eval run here) fun v => .ofInclusion watch here line v
  | .importAs line name _ => .captured ⟨[], true⟩ (.ofExport run watch here line name)
  | .importNames line name _ => .captured ⟨[], true⟩ (.ofExport run watch here line name)
  | .define _ _ _ => .none
  | .filtered filters body =>
    (Calls.captured .empty (Stmt.callsAll here body)).andThen (captured .empty (Stmt.execAll run here body)) fun text =>
      .ofChain run watch here filters (here.textValue text)
  | .escaped mode body =>
    (mode.calls run watch here).andThen (mode.eval run here) fun v =>
      Stmt.callsAll { here with escaping := v.isTrue } body
  | .evaluate _ e => e.calls run watch here
termination_by structural s => s

def Stmt.callsAll (here : Here) : List Stmt → Calls
  | [] => .none
  | s :: ss => (Stmt.calls here s).andThen (s.exec run here) fun _ => Stmt.callsAll here ss
termination_by structural ss => ss
end
end

/-! ## Levels and pages -/

/-- The calls in the template that goes on when another one has ended. -/
def Calls.ofParent (watcher : Watcher) (here : Here) (outer : Run) : Option (String × List Stmt) → Calls
  | .none => none
  | some parent => fun r => watcher { here with template := parent.1 } parent.2
    { r with parent := .none, sink := { r.sink with discarding := outer.sink.discarding } }

/-- The calls of statements, and then of the template that goes on, beside `evaluateAt`. -/
def watchAt (file : Evaluator) (watchFile : Watcher) : Nat → Watcher
  | 0 => fun _ _ => .none
  | n + 1 => fun here body outer =>
    (Stmt.callsAll (.within file n) ⟨watchAt file watchFile n, watchFile⟩ here body).andThen
      (Stmt.execAll (.within file n) here body)
      (fun _ r => Calls.ofParent (watchAt file watchFile n) here outer r.parent r) { outer with parent := none }

/-- The calls beside the runner of a level. -/
def Watch.within (file : Evaluator) (watchFile : Watcher) (n : Nat) : Watch := ⟨watchAt file watchFile n, watchFile⟩

/-- The calls in a file, beside `evaluateFile`. -/
def watchFile : Nat → Watcher
  | 0 => fun _ _ => .none
  | k + 1 => fun here body => watchAt (evaluateFile k) (watchFile k) (levels here.env.scope.tree) here body

/-- The calls in a file of a page. -/
def watchNested : Watcher := fun here body => watchFile (renders here.env.scope.tree) here body

/-- The calls beside the runner of a level in the render of a page. -/
def watcher (n : Nat) : Watch := .within evaluateNested watchNested n

/-- The calls in the render of a page. -/
def Environment.events (env : Environment) (page : Page) (session : Session RenderStack) : List Event :=
  match env.scope.enter (.ofText page.name) session with
  | .error _ => []
  | .ok entered =>
    Calls.ofSource (watcher (levels env.scope.tree)) env page.name page.source page.context (entered.loading [])

/-- **The calls of filters in the render of a page**, in the order in which they come out. -/
def Environment.calls (env : Environment) (page : Page) (session : Session RenderStack) : List Call :=
  (env.events page session).filterMap Event.call?

end Folio.Template
