import Folio.Template.Run
/-!
# Rendering templates

The value of an expression and the effect of a statement follow their structure.  Whatever leads out of the piece of
template at hand is left to a *runner*, which evaluates statements at another place of the same render, as in a block, an
included template, a snippet or the template inherited from, and those of a file that the filter `render` expands.  A
runner of level `n + 1` evaluates with the runner of level `n` (`Runner.within`).  A file is a render of its own, with all
levels again, and with one render less to be nested in it (`evaluateFile`).  So evaluation ends for every template.

A filter of the registry that fails is reported and has no value; every other fault ends the evaluation.
-/
namespace Folio.Template

/-- Evaluates statements at a place. -/
abbrev Evaluator := Here → List Stmt → Eval Unit

/-- Evaluates statements at other places of a render, and the statements of files that are rendered by themselves. -/
structure Runner where
  evaluate : Evaluator
  file : Evaluator

instance : CoeFun Runner fun _ => Evaluator := ⟨Runner.evaluate⟩

/-! ## Filters of the registry -/

/-- Renders a source under a name with variables of its own; nothing else of the present run is seen. -/
def renderNamed (evaluate : Evaluator) (env : Environment) (name source : String) (context : Fields)
    (session : Session RenderStack) : Except Fault String × Session RenderStack :=
  match read name source with
  | .error f => (.error f, session)
  | .ok t =>
    match evaluate ⟨env, name, env.escapes name, none⟩ t.body (.start t context session) with
    | .ok _ r => (.ok r.sink.text, r.session)
    | .error f r => (.error f, r.session)

/-- A value that has to be the path of a file. -/
def pathText (v : Value) : Except Failure String :=
  match v with
  | .text s _ => .ok s
  | v => .error (.argument ("expected a file path, got " ++ v.kind.name))

def attributesOf (scope : Scope) (v : Value) (name : Option Value) : Except Failure Value := do
  let path ← pathText v
  let matter ← scope.readMatter (.ofText path)
  match name with
  | none | some .undefined | some .none => pure (.ofDatum (.object matter.attributes))
  | some (.text name _) => pure (((matter.attribute? name).map Value.ofDatum).getD .undefined)
  | some _ => .error (.argument "attribute name must be a string")

def bodyOf (scope : Scope) (v : Value) : Except Failure Value := do
  let path ← pathText v
  let matter ← scope.readMatter (.ofText path)
  pure (.plain matter.body)

def markdownOf (scope : Scope) (v : Value) : Except Failure Value :=
  match v with
  | .undefined | .none => .ok (.safe "")
  | v => (scope.markdown v.display).map Value.safe

def dateOf (scope : Scope) (v : Value) (format : Option Value) : Except Failure Value := do
  let datum ← match v.datum? with
    | some d => pure d
    | none => .error (.serialization "number out of range")
  let moment ← (Calendar.ofDatum scope.now datum).mapError Failure.date
  let text ← match format with
    | none | some .undefined | some .none => scope.dates moment Calendar.defaultMask
    | some (.text format _) => scope.dates moment format
    | some _ => .error (.argument "date format must be a string")
  pure (.plain text)

/-- The file at a path, rendered by itself: its text is a template with its attributes for variables, and is taken for
Markdown first unless the path is that of HTML. -/
def renderFile (run : Runner) (env : Environment) (v : Value) (session : Session RenderStack) :
    Except Failure Value × Session RenderStack :=
  match pathText v with
  | .error f => (.error f, session)
  | .ok name =>
    let path := Path.ofText name
    match env.scope.readMatter path with
    | .error f => (.error f, session)
    | .ok matter =>
      match env.scope.enter path session with
      | .error f => (.error f, session)
      | .ok session =>
        match if env.scope.isHtml path then .ok matter.body else env.scope.markdown matter.body with
        | .error f => (.error f, session.leave)
        | .ok source =>
          match renderNamed run.file env name source matter.attributes session with
          | (.ok text, session) => (.ok (.safe text), session.leave)
          | (.error fault, session) => (.error (.ofFault fault), session.leave)

def Builtin.call (run : Runner) (env : Environment) (b : Builtin) (v : Value) (args : List Value)
    (session : Session RenderStack) : Except Failure Value × Session RenderStack :=
  match b with
  | .attributes => (attributesOf env.scope v args.head?, session)
  | .body => (bodyOf env.scope v, session)
  | .render => renderFile run env v session
  | .markdown => (markdownOf env.scope v, session)
  | .date => (dateOf env.scope v args.head?, session)

def callFilter (run : Runner) (env : Environment) (f : Filter) (v : Value) (args : List Value)
    (session : Session RenderStack) : Except Failure Value × Session RenderStack :=
  match f with
  | .builtin b => Builtin.call run env b v args session
  | .custom f => (f (v :: args), session)

/-- The report of a filter that failed, for the file that the run is rendering. -/
def filterReport (name : String) (f : Failure) (session : Session RenderStack) : Report :=
  ⟨.filter, name ++ ": " ++ f.message, session.engine.current?⟩

/-- A filter of the registry under its name, then a standard one. -/
def applyFilter (run : Runner) (here : Here) (line : Nat) (name : String) (v : Value) (args : Arguments) :
    Eval Value := do
  match Table.get? here.env.filters name with
  | some f =>
    let (result, session) := callFilter run here.env f v args.flat (← get).session
    match result with
    | .ok w =>
      modify fun r => { r with session := session }
      pure w
    | .error failure =>
      modify fun r => { r with session := session.report (filterReport name failure session) }
      pure .undefined
  | none =>
    match standardFilter? name with
    | some f => here.lift line (f v args)
    | none => here.fail line (.unknownFilter name)

/-! ## Calls -/

/-- The value of each parameter: the argument at its place or with its name, or undefined. -/
def bind (parameters : List String) (args : Arguments) : Except Cause Variables :=
  if args.values.length > parameters.length then .error .tooManyArguments
  else match args.named.find? fun e => !parameters.contains e.1 with
    | some e => .error (.unknownArgument e.1)
    | none =>
      match args.named.find? fun e => (parameters.take args.values.length).contains e.1 with
      | some e => .error (.repeatedArgument e.1)
      | none => .ok (Table.ofEntries (parameters.zipIdx.map fun (p, i) => (p, (args.get? i p).getD .undefined)))

/-- Evaluates the body of a snippet with nothing but its arguments and the variables that it shares. -/
def callSnippet (run : Runner) (here : Here) (line number : Nat) (signature : Signature) (body : List Stmt)
    (scope : Nat) (args : Arguments) : Eval Value := do
  let bindings ← here.lift line (bind signature.parameters args)
  let outer ← get
  modify fun r => { r with
    frames := [⟨bindings, none, .shared scope, none⟩]
    outerDepth := r.depth + snippetDepth
    blocks := [] }
  checkDepth here line
  let template := (outer.origins[number]?).getD here.template
  let text ← captured .empty (run { here with template := template, block := none } body)
  modify fun r => { r with frames := outer.frames, outerDepth := outer.outerDepth, blocks := outer.blocks }
  pure (here.textValue text)

def callStandard (here : Here) (line : Nat) (name : String) (args : Arguments) : Eval Value :=
  match standardFunction? name with
  | some (.pure f) => here.lift line (f args)
  | some .debug => do
    let loaded ← loadedNames
    pure (.plain (debugText loaded args.flat))
  | none => here.fail line (.unknownFunction name)

/-- A function of the caller under its name, then a standard one. -/
def callFunction (here : Here) (line : Nat) (name : String) (args : Arguments) : Eval Value :=
  match Table.get? here.env.tags name with
  | some (.function f) =>
    match f args.flat with
    | .ok v => pure v
    | .error failure => here.fail line failure.cause
  | _ => callStandard here line name args

def callValue (run : Runner) (here : Here) (line : Nat) (callee : Value) (args : Arguments) : Eval Value :=
  match callee with
  | .function name _ => callFunction here line name args
  | .snippet number signature body scope => callSnippet run here line number signature body scope args
  | v => here.fail line (.notCallable v.kind.describe)

/-- Calls the part of a value that has a name. -/
def callMethod (run : Runner) (here : Here) (line : Nat) (v : Value) (name : String) (args : Arguments) : Eval Value :=
  match v, name with
  | .loop index _ _ _, "cycle" =>
    pure ((args.values[index % args.values.length]?).getD .undefined)
  | .map entries, name =>
    match Value.valueAt? entries (.plain name) with
    | some callee => callValue run here line callee args
    | none => here.fail line (.unknownMethod v.kind.describe name)
  | v, name => here.fail line (.unknownMethod v.kind.describe name)

/-! ## Blocks and inheritance -/

/-- Evaluates the body of a block that is in turn. -/
def callBlock (run : Runner) (here : Here) (line : Nat) (name : String) : Eval Unit := do
  match Table.get? (← get).blocks name with
  | none => here.fail line (.unknownBlock name)
  | some layers =>
    match layers.bodies[layers.depth]? with
    | none => here.fail line (.unknownBlock name)
    | some (template, body) =>
      inFrame here line .empty (run { here with template := template, block := some name } body)

/-- Evaluates the body that the present block has in the next template outward. -/
def callSuper (run : Runner) (here : Here) (line : Nat) : Eval Unit := do
  match here.block with
  | none => here.fail line .superOutside
  | some name =>
    match Table.get? (← get).blocks name with
    | none => here.fail line .superOutside
    | some layers =>
      match layers.bodies[layers.depth + 1]? with
      | none => here.fail line .superOnTop
      | some (template, body) =>
        modify fun r => { r with blocks := Table.insert name { layers with depth := layers.depth + 1 } r.blocks }
        tryCatch (inFrame here line .empty (run { here with template := template } body))
          fun _ => here.fail line .inSuper
        modify fun r => { r with blocks := Table.insert name layers r.blocks }

/-- Makes the present template one that another template goes on with; what it prints from here on is lost. -/
def inheritFrom (here : Here) (line : Nat) (v : Value) : Eval Unit := do
  if (← get).parent.isSome then here.fail line .secondParent else
  match v with
  | .text name _ =>
    if (← get).inherited.contains name then here.fail line (.cycle (Text.shown name)) else
    match ← findTemplate here line name with
    | none => here.fail line (.missingTemplate (Text.shown name))
    | some t =>
      modify fun r => { r with
        inherited := name :: r.inherited
        blocks := addBlocks t r.blocks
        parent := some (name, t.body)
        sink := { r.sink with discarding := true } }
  | _ => here.fail line .templateNameKind

/-! ## Inclusion -/

/-- Evaluates a template in the innermost frame, with blocks of its own. -/
def includeTemplate (run : Runner) (here : Here) (line : Nat) (t : Template) : Eval Unit := do
  let outer ← get
  modify fun r => { r.onFrame (fun f => { f with shared := none }) with
    blocks := addBlocks t []
    outerDepth := r.outerDepth + includeDepth }
  checkDepth here line
  tryCatch (run { here with template := t.name, escaping := here.env.escapes t.name } t.body)
    fun _ => here.fail line (.inInclude t.name)
  modify fun r => { r.onFrame (fun f => { f with shared := outer.frames.head?.bind (·.shared) }) with
    blocks := outer.blocks
    inherited := outer.inherited
    outerDepth := outer.outerDepth }

/-- Includes the first template that exists; `tried` are the names before. -/
def includeFirst (run : Runner) (here : Here) (line : Nat) (ignoreMissing : Bool) (tried : List Value) :
    List Value → Eval Unit
  | [] =>
    if ignoreMissing || tried.isEmpty then pure ()
    else match tried with
      | [v] => here.fail line (.missingInclude v.shown)
      | vs => here.fail line (.missingIncludes (Value.list vs).shown)
  | v :: vs => do
    match v with
    | .text name _ =>
      match ← findTemplate here line name with
      | some t => includeTemplate run here line t
      | none => includeFirst run here line ignoreMissing (tried ++ [v]) vs
    | _ => here.fail line .templateNameKind

def includeAny (run : Runner) (here : Here) (line : Nat) (ignoreMissing : Bool) (v : Value) : Eval Unit :=
  includeFirst run here line ignoreMissing [] (match v with
    | .list vs => vs
    | v => [v])

/-! ## Expressions -/

def Constant.value : Constant → Value
  | .none => .none
  | .bool b => .bool b
  | .int n => .int n
  | .float x => .float x
  | .text s => .plain s

def lookup (here : Here) (name : String) : Eval Value := do
  pure (((← get).get? here.env name).getD .undefined)

/-- A call of a name: `super` and the names of variables. -/
def callName (run : Runner) (here : Here) (line : Nat) (name : String) (args : Arguments) : Eval Value := do
  if name = "super" then
    if !args.flat.isEmpty then here.fail line .superArguments else
    let text ← captured .empty (callSuper run here line)
    pure (here.textValue text)
  else if name = "loop" then
    if args.flat.length = 1 then here.fail line .loopOutside else here.fail line .loopArguments
  else match (← get).get? here.env name with
    | some callee => callValue run here line callee args
    | none => here.fail line (.unknownFunction name)

/-- A call of an attribute: blocks of `self`, and methods. -/
def isSelf : Expr → Bool
  | .variable _ "self" => true
  | _ => false

mutual
def Expr.eval (run : Runner) (here : Here) : Expr → Eval Value
  | .constant _ c => pure c.value
  | .variable _ name => lookup here name
  | .negate line e => do
    let v ← e.eval run here
    here.lift line v.negate
  | .not _ e => do
    let v ← e.eval run here
    pure (.bool !v.isTrue)
  | .and _ left right => do
    let v ← left.eval run here
    if v.isTrue then right.eval run here else pure v
  | .or _ left right => do
    let v ← left.eval run here
    if v.isTrue then pure v else right.eval run here
  | .binary line op left right => do
    let v ← left.eval run here
    let w ← right.eval run here
    here.lift line (Value.operate op v w)
  | .choose _ condition yes no => do
    let v ← condition.eval run here
    if v.isTrue then yes.eval run here else Expr.evalOption run here .undefined no
  | .filter line name subject args => do
    let v ← subject.eval run here
    let args ← Arg.evalAll run here ⟨[], []⟩ args
    applyFilter run here line name v args
  | .test line name subject args => do
    let v ← subject.eval run here
    let args ← Arg.evalAll run here ⟨[], []⟩ args
    match standardTest? name with
    | some test => do
      let b ← here.lift line (test v args.flat)
      pure (.bool b)
    | none => here.fail line (.unknownTest name)
  | .attribute line e name => do
    let v ← e.eval run here
    here.lift line (v.part (.plain name))
  | .item line e index => do
    let v ← e.eval run here
    let key ← index.eval run here
    here.lift line (v.part key)
  | .slice line e start stop step => do
    let v ← e.eval run here
    let start ← Expr.evalOption run here .none start
    let stop ← Expr.evalOption run here .none stop
    let step ← Expr.evalOption run here .none step
    here.lift line (v.slice start stop step)
  | .call line (.variable _ name) args => do
    let args ← Arg.evalAll run here ⟨[], []⟩ args
    callName run here line name args
  | .call line (.attribute _ e name) args => do
    if isSelf e then
      let text ← captured .empty (callBlock run here line name)
      pure (here.textValue text)
    else do
      let v ← e.eval run here
      let args ← Arg.evalAll run here ⟨[], []⟩ args
      callMethod run here line v name args
  | .call line callee args => do
    let v ← callee.eval run here
    let args ← Arg.evalAll run here ⟨[], []⟩ args
    callValue run here line v args
  | .list _ items => do
    let vs ← Expr.evalAll run here items
    pure (.list vs)
  | .map _ entries => do
    let es ← Expr.evalEntries run here entries
    pure (.ofEntries es)
termination_by structural e => e

/-- An expression that may be left out. -/
def Expr.evalOption (run : Runner) (here : Here) (otherwise : Value) : Option Expr → Eval Value
  | none => pure otherwise
  | some e => e.eval run here
termination_by structural e => e

def Expr.evalAll (run : Runner) (here : Here) : List Expr → Eval (List Value)
  | [] => pure []
  | e :: es => do
    let v ← e.eval run here
    let vs ← Expr.evalAll run here es
    pure (v :: vs)
termination_by structural es => es

def Expr.evalEntries (run : Runner) (here : Here) : List (Expr × Expr) → Eval (List (Value × Value))
  | [] => pure []
  | (key, e) :: es => do
    let k ← key.eval run here
    let v ← e.eval run here
    let vs ← Expr.evalEntries run here es
    pure ((k, v) :: vs)
termination_by structural es => es

/-- Arguments from left to right, after those in `done`. -/
def Arg.evalAll (run : Runner) (here : Here) (done : Arguments) : List Arg → Eval Arguments
  | [] => pure done
  | .positional e :: args => do
    let v ← e.eval run here
    Arg.evalAll run here { done with values := done.values ++ [v] } args
  | .named name e :: args => do
    let v ← e.eval run here
    Arg.evalAll run here { done with named := done.named ++ [(name, v)] } args
termination_by structural args => args
end

/-- A value through a chain of filters. -/
def applyFilters (run : Runner) (here : Here) : List FilterCall → Value → Eval Value
  | [], v => pure v
  | f :: fs, v => do
    let args ← Arg.evalAll run here ⟨[], []⟩ f.args
    let w ← applyFilter run here f.line f.name v args
    applyFilters run here fs w

def assignEach (run : Runner) (here : Here) : List (Target × Expr) → Eval Unit
  | [] => pure ()
  | (t, e) :: rest => do
    let v ← e.eval run here
    assignTo here e.line t v
    assignEach run here rest

/-- The items of a loop for which its condition is true. -/
def keptItems (run : Runner) (here : Here) (line : Nat) (target : Target) (condition : Expr) :
    List Value → Eval (List Value)
  | [] => pure []
  | v :: vs => do
    assignTo here line target v
    let keep ← condition.eval run here
    let rest ← keptItems run here line target condition vs
    pure (if keep.isTrue then v :: rest else rest)

def loopItems (run : Runner) (here : Here) (line : Nat) (target : Target) (source : Expr) (condition : Option Expr) :
    Eval (List Value) := do
  let v ← source.eval run here
  match v.items?, condition with
  | none, _ => here.fail line (.notIterable v.kind.describe)
  | some items, none => pure items
  | some items, some condition => inFrame here line .empty (keptItems run here line target condition items)

/-! ## Statements -/

/-- Imports the variables that a template assigns. -/
def exported (run : Runner) (here : Here) (line : Nat) (name : Expr) : Eval Variables :=
  inFrame here line .empty do
    let v ← name.eval run here
    includeAny run here line false v
    pure (((← get).frames.head?.map (·.bindings)).getD [])

def assignNames (exports : Variables) : List (String × String) → Eval Unit
  | [] => pure ()
  | (name, given) :: rest => do
    modify fun r => r.store given ((Table.get? exports name).getD .undefined)
    assignNames exports rest

mutual
def Stmt.exec (run : Runner) (here : Here) : Stmt → Eval Unit
  | .plain text => print text
  | .emit _ e => do
    let v ← e.eval run here
    here.emit v
  | .loop line target source condition _ body otherwise => do
    let items ← loopItems run here line target source condition
    inFrame here line .empty (eachItem (fun index previous v following => do
      modify fun r => r.onFrame fun f => { f with loop := some (.loop index items.length previous following) }
      assignTo here line target v
      Stmt.execAll run here body) 0 none items)
    if items.isEmpty then Stmt.execAll run here otherwise
  | .choose condition yes no => do
    let v ← condition.eval run here
    if v.isTrue then Stmt.execAll run here yes else Stmt.execAll run here no
  | .scoped values body =>
    inFrame here (((values.head?).map (·.2.line)).getD 0) .empty do
      assignEach run here values
      Stmt.execAll run here body
  | .assign line target e => do
    let v ← e.eval run here
    assignTo here line target v
  | .capture line target filters body => do
    let text ← captured .empty (Stmt.execAll run here body)
    let v ← applyFilters run here filters (here.textValue text)
    assignTo here line target v
  | .block line name => do
    let r ← get
    if r.parent.isSome || r.sink.discarding then pure () else callBlock run here line name
  | .inherit line parent => do
    let v ← parent.eval run here
    inheritFrom here line v
  | .include line name ignoreMissing => do
    let v ← name.eval run here
    includeAny run here line ignoreMissing v
  | .importAs line name target => do
    let outer := (← get).sink
    modify fun r => { r with sink := ⟨[], true⟩ }
    let exports ← exported run here line name
    assignTo here line target (.ofEntries (exports.map fun e => (.plain e.1, e.2)))
    modify fun r => { r with sink := outer }
  | .importNames line name names => do
    let outer := (← get).sink
    modify fun r => { r with sink := ⟨[], true⟩ }
    let exports ← exported run here line name
    assignNames exports names
    modify fun r => { r with sink := outer }
  | .define _ signature body =>
    modify fun r =>
      let (n, r) := r.sharing
      let r := signature.mentioned.foldl (Run.share here.env n) r
      let (number, r) := r.defining here.template
      r.store signature.name (.snippet number signature body n)
  | .filtered filters body => do
    let text ← captured .empty (Stmt.execAll run here body)
    let v ← applyFilters run here filters (here.textValue text)
    here.emit v
  | .escaped mode body => do
    let v ← mode.eval run here
    Stmt.execAll run { here with escaping := v.isTrue } body
  | .evaluate _ e => do
    let _ ← e.eval run here
    pure ()
termination_by structural s => s

def Stmt.execAll (run : Runner) (here : Here) : List Stmt → Eval Unit
  | [] => pure ()
  | s :: ss => do
    s.exec run here
    Stmt.execAll run here ss
termination_by structural ss => ss
end

/-! ## Levels -/

/-- Evaluates statements with so many levels below them, and then, if they made their template inherit from another one,
that template. -/
def evaluateAt (file : Evaluator) : Nat → Evaluator
  | 0 => fun _ _ => throw ⟨.tooDeep, none⟩
  | n + 1 => fun here body => do
    let outer ← get
    modify fun r => { r with parent := none }
    Stmt.execAll ⟨evaluateAt file n, file⟩ here body
    match (← get).parent with
    | none => modify fun r => { r with parent := outer.parent }
    | some (name, parentBody) =>
      modify fun r => { r with parent := none, sink := { r.sink with discarding := outer.sink.discarding } }
      evaluateAt file n { here with template := name } parentBody
      modify fun r => { r with parent := outer.parent }

/-- The runner of a level in a render whose files are evaluated in a given way. -/
def Runner.within (file : Evaluator) (n : Nat) : Runner := ⟨evaluateAt file n, file⟩

theorem Runner.within_succ (file : Evaluator) (n : Nat) (here : Here) (body : List Stmt) :
    Runner.within file (n + 1) here body = (do
      let outer ← get
      modify fun r => { r with parent := none }
      Stmt.execAll (.within file n) here body
      match (← get).parent with
      | none => modify fun r => { r with parent := outer.parent }
      | some (name, parentBody) =>
        modify fun r => { r with parent := none, sink := { r.sink with discarding := outer.sink.discarding } }
        Runner.within file n { here with template := name } parentBody
        modify fun r => { r with parent := outer.parent }) := rfl

/-- How many levels a render has: nesting is bounded by `deepestFrame`, and for each depth there is room for a long chain of
inherited templates. -/
def levels (t : FileTree) : Nat :=
  (t.nodes.length + 1) * (FileTree.longestPath + 1) * (deepestFrame + 1) * (t.nodes.length + 2)

/-- How many files can be rendered one inside of the other: each of them has a path of its own, and no file has more than
four paths in normal form. -/
def renders (t : FileTree) : Nat := 4 * t.nodes.length

/-- Evaluates the statements of a file, and so many files one inside of the other. -/
def evaluateFile : Nat → Evaluator
  | 0 => fun _ _ => throw ⟨.tooDeep, none⟩
  | k + 1 => fun here body => evaluateAt (evaluateFile k) (levels here.env.scope.tree) here body

/-- Evaluates the statements of a file in a page. -/
def evaluateNested : Evaluator := fun here body => evaluateFile (renders here.env.scope.tree) here body

/-- The runner of a level in the render of a page. -/
def runner (n : Nat) : Runner := .within evaluateNested n

/-- The renderer of pages: a page is marked as being rendered, and its source is a template under its name.  What is loaded
for a page is loaded for it alone. -/
def Environment.render (env : Environment) : Renderer RenderStack := fun page session =>
  match env.scope.enter (.ofText page.name) session with
  | .error f => (.error f, session)
  | .ok entered =>
    match renderNamed (runner (levels env.scope.tree)) env page.name page.source page.context (entered.loading []) with
    | (.ok text, after) => (.ok text, (after.loading session.engine.loaded).leave)
    | (.error fault, after) => (.error (.ofFault fault), (after.loading session.engine.loaded).leave)

end Folio.Template
