import Folio.Registry
import Folio.Calendar.Mask
import Folio.Scope
import Folio.Transform
import Folio.Template.Library
import Folio.Template.Standard
/-!
# The state of a template run

While a template is evaluated, a run holds its variables in frames, what it has printed, the bodies of its blocks from
the innermost template outward, and the session that it shares with the renders it starts (`Run`).  A step of evaluation
changes the run also when it fails (`Eval`), so reports made before a fault stay.

Variables are looked up from the innermost frame outward and at last among what the environment gives to every template.
Snippets defined in one frame share the variables they mention with it: whatever is assigned in that frame later, they
see as well.
-/
namespace Folio.Template

/-- Everything that the renders of a run have in common. -/
structure Environment where
  scope : Scope
  /-- The directories of templates. -/
  paths : List Path
  autoescape : Bool
  filters : Filters
  tags : Tags

abbrev Variables := Table Value

/-- What a frame has below its own variables. -/
inductive Base where
  | nothing
  | given (vs : Variables)
  /-- The variables shared by snippets, by number. -/
  | shared (n : Nat)

structure Frame where
  bindings : Variables
  /-- The loop that the frame belongs to. -/
  loop : Option Value
  base : Base
  /-- The number of the variables that snippets defined in the frame share with it. -/
  shared : Option Nat

def Frame.empty : Frame := ⟨[], none, .nothing, none⟩

/-- Where output goes. -/
structure Sink where
  /-- What was printed, the last piece first. -/
  pieces : List String
  discarding : Bool

namespace Sink

def empty : Sink := ⟨[], false⟩

def print (s : Sink) (text : String) : Sink := if s.discarding then s else { s with pieces := text :: s.pieces }

def text (s : Sink) : String := String.join s.pieces.reverse

end Sink

/-- The bodies of a block with the templates they stand in, the innermost template first, and which one is evaluated. -/
structure Layers where
  bodies : List (String × List Stmt)
  depth : Nat

structure Run where
  session : Session RenderStack
  /-- The innermost frame first. -/
  frames : List Frame
  /-- Variables that snippets share, by number. -/
  scopes : List Variables
  sink : Sink
  blocks : Table Layers
  /-- Names of the templates that were inherited from. -/
  inherited : List String
  /-- The template that goes on when the present one has ended. -/
  parent : Option (String × List Stmt)
  /-- The depth of the frames outside those of the run. -/
  outerDepth : Nat
  /-- The templates that the snippets of the run were defined in, by number. -/
  origins : List String

abbrev Eval (α : Type) := EStateM Fault Run α

/-- Where a step of evaluation stands. -/
structure Here where
  env : Environment
  template : String
  escaping : Bool
  block : Option String

/-- Fails at a line. -/
def Here.fail {α : Type} (here : Here) (line : Nat) (cause : Cause) : Eval α :=
  throw ⟨cause, some ⟨here.template, line⟩⟩

def Here.lift {α : Type} (here : Here) (line : Nat) : Except Cause α → Eval α
  | .ok a => pure a
  | .error cause => here.fail line cause

/-- Names of templates in which HTML is escaped, by what stands behind their last dot, or by all of a name without one. -/
def escapesHtml (name : String) : Bool :=
  let cs := name.toList
  let cs := if ".j2".toList.isSuffixOf cs then cs.take (cs.length - 3) else cs
  let extension := (cs.reverse.takeWhile (· != '.')).reverse
  ["html", "htm", "xml"].contains (String.ofList extension)

def Environment.escapes (env : Environment) (name : String) : Bool := env.autoescape && escapesHtml name

/-- What a function prints when it is not called: where the engine has it from. -/
def callerText : String := "<pagesmith::template::tags::FunctionTag as pagesmith::template::tags::Extension>::install::\x7b\x7bclosure\x7d\x7d"

def standardText (name : String) : String := "minijinja::functions::builtins::" ++ name

/-- What the environment gives to every template under a name. -/
def Environment.global? (env : Environment) (name : String) : Option Value :=
  match Table.get? env.tags name with
  | some (.global d) => some (.ofDatum d)
  | some (.function _) => some (.function name callerText)
  | none => (standardFunction? name).map fun _ => .function name (standardText name)

/-! ## Variables -/

def Frame.get? (scopes : List Variables) (f : Frame) (name : String) : Option Value :=
  let ofLoop := if name = "loop" then f.loop else none
  let ofBase := match f.base with
    | .nothing => none
    | .given vs => Table.get? vs name
    | .shared n => scopes[n]?.bind (Table.get? · name)
  (Table.get? f.bindings name).or (ofLoop.or ofBase)

def Run.get? (r : Run) (env : Environment) (name : String) : Option Value :=
  (r.frames.findSome? (·.get? r.scopes name)).or (env.global? name)

/-- Changes the innermost frame. -/
def Run.onFrame (r : Run) (f : Frame → Frame) : Run :=
  match r.frames with
  | [] => r
  | frame :: rest => { r with frames := f frame :: rest }

def Run.onScope (r : Run) (n : Nat) (f : Variables → Variables) : Run := { r with scopes := r.scopes.modify n f }

/-- Assigns in the innermost frame, and in what snippets share with it. -/
def Run.store (r : Run) (name : String) (v : Value) : Run :=
  let r := match r.frames.head?.bind (·.shared) with
    | some n => r.onScope n (Table.insert name v)
    | none => r
  r.onFrame fun f => { f with bindings := Table.insert name v f.bindings }

/-- The number of what snippets share with the innermost frame, and the run in which there is such a number. -/
def Run.sharing (r : Run) : Nat × Run :=
  match r.frames.head?.bind (·.shared) with
  | some n => (n, r)
  | none =>
    let n := r.scopes.length
    (n, { r with scopes := r.scopes ++ [[]] }.onFrame fun f => { f with shared := some n })

/-- Shares the present value of a variable, if it is not shared yet. -/
def Run.share (env : Environment) (n : Nat) (r : Run) (name : String) : Run :=
  match r.scopes[n]? with
  | some vs =>
    if Table.contains vs name then r
    else r.onScope n (Table.insert name ((r.get? env name).getD .undefined))
  | none => r

/-- The number of the next snippet of a template, and the run in which there is such a number. -/
def Run.defining (r : Run) (template : String) : Nat × Run :=
  (r.origins.length, { r with origins := r.origins ++ [template] })

/-! ## Depth -/

/-- How deep frames may be nested. -/
def deepestFrame : Nat := 500

/-- What an inclusion and a snippet count beside frames. -/
def includeDepth : Nat := 10

def snippetDepth : Nat := 4

def Run.depth (r : Run) : Nat := r.outerDepth + r.frames.length

def checkDepth (here : Here) (line : Nat) : Eval Unit := do
  if (← get).depth > deepestFrame then here.fail line .tooDeep

/-- Evaluates in a frame of its own. -/
def inFrame {α : Type} (here : Here) (line : Nat) (frame : Frame) (x : Eval α) : Eval α := do
  checkDepth here line
  modify fun r => { r with frames := frame :: r.frames }
  let a ← x
  modify fun r => { r with frames := r.frames.tail }
  pure a

/-! ## Output -/

def print (text : String) : Eval Unit := modify fun r => { r with sink := r.sink.print text }

def Here.emit (here : Here) (v : Value) : Eval Unit := print (if here.escaping then v.escaped else v.display)

/-- The text that a step prints. -/
def captured (sink : Sink) (x : Eval Unit) : Eval String := do
  let outer := (← get).sink
  modify fun r => { r with sink := sink }
  x
  let text := (← get).sink.text
  modify fun r => { r with sink := outer }
  pure text

/-- A captured text as a value; where HTML is escaped it was escaped when it was printed. -/
def Here.textValue (here : Here) (s : String) : Value := .text s here.escaping

/-! ## Assignments -/

mutual
def assignTo (here : Here) (line : Nat) : Target → Value → Eval Unit
  | .name name, v => modify fun r => r.store name v
  | .list targets, v =>
    match v with
    | .list vs =>
      if targets.length = vs.length then assignAll here line targets vs
      else here.fail line (.width targets.length vs.length)
    | .map es =>
      if targets.length = es.length then assignAll here line targets (es.map (·.1))
      else here.fail line (.width targets.length es.length)
    | _ => here.fail line .nothingToUnpack
termination_by structural t => t

def assignAll (here : Here) (line : Nat) : List Target → List Value → Eval Unit
  | t :: ts, v :: vs => do
    assignTo here line t v
    assignAll here line ts vs
  | _, _ => pure ()
termination_by structural ts => ts
end

/-- One step for every item, which is told its place and its neighbours. -/
def eachItem (f : Nat → Option Value → Value → Option Value → Eval Unit) (index : Nat) (previous : Option Value) :
    List Value → Eval Unit
  | [] => pure ()
  | v :: vs => do
    f index previous v vs.head?
    eachItem f (index + 1) (some v) vs

/-! ## Blocks -/

/-- The blocks of a template below those that were there before. -/
def addBlocks (t : Template) (blocks : Table Layers) : Table Layers :=
  t.blocks.foldl (fun bs (name, body) =>
    let layers := (Table.get? bs name).getD ⟨[], 0⟩
    Table.insert name { layers with bodies := layers.bodies ++ [(t.name, body)] } bs) blocks

/-- The template of a name. -/
def Environment.template (env : Environment) (name : String) : Except Fault (Option Template) :=
  match source? env.scope.tree env.paths name with
  | .error cause => .error ⟨cause, none⟩
  | .ok none => .ok none
  | .ok (some source) =>
    match read name source with
    | .ok t => .ok (some t)
    | .error f => .error f

/-- A fault that has no place yet is one of this line. -/
def Here.locate {α : Type} (here : Here) (line : Nat) : Except Fault α → Eval α
  | .ok a => pure a
  | .error f => throw (f.placed ⟨here.template, line⟩)

/-- The template of a name, which from then on is loaded. -/
def findTemplate (here : Here) (line : Nat) (name : String) : Eval (Option Template) := do
  match ← here.locate line (here.env.template name) with
  | none => pure none
  | some t =>
    modify fun r => { r with session := r.session.load name }
    pure (some t)

def loadedNames : Eval (List String) := do
  pure (← get).session.engine.loaded

def Run.start (t : Template) (context : Fields) (session : Session RenderStack) : Run where
  session := session
  frames := [⟨[], none, .given (context.map fun e => (e.1, .ofDatum e.2)), none⟩]
  scopes := []
  sink := .empty
  blocks := addBlocks t []
  inherited := []
  parent := none
  outerDepth := 0
  origins := []

end Folio.Template
