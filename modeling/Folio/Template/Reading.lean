import Folio.Template.Expr
import Folio.Template.Token
/-!
# Reading templates

The structure of a template from its tokens, by recursive descent.  The first token that cannot stand where it stands is
the fault, found before anything is evaluated.  Operators bind, from loosest to tightest: `if … else`, `or`, `and`, `not`,
comparisons, `+ -`, `~`, `* / // %`, `**`, a leading `-`; attributes, subscripts and calls bind before a filter or a test
is applied.

Every function takes the number of nested calls that it may still make.  A call comes with a token or goes down one of the
levels of binding, so the bound of `read` is never reached.
-/
namespace Folio.Template

/-- What has been read so far, and what is still to be read. -/
structure Cursor where
  rest : List Lexeme
  /-- Why there are no more tokens, if not because the source ends. -/
  fault : Option (Cause × Nat)
  /-- The line of the last token taken. -/
  line : Nat
  /-- Names of the blocks begun. -/
  blockNames : List String
  /-- Blocks that are complete, the last one first. -/
  blocks : List (String × List Stmt)
  /-- Variables mentioned. -/
  mentioned : List String
  inDefinition : Bool
  depth : Nat

abbrev Reader (α : Type) := StateT Cursor (Except (Cause × Nat)) α

def raise {α : Type} (cause : Cause) : Reader α := fun c => .error (cause, c.line)

def peek : Reader (Option Token) := fun c =>
  match c.rest, c.fault with
  | l :: _, _ => .ok (some l.token, c)
  | [], some fault => .error fault
  | [], none => .ok (none, c)

/-- Takes a token. -/
def next : Reader (Option Token) := fun c =>
  match c.rest, c.fault with
  | l :: rest, _ => .ok (some l.token, { c with rest := rest, line := l.line })
  | [], some fault => .error fault
  | [], none => .ok (none, c)

/-- The line of the token in front, or of the last one taken. -/
def currentLine : Reader Nat := fun c => .ok ((c.rest.head?.map (·.line)).getD c.line, c)

def describe : Option Token → String
  | some t => t.describe
  | none => "end of input"

def isSign (s : String) : Option Token → Bool
  | some (.sign t) => s == t
  | _ => false

def isKeyword (s : String) : Option Token → Bool
  | some (.name t) => s == t
  | _ => false

/-- Takes a token if it is as wanted. -/
def skip (wanted : Option Token → Bool) : Reader Bool := do
  let t ← peek
  if wanted t then do
    let _ ← next
    pure true
  else pure false

/-- Takes a token, which has to be as wanted. -/
def expect (wanted : Option Token → Bool) (expected : String) : Reader Unit := do
  let t ← next
  if wanted t then pure () else raise (.unexpected (describe t) (some expected))

def expectSign (s : String) : Reader Unit := expect (isSign s) ("\x60" ++ s ++ "\x60")

def isTagEnd : Option Token → Bool
  | some .tagEnd => true
  | _ => false

def isEmitEnd : Option Token → Bool
  | some .emitEnd => true
  | _ => false

def expectTagEnd : Reader Unit := expect isTagEnd "end of block"

def expectName : Reader String := do
  match ← next with
  | some (.name s) => pure s
  | t => raise (.unexpected (describe t) (some "identifier"))

/-! ## Levels of binding -/

inductive Level where
  | or
  | and
  | compare
  | sum
  | join
  | product
  | power
deriving DecidableEq, Repr

/-- How an operator makes an expression of its operands. -/
inductive Build where
  | and
  | or
  | plain (op : Operator)
  | notWithin

def Build.apply (b : Build) (left right : Expr) : Expr :=
  match b with
  | .and => .and right.line left right
  | .or => .or right.line left right
  | .plain op => .binary right.line op left right
  | .notWithin => .not right.line (.binary right.line .within left right)

def comparison? : String → Option Operator
  | "==" => some .equal
  | "!=" => some .unequal
  | "<" => some .less
  | "<=" => some .lessEqual
  | ">" => some .greater
  | ">=" => some .greaterEqual
  | _ => none

/-- The operator of a level that a token is. -/
def Level.operator? (level : Level) (t : Option Token) : Option Build :=
  match level, t with
  | .or, some (.name "or") => some .or
  | .and, some (.name "and") => some .and
  | .compare, some (.sign s) => (comparison? s).map .plain
  | .compare, some (.name "in") => some (.plain .within)
  | .compare, some (.name "not") => some .notWithin
  | .sum, some (.sign "+") => some (.plain .add)
  | .sum, some (.sign "-") => some (.plain .subtract)
  | .join, some (.sign "~") => some (.plain .join)
  | .product, some (.sign "*") => some (.plain .multiply)
  | .product, some (.sign "/") => some (.plain .divide)
  | .product, some (.sign "//") => some (.plain .divideWhole)
  | .product, some (.sign "%") => some (.plain .remainder)
  | .power, some (.sign "**") => some (.plain .power)
  | _, _ => none

/-- Takes an operator of the level if one is in front. -/
def takeOperator (level : Level) : Reader (Option Build) := do
  match level.operator? (← peek) with
  | none => pure none
  | some b => do
    let _ ← next
    match b with
    | .notWithin => expect (isKeyword "in") "in"
    | _ => pure ()
    pure (some b)

/-- How deep a template may be nested. -/
def deepest : Nat := 150

/-- One level deeper, within bounds. -/
def deeper {α : Type} (r : Reader α) : Reader α := do
  modify fun c => { c with depth := c.depth + 1 }
  if (← get).depth > deepest then raise .sourceTooDeep else
  let a ← r
  modify fun c => { c with depth := c.depth - 1 }
  pure a

/-- Texts that stand side by side are one text. -/
def adjacentTexts (s : String) : List Lexeme → String × List Lexeme
  | ⟨.text t, _⟩ :: rest => adjacentTexts (s ++ t) rest
  | rest => (s, rest)

/-- Whether an argument of a test without brackets begins with this token. -/
def beginsArgument : Option Token → Bool
  | some (.name s) => !(s == "and" || s == "or" || s == "else" || s == "is")
  | some (.text _) | some (.int _) | some (.float _) => true
  | some (.sign s) => s == "[" || s == "\x7b"
  | _ => false

def mention (name : String) : Reader Unit := modify fun c => { c with mentioned := name :: c.mentioned }

/-! ## Expressions -/

def outOfReach {α : Type} : Reader α := raise .sourceTooDeep

mutual
/-- An expression with `if … else` behind it. -/
def expr : Nat → Reader Expr
  | 0 => outOfReach
  | n + 1 => deeper do
    let e ← binary n .or
    conditions n e

def conditions : Nat → Expr → Reader Expr
  | 0, _ => outOfReach
  | n + 1, e => do
    if ← skip (isKeyword "if") then
      let condition ← binary n .or
      let no ← if ← skip (isKeyword "else") then do
          let e ← binary n .or
          let e ← conditions n e
          pure (some e)
        else pure none
      let line := match no with
        | some e => e.line
        | none => e.line
      conditions n (.choose line condition e no)
    else pure e

/-- Operands of a level with operators between them, which bind to the left. -/
def binary : Nat → Level → Reader Expr
  | 0, _ => outOfReach
  | n + 1, level => do
    let left ← operand n level
    operations n level left

def operations : Nat → Level → Expr → Reader Expr
  | 0, _, _ => outOfReach
  | n + 1, level, left => do
    match ← takeOperator level with
    | none => pure left
    | some b => do
      let right ← operand n level
      operations n level (b.apply left right)

def operand : Nat → Level → Reader Expr
  | 0, _ => outOfReach
  | n + 1, level =>
    match level with
    | .or => binary n .and
    | .and => negation n
    | .compare => binary n .sum
    | .sum => binary n .join
    | .join => binary n .product
    | .product => binary n .power
    | .power => do
      let e ← signed n
      let e ← trailers n e
      applications n e

def negation : Nat → Reader Expr
  | 0 => outOfReach
  | n + 1 => do
    if ← skip (isKeyword "not") then
      let e ← negation n
      pure (.not e.line e)
    else binary n .compare

/-- A minus sign takes a bare operand, whose attributes and filters come after it. -/
def signed : Nat → Reader Expr
  | 0 => outOfReach
  | n + 1 => do
    let line ← currentLine
    if ← skip (isSign "-") then
      let e ← signed n
      pure (.negate line e)
    else primary n

def primary : Nat → Reader Expr
  | 0 => outOfReach
  | n + 1 => deeper do
    let line ← currentLine
    match ← next with
    | some (.name "true") | some (.name "True") => pure (.constant line (.bool true))
    | some (.name "false") | some (.name "False") => pure (.constant line (.bool false))
    | some (.name "none") | some (.name "None") => pure (.constant line .none)
    | some (.name s) => do
      mention s
      pure (.variable line s)
    | some (.text s) => do
      let c ← get
      let (s, rest) := adjacentTexts s c.rest
      set { c with rest := rest }
      pure (.constant line (.text s))
    | some (.int k) => pure (.constant line (.int k))
    | some (.float x) => pure (.constant line (.float x))
    | some (.sign "(") => group n line
    | some (.sign "[") => do
      let items ← items n "]" []
      pure (.list ((items.getLast?.map Expr.line).getD line) items)
    | some (.sign "\x7b") => do
      let entries ← entries n []
      pure (.map ((entries.getLast?.map fun e => e.2.line).getD line) entries)
    | t => raise (.unexpected (describe t) none)

/-- What follows an opening bracket: an expression, or a list if there is a comma. -/
def group : Nat → Nat → Reader Expr
  | 0, _ => outOfReach
  | n + 1, line => do
    if ← skip (isSign ")") then pure (.list line []) else
    let e ← expr n
    if isSign "," (← peek) then
      let items ← items n ")" [e]
      pure (.list ((items.getLast?.map Expr.line).getD line) items)
    else do
      expectSign ")"
      pure e

/-- Expressions up to a closing sign, the last one first in `done`; a comma may stand in front of the sign. -/
def items : Nat → String → List Expr → Reader (List Expr)
  | 0, _, _ => outOfReach
  | n + 1, close, done => do
    if ← skip (isSign close) then pure done.reverse else
    if !done.isEmpty then expectSign ","
    if ← skip (isSign close) then pure done.reverse else
    let e ← expr n
    items n close (e :: done)

def entries : Nat → List (Expr × Expr) → Reader (List (Expr × Expr))
  | 0, _ => outOfReach
  | n + 1, done => do
    if ← skip (isSign "\x7d") then pure done.reverse else
    if !done.isEmpty then expectSign ","
    if ← skip (isSign "\x7d") then pure done.reverse else
    let key ← expr n
    expectSign ":"
    let value ← expr n
    entries n ((key, value) :: done)

/-- Attributes, subscripts and calls. -/
def trailers : Nat → Expr → Reader Expr
  | 0, _ => outOfReach
  | n + 1, e => do
    let t ← peek
    if isSign "." t then do
      let _ ← next
      match ← next with
      | some (.name s) => trailers n (.attribute e.line e s)
      | some (.int k) => trailers n (.item e.line e (.constant e.line (.int k)))
      | t => raise (.unexpected (describe t) (some "identifier"))
    else if isSign "[" t then do
      let _ ← next
      let e ← subscript n e
      trailers n e
    else if isSign "(" t then do
      let args ← args n
      let line := match args.getLast? with
        | some (.positional a) | some (.named _ a) => a.line
        | none => e.line
      trailers n (.call line e args)
    else pure e

def subscript : Nat → Expr → Reader Expr
  | 0, _ => outOfReach
  | n + 1, e => do
    let start ← if isSign ":" (← peek) then pure none
      else if isSign "]" (← peek) then pure none
      else do
        let e ← expr n
        pure (some e)
    if ← skip (isSign ":") then
      let stop ← if isSign ":" (← peek) || isSign "]" (← peek) then pure none
        else do
          let e ← expr n
          pure (some e)
      let step ← if ← skip (isSign ":") then
          if isSign "]" (← peek) then pure none
          else do
            let e ← expr n
            pure (some e)
        else pure none
      expectSign "]"
      pure (.slice e.line e start stop step)
    else do
      expectSign "]"
      match start with
      | some index => pure (.item index.line e index)
      | none => raise .emptySubscript

/-- The arguments of a call with their brackets; named ones come last. -/
def args : Nat → Reader (List Arg)
  | 0 => outOfReach
  | n + 1 => do
    expectSign "("
    arguments n false []

def arguments : Nat → Bool → List Arg → Reader (List Arg)
  | 0, _, _ => outOfReach
  | n + 1, named, done => do
    if ← skip (isSign ")") then pure done.reverse else
    if !done.isEmpty then expectSign ","
    if ← skip (isSign ")") then pure done.reverse else
    let e ← expr n
    match e with
    | .variable _ name =>
      if ← skip (isSign "=") then
        let value ← binary n .or
        arguments n true (.named name value :: done)
      else if named then raise .positionalAfterNamed
      else arguments n named (.positional e :: done)
    | _ => if named then raise .positionalAfterNamed else arguments n named (.positional e :: done)

/-- Filters and tests. -/
def applications : Nat → Expr → Reader Expr
  | 0, _ => outOfReach
  | n + 1, e => do
    let t ← peek
    if isSign "|" t then do
      let _ ← next
      let name ← expectName
      let args ← if isSign "(" (← peek) then args n else pure []
      applications n (.filter (lastLine e args) name e args)
    else if isKeyword "is" t then do
      let _ ← next
      let negated ← skip (isKeyword "not")
      let name ← expectName
      let t ← peek
      let args ← if isSign "(" t then args n
        else if beginsArgument t then do
          let a ← signed n
          let a ← trailers n a
          pure [.positional a]
        else pure []
      let tested := Expr.test (lastLine e args) name e args
      applications n (if negated then .not tested.line tested else tested)
    else pure e
where
  lastLine (e : Expr) (args : List Arg) : Nat :=
    match args.getLast? with
    | some (.positional a) | some (.named _ a) => a.line
    | none => e.line
end

/-! ## Statements -/

/-- Names that nothing is assigned to. -/
def reservedNames : List String := ["true", "True", "false", "False", "none", "None", "loop", "self"]

def assignedName : Reader String := do
  let name ← expectName
  if reservedNames.contains name then raise (.reservedName name) else pure name

def endsTarget : Option Token → Bool
  | some (.sign ")") | some .emitEnd | some .tagEnd | some (.name "in") => true
  | _ => false

mutual
/-- One target, or several with commas between them. -/
def target : Nat → Reader Target
  | 0 => outOfReach
  | n + 1 => do
    let (targets, several) ← targets n false []
    match targets, several with
    | [t], false => pure t
    | ts, _ => pure (.list ts)

def targets : Nat → Bool → List Target → Reader (List Target × Bool)
  | 0, _, _ => outOfReach
  | n + 1, several, done => do
    if !done.isEmpty then expectSign ","
    if endsTarget (← peek) then pure (done.reverse, several) else
    let t ← singleTarget n
    if isSign "," (← peek) then targets n true (t :: done)
    else pure ((t :: done).reverse, several)

/-- A name, or targets in brackets. -/
def singleTarget : Nat → Reader Target
  | 0 => outOfReach
  | n + 1 => do
    if ← skip (isSign "(") then
      let t ← target n
      expectSign ")"
      pure t
    else do
      let name ← assignedName
      pure (.name name)
end

/-- A filter name with its arguments. -/
def filterCall (n : Nat) : Reader FilterCall := do
  let line ← currentLine
  let name ← expectName
  let args ← if isSign "(" (← peek) then args n else pure []
  pure ⟨line, name, args⟩

/-- Filters with bars between them. -/
def filterChain : Nat → Reader (List FilterCall)
  | 0 => outOfReach
  | n + 1 => do
    let f ← filterCall n
    if ← skip (isSign "|") then
      let fs ← filterChain n
      pure (f :: fs)
    else pure [f]

def assignments : Nat → List (Target × Expr) → Reader (List (Target × Expr))
  | 0, _ => outOfReach
  | n + 1, done => do
    if isTagEnd (← peek) then pure done.reverse else
    if !done.isEmpty then expect (isSign ",") "comma"
    let t ← singleTarget n
    expect (isSign "=") "assignment operator"
    let e ← expr n
    assignments n ((t, e) :: done)

def parameters : Nat → List (String × Option Expr) → Reader (List (String × Option Expr))
  | 0, _ => outOfReach
  | n + 1, done => do
    if ← skip (isSign ")") then pure done.reverse else
    if !done.isEmpty then expectSign ","
    if ← skip (isSign ")") then pure done.reverse else
    let name ← assignedName
    if ← skip (isSign "=") then
      let e ← expr n
      parameters n ((name, some e) :: done)
    else if done.any (·.2.isSome) then do
      expectSign "="
      pure done.reverse
    else parameters n ((name, none) :: done)

def importedNames : Nat → List (String × String) → Reader (List (String × String))
  | 0, _ => outOfReach
  | n + 1, done => do
    if isTagEnd (← peek) then pure done.reverse else
    if !done.isEmpty then expectSign ","
    if isTagEnd (← peek) then pure done.reverse else
    let name ← assignedName
    let newName ← if ← skip (isKeyword "as") then assignedName else pure name
    importedNames n ((name, newName) :: done)

def contextWords : Reader Unit := do
  if ← skip fun t => isKeyword "with" t || isKeyword "without" t then expect (isKeyword "context") "missing keyword"

def includeTag (n line : Nat) : Reader Stmt := do
  let name ← expr n
  contextWords
  if ← skip (isKeyword "ignore") then
    expect (isKeyword "missing") "missing keyword"
    contextWords
    pure (.include line name true)
  else pure (.include line name false)

/-- Whether one of the words is in front. -/
def anyWord (words : List String) : Option Token → Bool
  | some (.name s) => words.contains s
  | _ => false

/-- What gives a parameter its default: an assignment for the case that no argument came. -/
def defaultOf (line : Nat) : String × Option Expr → Option Stmt
  | (name, some e) => some (.choose (.test line "undefined" (.variable line name) []) [.assign line (.name name) e] [])
  | (_, none) => none

mutual
/-- Statements up to a tag that begins with one of the words, or up to the end. -/
def body : Nat → List String → List Stmt → Reader (List Stmt)
  | 0, _, _ => outOfReach
  | n + 1, ends, done => do
    let start ← currentLine
    match ← next with
    | none => pure done.reverse
    | some (.plain s) => body n ends (.plain s :: done)
    | some .emitStart => do
      let e ← expr n
      expect isEmitEnd "end of variable block"
      body n ends (.emit start e :: done)
    | some .tagStart => do
      match ← peek with
      | none => raise (.unexpected "end of input" (some "keyword"))
      | t =>
        if anyWord ends t then pure done.reverse else
        let s ← deeper (statement n)
        expectTagEnd
        body n ends (s :: done)
    | t => raise (.unexpected (describe t) none)

/-- Statements up to a closing tag of one word, which is taken. -/
def closedBody : Nat → String → Reader (List Stmt)
  | 0, _ => outOfReach
  | n + 1, close => do
    expectTagEnd
    let ss ← body n [close] []
    let _ ← next
    pure ss

def statement : Nat → Reader Stmt
  | 0 => outOfReach
  | n + 1 => do
    let t ← next
    let line := (← get).line
    match t with
    | some (.name "for") => loopTag n line
    | some (.name "if") => chooseTag n
    | some (.name "with") => do
      let values ← assignments n []
      let ss ← closedBody n "endwith"
      pure (.scoped values ss)
    | some (.name "set") => assignTag n line
    | some (.name "autoescape") => do
      let e ← expr n
      let ss ← closedBody n "endautoescape"
      pure (.escaped e ss)
    | some (.name "filter") => do
      let fs ← filterChain n
      let ss ← closedBody n "endfilter"
      pure (.filtered fs ss)
    | some (.name "block") => blockTag n line
    | some (.name "extends") => do
      let e ← expr n
      pure (.inherit line e)
    | some (.name "include") => includeTag n line
    | some (.name "import") => do
      let e ← expr n
      expect (isKeyword "as") "as"
      let name ← assignedName
      contextWords
      pure (.importAs line e (.name name))
    | some (.name "from") => do
      let e ← expr n
      expect (isKeyword "import") "import"
      let names ← importedNames n []
      pure (.importNames line e names)
    | some (.name "macro") => defineTag n line
    | some (.name "do") => do
      let e ← expr n
      pure (.evaluate line e)
    | some (.name s) => raise (.unknownStatement s)
    | t => raise (.notAStatement (describe t))

def loopTag : Nat → Nat → Reader Stmt
  | 0, _ => outOfReach
  | n + 1, line => do
    let t ← target n
    expect (isKeyword "in") "in"
    let source ← binary n .or
    let condition ← if ← skip (isKeyword "if") then do
        let e ← expr n
        pure (some e)
      else pure none
    let recursive ← skip (isKeyword "recursive")
    expectTagEnd
    let ss ← body n ["endfor", "else"] []
    let otherwise ← if ← skip (isKeyword "else") then do
        expectTagEnd
        body n ["endfor"] []
      else pure []
    let _ ← next
    pure (.loop line t source condition recursive ss otherwise)

def chooseTag : Nat → Reader Stmt
  | 0 => outOfReach
  | n + 1 => do
    let condition ← expr n
    expectTagEnd
    let yes ← body n ["endif", "else", "elif"] []
    match ← next with
    | some (.name "else") => do
      expectTagEnd
      let no ← body n ["endif"] []
      let _ ← next
      pure (.choose condition yes no)
    | some (.name "elif") => do
      let s ← chooseTag n
      pure (.choose condition yes [s])
    | _ => pure (.choose condition yes [])

def assignTag : Nat → Nat → Reader Stmt
  | 0, _ => outOfReach
  | n + 1, line => do
    let bracketed := isSign "(" (← peek)
    let t ← singleTarget n
    let front ← peek
    if !bracketed && (isTagEnd front || isSign "|" front) then
      let filters ← if ← skip (isSign "|") then filterChain n else pure []
      let ss ← closedBody n "endset"
      pure (.capture line t filters ss)
    else do
      expect (isSign "=") "assignment operator"
      let e ← expr n
      pure (.assign line t e)

def blockTag : Nat → Nat → Reader Stmt
  | 0, _ => outOfReach
  | n + 1, line => do
    if (← get).inDefinition then raise .blockInDefinition else
    let name ← expectName
    if (← get).blockNames.contains name then raise (.repeatedBlock name) else
    modify fun c => { c with blockNames := name :: c.blockNames }
    let ss ← closedBody n "endblock"
    match ← peek with
    | some (.name s) => if s == name then let _ ← next else raise (.otherBlockEnds s name)
    | _ => pure ()
    modify fun c => { c with blocks := (name, ss) :: c.blocks }
    pure (.block line name)

def defineTag : Nat → Nat → Reader Stmt
  | 0, _ => outOfReach
  | n + 1, line => do
    let outer ← get
    let name ← expectName
    modify fun c => { c with mentioned := [], inDefinition := true }
    expectSign "("
    let ps ← parameters n []
    let ss ← closedBody n "endmacro"
    let mentioned := (← get).mentioned
    modify fun c => { c with mentioned := mentioned ++ outer.mentioned, inDefinition := outer.inDefinition }
    pure (.define line ⟨name, ps.map (·.1), mentioned.eraseDups⟩ (ps.filterMap (defaultOf line) ++ ss))
end

/-- The template of a source, under the name that its faults are given. -/
def read (name source : String) : Except Fault Template :=
  let lexemes := Lexemes.ofText source
  let start : Cursor := ⟨lexemes.items, lexemes.fault, 1, [], [], [], false, 0⟩
  match body (32 * (lexemes.items.length + 2)) [] [] start with
  | .ok (ss, c) => .ok ⟨name, ss, c.blocks.reverse⟩
  | .error (cause, line) => .error ⟨cause, some ⟨name, line⟩⟩

end Folio.Template
