import Folio.Yaml.Scan
/-!
# The nodes of a YAML document

Tokens are grouped into a tree.  A document that goes wrong still has a tree: up to the fault it is what it would have been,
and at the fault it has a leaf (`Node.broken`) after which every open collection ends.  Whoever reads the tree from
left to right therefore meets a value of the wrong kind before a fault that stands behind it.

An alias holds the number of its anchor, and a document lists the anchored nodes by number, so a node may refer to itself.
-/
namespace Folio.Yaml

inductive Node where
  | scalar (mark : Mark) (tag : Option String) (text : String) (plain : Bool)
  | sequence (mark : Mark) (tag : Option String) (items : List Node)
  | mapping (mark : Mark) (tag : Option String) (entries : List (Node × Node))
  | aliased (mark : Mark) (anchor : Nat)
  | broken (fault : Fault)
deriving Repr

instance : Inhabited Node := ⟨.scalar .origin none "" true⟩

/-- The tokens still to be grouped, and what they may refer to.  `fault` follows the last token; `stuck` says that a fault
was met. -/
structure Grouping where
  tokens : List Token
  fault : Option Fault
  handles : List (String × String)
  anchors : List (String × Nat)
  anchored : List (Nat × Node)
  stuck : Bool

namespace Grouping

/-- Where tokens end without a fault, the last one has said so. -/
def peek (g : Grouping) : Except Fault Token :=
  match g.tokens, g.fault with
  | t :: _, _ => .ok t
  | [], some f => .error f
  | [], none => .ok ⟨.streamEnd, .origin, .origin⟩

def skip (g : Grouping) : Grouping := { g with tokens := g.tokens.drop 1 }

def fail (g : Grouping) (f : Fault) : Node × Grouping := (.broken f, { g with stuck := true })

def empty (mark : Mark) : Node := .scalar mark none "" true

/-- Whether the next token is one of some kinds; a missing token is none. -/
def nextIs (g : Grouping) (p : Kind → Bool) : Bool :=
  match g.peek with
  | .ok t => p t.kind
  | .error _ => false

/-! ## Anchors and tags -/

/-- What stands before the content of a node. -/
structure Properties where
  start : Mark
  anchor : Option String
  tag : Option (String × String × Mark)

/-- An anchor and a tag in either order. -/
def properties (g : Grouping) (start : Mark) : Properties × Grouping :=
  let one (p : Properties) (g : Grouping) : Properties × Grouping :=
    match g.tokens with
    | ⟨.anchor name, _, _⟩ :: _ =>
      if p.anchor.isSome then (p, g) else ({ p with anchor := some name }, g.skip)
    | ⟨.tag handle suffix, mark, _⟩ :: _ =>
      if p.tag.isSome then (p, g) else ({ p with tag := some (handle, suffix, mark) }, g.skip)
    | _ => (p, g)
  let (p, g) := one ⟨start, none, none⟩ g
  one p g

def standardHandles : List (String × String) := [("!", "!"), ("!!", "tag:yaml.org,2002:")]

/-- The full tag. -/
def resolveTag (g : Grouping) (p : Properties) : Except Fault (Option String) :=
  match p.tag with
  | none => .ok none
  | some ("", suffix, _) => .ok (some suffix)
  | some (handle, suffix, mark) =>
    match (g.handles ++ standardHandles).find? (·.1 == handle) with
    | some (_, stem) => .ok (some (stem ++ suffix))
    | none => .error ⟨.undefinedTagHandle, mark, some (.node, p.start)⟩

/-- An anchor is known from the start of its node on; its number counts the names known before. -/
def declare (g : Grouping) (anchor : Option String) : Option Nat × Grouping :=
  match anchor with
  | none => (none, g)
  | some name =>
    let n := g.anchors.length
    (some n, { g with anchors := (name, n) :: g.anchors.filter (·.1 != name) })

def define (g : Grouping) (number : Option Nat) (node : Node) : Node × Grouping :=
  match number with
  | none => (node, g)
  | some n => (node, { g with anchored := (n, node) :: g.anchored })

/-! ## Nodes -/

def isKeyOrEnd (k : Kind) : Bool := k matches .key | .value | .blockEnd

def isEntryOrEnd (k : Kind) : Bool := k matches .blockEntry | .blockEnd

def isIndentlessEnd (k : Kind) : Bool := k matches .blockEntry | .key | .value | .blockEnd

def isFlowSequenceStop (k : Kind) : Bool := k matches .value | .flowEntry | .flowSequenceEnd

def isFlowMappingStop (k : Kind) : Bool := k matches .value | .flowEntry | .flowMappingEnd

mutual
/-- One node.  `block` allows block collections; `indentless` allows a sequence whose dashes are not indented. -/
def node (block indentless : Bool) : Nat → Grouping → Node × Grouping
  | 0, g => g.fail ⟨.nodeContent, .origin, none⟩
  | fuel + 1, g =>
    match g.peek with
    | .error f => g.fail f
    | .ok ⟨.aliased name, mark, _⟩ =>
      match g.anchors.find? (·.1 == name) with
      | some (_, n) => (.aliased mark n, g.skip)
      | none => g.fail ⟨.unknownAnchor, mark, none⟩
    | .ok first =>
      let (p, g) := g.properties first.start
      match g.peek with
      | .error f => g.fail f
      | .ok t =>
        match g.resolveTag p with
        | .error f => g.fail f
        | .ok tag =>
          let (number, g) := g.declare p.anchor
          let collection (r : List Node × Grouping) : Node × Grouping :=
            r.2.define number (.sequence p.start tag r.1)
          let table (r : List (Node × Node) × Grouping) : Node × Grouping :=
            r.2.define number (.mapping p.start tag r.1)
          match t.kind with
          | .scalar text plain =>
            let tag := if tag = some "!" then none else tag
            g.skip.define number (.scalar p.start tag text plain)
          | .flowSequenceStart => collection (flowItems t.start true fuel g.skip)
          | .flowMappingStart => table (flowEntries t.start true fuel g.skip)
          | .blockSequenceStart =>
            if block then collection (blockItems t.start fuel g.skip) else content g p number tag t
          | .blockMappingStart =>
            if block then table (blockEntries t.start fuel g.skip) else content g p number tag t
          | .blockEntry =>
            if indentless then collection (indentlessItems fuel g) else content g p number tag t
          | _ => content g p number tag t
where
  /-- An anchor or a tag may stand alone; anything else needs content. -/
  content (g : Grouping) (p : Properties) (number : Option Nat) (tag : Option String) (t : Token) : Node × Grouping :=
    if p.anchor.isSome || p.tag.isSome then g.define number (.scalar p.start tag "" true)
    else g.fail ⟨.nodeContent, t.start, some (if block then .blockNode else .flowNode, p.start)⟩

def blockItems (start : Mark) : Nat → Grouping → List Node × Grouping
  | 0, g => ([], g)
  | fuel + 1, g =>
    match g.peek with
    | .ok ⟨.blockEntry, _, stop⟩ =>
      let g := g.skip
      let (item, g) := if g.nextIs isEntryOrEnd then (empty stop, g) else node true false fuel g
      if g.stuck then ([item], g)
      else
        let (items, g) := blockItems start fuel g
        (item :: items, g)
    | .ok ⟨.blockEnd, _, _⟩ => ([], g.skip)
    | .ok t =>
      let (leaf, g) := g.fail ⟨.dashIndicator, t.start, some (.blockCollection, start)⟩
      ([leaf], g)
    | .error f =>
      let (leaf, g) := g.fail f
      ([leaf], g)

def indentlessItems : Nat → Grouping → List Node × Grouping
  | 0, g => ([], g)
  | fuel + 1, g =>
    match g.peek with
    | .ok ⟨.blockEntry, _, stop⟩ =>
      let g := g.skip
      let (item, g) := if g.nextIs isIndentlessEnd then (empty stop, g) else node true false fuel g
      if g.stuck then ([item], g)
      else
        let (items, g) := indentlessItems fuel g
        (item :: items, g)
    | .ok _ => ([], g)
    | .error f =>
      let (leaf, g) := g.fail f
      ([leaf], g)

def blockEntries (start : Mark) : Nat → Grouping → List (Node × Node) × Grouping
  | 0, g => ([], g)
  | fuel + 1, g =>
    match g.peek with
    | .ok ⟨.key, _, stop⟩ =>
      let g := g.skip
      let (key, g) := if g.nextIs isKeyOrEnd then (empty stop, g) else node true true fuel g
      if g.stuck then ([(key, key)], g)
      else
        let (value, g) := blockValue fuel g
        if g.stuck then ([(key, value)], g)
        else
          let (entries, g) := blockEntries start fuel g
          ((key, value) :: entries, g)
    | .ok ⟨.blockEnd, _, _⟩ => ([], g.skip)
    | .ok t =>
      let (leaf, g) := g.fail ⟨.expectedKey, t.start, some (.blockMapping, start)⟩
      ([(leaf, leaf)], g)
    | .error f =>
      let (leaf, g) := g.fail f
      ([(leaf, leaf)], g)

def blockValue : Nat → Grouping → Node × Grouping
  | 0, g => (empty .origin, g)
  | fuel + 1, g =>
    match g.peek with
    | .ok ⟨.value, _, stop⟩ =>
      let g := g.skip
      if g.nextIs isKeyOrEnd then (empty stop, g) else node true true fuel g
    | .ok t => (empty t.start, g)
    | .error f => g.fail f

def flowItems (start : Mark) (first : Bool) : Nat → Grouping → List Node × Grouping
  | 0, g => ([], g)
  | fuel + 1, g =>
    let failed (f : Fault) : List Node × Grouping :=
      let (leaf, g) := g.fail f
      ([leaf], g)
    let rest (g : Grouping) : List Node × Grouping :=
      match g.peek with
      | .error f => failed f
      | .ok ⟨.flowSequenceEnd, _, _⟩ => ([], g.skip)
      | .ok ⟨.key, mark, _⟩ =>
        let (pair, g) := flowPair mark fuel g.skip
        if g.stuck then ([pair], g)
        else
          let (items, g) := flowItems start false fuel g
          (pair :: items, g)
      | .ok _ =>
        let (item, g) := node false false fuel g
        if g.stuck then ([item], g)
        else
          let (items, g) := flowItems start false fuel g
          (item :: items, g)
    match g.peek with
    | .error f => failed f
    | .ok ⟨.flowSequenceEnd, _, _⟩ => ([], g.skip)
    | .ok t =>
      if first then rest g
      else if t.kind = .flowEntry then rest g.skip
      else failed ⟨.commaOrBracket, t.start, some (.flowSequence, start)⟩

/-- A single entry of a flow sequence that is a mapping. -/
def flowPair (mark : Mark) : Nat → Grouping → Node × Grouping
  | 0, g => (empty .origin, g)
  | fuel + 1, g =>
    let valueOf (key : Node) (g : Grouping) : Node × Grouping :=
      match g.peek with
      | .error f =>
        let (leaf, g) := g.fail f
        (.mapping mark none [(key, leaf)], g)
      | .ok ⟨.value, _, _⟩ =>
        let g := g.skip
        match g.peek with
        | .ok t =>
          if t.kind matches .flowEntry | .flowSequenceEnd then (.mapping mark none [(key, empty t.start)], g)
          else
            let (value, g) := node false false fuel g
            (.mapping mark none [(key, value)], g)
        | .error f =>
          let (leaf, g) := g.fail f
          (.mapping mark none [(key, leaf)], g)
      | .ok t => (.mapping mark none [(key, empty t.start)], g)
    match g.peek with
    | .error f => g.fail f
    | .ok t =>
      if isFlowSequenceStop t.kind then valueOf (empty t.stop) g.skip
      else
        let (key, g) := node false false fuel g
        if g.stuck then (.mapping mark none [(key, key)], g) else valueOf key g

def flowEntries (start : Mark) (first : Bool) : Nat → Grouping → List (Node × Node) × Grouping
  | 0, g => ([], g)
  | fuel + 1, g =>
    let failed (f : Fault) : List (Node × Node) × Grouping :=
      let (leaf, g) := g.fail f
      ([(leaf, leaf)], g)
    let onward (key value : Node) (g : Grouping) : List (Node × Node) × Grouping :=
      if g.stuck then ([(key, value)], g)
      else
        let (entries, g) := flowEntries start false fuel g
        ((key, value) :: entries, g)
    let withValue (key : Node) (g : Grouping) : List (Node × Node) × Grouping :=
      match g.peek with
      | .error f => let (leaf, g) := g.fail f; ([(key, leaf)], g)
      | .ok ⟨.value, _, _⟩ =>
        let g := g.skip
        match g.peek with
        | .error f => let (leaf, g) := g.fail f; ([(key, leaf)], g)
        | .ok t =>
          if t.kind matches .flowEntry | .flowMappingEnd then onward key (empty t.start) g
          else
            let (value, g) := node false false fuel g
            onward key value g
      | .ok t => onward key (empty t.start) g
    let rest (g : Grouping) : List (Node × Node) × Grouping :=
      match g.peek with
      | .error f => failed f
      | .ok ⟨.flowMappingEnd, _, _⟩ => ([], g.skip)
      | .ok ⟨.key, _, _⟩ =>
        let g := g.skip
        match g.peek with
        | .error f => let (leaf, g) := g.fail f; ([(leaf, leaf)], g)
        | .ok t =>
          if isFlowMappingStop t.kind then withValue (empty t.start) g
          else
            let (key, g) := node false false fuel g
            if g.stuck then ([(key, key)], g) else withValue key g
      | .ok _ =>
        let (key, g) := node false false fuel g
        if g.stuck then ([(key, key)], g)
        else match g.peek with
          | .error f => let (leaf, g) := g.fail f; ([(key, leaf)], g)
          | .ok t => onward key (empty t.start) g
    match g.peek with
    | .error f => failed f
    | .ok ⟨.flowMappingEnd, _, _⟩ => ([], g.skip)
    | .ok t =>
      if first then rest g
      else if t.kind = .flowEntry then rest g.skip
      else failed ⟨.commaOrBrace, t.start, some (.flowMapping, start)⟩
end

end Grouping

/-! ## Documents -/

/-- What follows the first document of a text. -/
inductive Ending where
  | clean
  | fault (f : Fault)
  | another
deriving Repr

/-- The first document of a text; a text without one has no root. -/
structure Document where
  root : Option Node
  anchored : List (Nat × Node)
  ending : Ending

namespace Document

def isDirective (k : Kind) : Bool := k matches .version .. | .tagShorthand ..

/-- Directives up to the start of a document. -/
def directives (g : Grouping) : List Token → Except Fault Grouping
  | ⟨.version major _, mark, _⟩ :: ts =>
    if major ≠ 1 then .error ⟨.incompatibleVersion, mark, none⟩
    else if ts.any (fun t => t.kind matches .version ..) then .error ⟨.duplicateDirective, mark, none⟩
    else directives g.skip ts
  | ⟨.tagShorthand handle uri, _, _⟩ :: ts => directives { g.skip with handles := (handle, uri) :: g.handles } ts
  | _ => .ok g

/-- The document whose content is next. -/
def ofContent (g : Grouping) : Document :=
  let (root, g) := g.node true false (2 * g.tokens.length + 8)
  if g.stuck then ⟨some root, g.anchored, .clean⟩
  else match g.peek with
    | .error f => ⟨some root, g.anchored, .fault f⟩
    | .ok _ =>
      let g := { g with tokens := g.tokens.dropWhile fun t => t.kind matches .documentEnd }
      ⟨some root, g.anchored, if g.nextIs (· matches .streamEnd) then .clean else .another⟩

def ofTokens (tokens : List Token) (fault : Option Fault) : Document :=
  let g : Grouping := ⟨tokens, fault, [], [], [], false⟩
  let broken (f : Fault) : Document := ⟨some (.broken f), [], .clean⟩
  match g.peek with
  | .error f => broken f
  | .ok t =>
    match t.kind with
    | .streamEnd => ⟨none, [], .clean⟩
    | .documentStart | .version .. | .tagShorthand .. =>
      match directives g (g.tokens.takeWhile fun t => isDirective t.kind) with
      | .error f => broken f
      | .ok g =>
        match g.peek with
        | .error f => broken f
        | .ok ⟨.documentStart, _, stop⟩ =>
          let g := g.skip
          if g.nextIs (fun k => isDirective k || k matches .documentStart | .documentEnd | .streamEnd) then
            let rest := g.tokens.dropWhile fun t => t.kind matches .documentEnd
            let ends := ({ g with tokens := rest } : Grouping).nextIs (· matches .streamEnd)
            ⟨some (Grouping.empty stop), [], if ends then .clean else .another⟩
          else ofContent g
        | .ok t => broken ⟨.documentStart, t.start, none⟩
    | _ => ofContent g

def ofText (text : List Char) : Document :=
  let (tokens, fault) := tokens text
  ofTokens tokens fault

end Document
end Folio.Yaml
