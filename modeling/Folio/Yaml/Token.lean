/-!
# Tokens of a YAML text

What a YAML text is cut into, with the places where each token starts and stops, and the ways in which cutting it up and
grouping the tokens can fail.
-/
namespace Folio.Yaml

/-- A place in a text, counted from zero. -/
structure Mark where
  index : Nat
  line : Nat
  column : Nat
deriving DecidableEq, Repr, Inhabited

namespace Mark

def origin : Mark := ⟨0, 0, 0⟩

def next (m : Mark) : Mark := ⟨m.index + 1, m.line, m.column + 1⟩

/-- After `n` characters of one line. -/
def skip (m : Mark) (n : Nat) : Mark := ⟨m.index + n, m.line, m.column + n⟩

/-- After a line break of `n` characters. -/
def newline (m : Mark) (n : Nat) : Mark := ⟨m.index + n, m.line + 1, 0⟩

/-- The very first place is not worth naming. -/
def isOrigin (m : Mark) : Bool := m.line == 0 && m.column == 0

def text (m : Mark) : String := "line " ++ toString (m.line + 1) ++ " column " ++ toString (m.column + 1)

end Mark

/-! ## Failures -/

/-- What was being read when a text turned out not to be YAML. -/
inductive Activity where
  | simpleKey | plainScalar | quotedScalar | quotedEscape | blockScalar | anchor | aliased | tag | tagUri
  | directive | nextToken | node | blockNode | flowNode | blockCollection | blockMapping | flowSequence | flowMapping
deriving DecidableEq, Repr

def Activity.text : Activity → String
  | .simpleKey => "while scanning a simple key"
  | .plainScalar => "while scanning a plain scalar"
  | .quotedScalar => "while scanning a quoted scalar"
  | .quotedEscape => "while parsing a quoted scalar"
  | .blockScalar => "while scanning a block scalar"
  | .anchor => "while scanning an anchor"
  | .aliased => "while scanning an alias"
  | .tag => "while scanning a tag"
  | .tagUri => "while parsing a tag"
  | .directive => "while scanning a directive"
  | .nextToken => "while scanning for the next token"
  | .node => "while parsing a node"
  | .blockNode => "while parsing a block node"
  | .flowNode => "while parsing a flow node"
  | .blockCollection => "while parsing a block collection"
  | .blockMapping => "while parsing a block mapping"
  | .flowSequence => "while parsing a flow sequence"
  | .flowMapping => "while parsing a flow mapping"

/-- What is wrong at a place. -/
inductive Problem where
  | controlCharacter | missingColon | noBlockEntryHere | noKeyHere | noValueHere | badStart | anchorName
  | documentIndicator | endOfStream | unknownEscape | hexadecimal | escapeCode | unexpectedColon | tabIndentation
  | zeroIndentation | commentOrBreak | tabInBlockScalar | tagEnd | blankAfterTag | tagUri | tagHandle | directiveName
  | unknownDirective | directiveCharacter | versionNumber | incompatibleVersion | duplicateDirective
  | documentStart | undefinedTagHandle | unknownAnchor | nodeContent | dashIndicator | expectedKey | commaOrBracket | commaOrBrace
deriving DecidableEq, Repr

def Problem.text : Problem → String
  | .controlCharacter => "control characters are not allowed"
  | .missingColon => "could not find expected ':'"
  | .noBlockEntryHere => "block sequence entries are not allowed in this context"
  | .noKeyHere => "mapping keys are not allowed in this context"
  | .noValueHere => "mapping values are not allowed in this context"
  | .badStart => "found character that cannot start any token"
  | .anchorName => "did not find expected alphabetic or numeric character"
  | .documentIndicator => "found unexpected document indicator"
  | .endOfStream => "found unexpected end of stream"
  | .unknownEscape => "found unknown escape character"
  | .hexadecimal => "did not find expected hexdecimal number"
  | .escapeCode => "found invalid Unicode character escape code"
  | .unexpectedColon => "found unexpected ':'"
  | .tabIndentation => "found a tab character that violates indentation"
  | .zeroIndentation => "found an indentation indicator equal to 0"
  | .commentOrBreak => "did not find expected comment or line break"
  | .tabInBlockScalar => "found a tab character where an indentation space is expected"
  | .tagEnd => "did not find the expected '>'"
  | .blankAfterTag => "did not find expected whitespace or line break"
  | .tagUri => "did not find expected tag URI"
  | .tagHandle => "did not find expected '!'"
  | .directiveName => "could not find expected directive name"
  | .unknownDirective => "found unknown directive name"
  | .directiveCharacter => "found unexpected non-alphabetical character"
  | .versionNumber => "did not find expected version number"
  | .incompatibleVersion => "found incompatible YAML document"
  | .duplicateDirective => "found duplicate %YAML directive"
  | .documentStart => "did not find expected <document start>"
  | .undefinedTagHandle => "found undefined tag handle"
  | .unknownAnchor => "unknown anchor"
  | .nodeContent => "did not find expected node content"
  | .dashIndicator => "did not find expected '-' indicator"
  | .expectedKey => "did not find expected key"
  | .commaOrBracket => "did not find expected ',' or ']'"
  | .commaOrBrace => "did not find expected ',' or '\x7d'"

/-- A problem, where it is, and what was being read there since when. -/
structure Fault where
  problem : Problem
  mark : Mark
  activity : Option (Activity × Mark)
deriving DecidableEq, Repr

/-- A character that no text may hold is placed by the octets before it, everything else by line and column. -/
def Fault.message (f : Fault) : String :=
  let place :=
    if f.problem = .controlCharacter then if f.mark.index = 0 then "" else " at position " ++ toString f.mark.index
    else if f.mark.isOrigin then "" else " at " ++ f.mark.text
  let context := match f.activity with
    | none => ""
    | some (a, since) =>
      ", " ++ a.text ++
        (if since.isOrigin || (since.line == f.mark.line && since.column == f.mark.column) then "" else " at " ++ since.text)
  f.problem.text ++ place ++ context

/-! ## Tokens -/

inductive Kind where
  | version (major minor : Nat)
  | tagShorthand (handle uri : String)
  | documentStart | documentEnd
  | blockSequenceStart | blockMappingStart | blockEnd
  | flowSequenceStart | flowSequenceEnd | flowMappingStart | flowMappingEnd
  | blockEntry | flowEntry | key | value
  | aliased (name : String) | anchor (name : String)
  | tag (handle suffix : String)
  | scalar (text : String) (plain : Bool)
  | streamEnd
deriving DecidableEq, Repr

structure Token where
  kind : Kind
  start : Mark
  stop : Mark
deriving DecidableEq, Repr

end Folio.Yaml
