/-!
# Faults of templates

What can be wrong with a template, found while it is read or while it is evaluated.  A cause belongs to one kind
(`Cause.kind`), and its words are in one place (`Cause.detail?`).  A fault is a cause with the template and the line
where it was found.
-/
namespace Folio.Template

inductive FaultKind where
  | templateNotFound
  | unserializable
  | source
  | undefinedValue
  | unknownFilter
  | unknownTest
  | unknownFunction
  | unknownMethod
  | unknownBlock
  | invalidOperation
  | badEscape
  | cannotUnpack
  | tooManyArguments
  | missingArgument
  | include
  | block
deriving DecidableEq, Repr

def FaultKind.text : FaultKind → String
  | .templateNotFound => "template not found"
  | .unserializable => "could not serialize to value"
  | .source => "syntax error"
  | .undefinedValue => "undefined value"
  | .unknownFilter => "unknown filter"
  | .unknownTest => "unknown test"
  | .unknownFunction => "unknown function"
  | .unknownMethod => "unknown method"
  | .unknownBlock => "unknown block"
  | .invalidOperation => "invalid operation"
  | .badEscape => "bad string escape"
  | .cannotUnpack => "cannot unpack"
  | .tooManyArguments => "too many arguments"
  | .missingArgument => "missing argument"
  | .include => "could not render include"
  | .block => "could not render block"

inductive Cause where
  /-- A piece of source that cannot stand here, and what could. -/
  | unexpected (found : String) (expected : Option String)
  | unknownStatement (name : String)
  | notAStatement (found : String)
  | reservedName (name : String)
  | repeatedBlock (name : String)
  | otherBlockEnds (found expected : String)
  | blockInDefinition
  | positionalAfterNamed
  | emptySubscript
  | badNumber (kind : String)
  | badEscape
  | sourceTooDeep
  | undefinedValue
  | unknownFilter (name : String)
  | unknownTest (name : String)
  | unknownFunction (name : String)
  | unknownMethod (kind name : String)
  | unknownBlock (name : String)
  | notCallable (kind : String)
  | notIterable (kind : String)
  | operandKinds (operator left right : String)
  | impossible (operator left right : String)
  | notANumber
  | noContainer
  | noLength (kind : String)
  | noJoin (kind : String)
  | noFirst
  | noLast
  | noPairs
  | notAMap
  | notComparable
  | notConvertible (kind target : String)
  | longRange
  | stillRange
  | sliceOf (kind : String)
  | stillSlice
  | width (expected actual : Nat)
  | nothingToUnpack
  | tooManyArguments
  | repeatedArgument (name : String)
  | unknownArgument (name : String)
  | missingArgument
  | templateNameKind
  | missingTemplate (shown : String)
  | missingInclude (shown : String)
  | missingIncludes (shown : String)
  | unreadableTemplate (path : String)
  | cycle (shown : String)
  | secondParent
  | superOutside
  | superOnTop
  | superArguments
  | loopArguments
  | loopOutside
  | assignment (kind : String)
  | tooDeep
  | inInclude (name : String)
  | inSuper
  /-- Whatever a caller's code reports. -/
  | reported (kind : FaultKind) (detail : String)
deriving DecidableEq, Repr

namespace Cause

def kind : Cause → FaultKind
  | .unexpected .. | .unknownStatement _ | .notAStatement _ | .reservedName _ | .repeatedBlock _ | .otherBlockEnds ..
  | .blockInDefinition | .positionalAfterNamed | .emptySubscript | .badNumber _ | .sourceTooDeep => .source
  | .badEscape => .badEscape
  | .undefinedValue => .undefinedValue
  | .unknownFilter _ => .unknownFilter
  | .unknownTest _ => .unknownTest
  | .unknownFunction _ => .unknownFunction
  | .unknownMethod .. => .unknownMethod
  | .unknownBlock _ => .unknownBlock
  | .width .. | .nothingToUnpack => .cannotUnpack
  | .tooManyArguments | .repeatedArgument _ | .unknownArgument _ => .tooManyArguments
  | .missingArgument => .missingArgument
  | .missingTemplate _ | .missingInclude _ | .missingIncludes _ => .templateNotFound
  | .inInclude _ => .include
  | .inSuper => .block
  | .reported kind _ => kind
  | .notCallable _ | .notIterable _ | .operandKinds .. | .impossible .. | .notANumber | .noContainer | .noLength _
  | .noJoin _ | .noFirst | .noLast | .noPairs | .notAMap | .notComparable | .notConvertible .. | .longRange | .stillRange
  | .sliceOf _ | .stillSlice | .templateNameKind | .unreadableTemplate _ | .cycle _ | .secondParent | .superOutside
  | .superOnTop | .superArguments | .loopArguments | .loopOutside | .assignment _ | .tooDeep => .invalidOperation

/-- What is said after the kind. -/
def detail? : Cause → Option String
  | .unexpected found none => some ("unexpected " ++ found)
  | .unexpected found (some expected) => some ("unexpected " ++ found ++ ", expected " ++ expected)
  | .unknownStatement name => some ("unknown statement " ++ name)
  | .notAStatement found => some ("unknown " ++ found ++ ", expected statement")
  | .reservedName name => some ("cannot assign to reserved variable name " ++ name)
  | .repeatedBlock name => some ("block '" ++ name ++ "' defined twice")
  | .otherBlockEnds found expected =>
    some ("mismatching name on block. Got \x60" ++ found ++ "\x60, expected \x60" ++ expected ++ "\x60")
  | .blockInDefinition => some "block tags in macros are not allowed"
  | .positionalAfterNamed => some "non-keyword arg after keyword arg"
  | .emptySubscript => some "empty subscript"
  | .badNumber kind => some ("invalid " ++ kind)
  | .sourceTooDeep => some "template exceeds maximum recursion limits"
  | .unknownFilter name => some ("filter " ++ name ++ " is unknown")
  | .unknownTest name => some ("test " ++ name ++ " is unknown")
  | .unknownFunction name => some (name ++ " is unknown")
  | .unknownMethod kind name => some (kind ++ " has no method named " ++ name)
  | .unknownBlock name => some ("block '" ++ name ++ "' not found")
  | .notCallable kind => some ("value of type " ++ kind ++ " is not callable")
  | .notIterable kind => some (kind ++ " is not iterable")
  | .operandKinds operator left right =>
    some ("tried to use " ++ operator ++ " operator on unsupported types " ++ left ++ " and " ++ right)
  | .impossible operator left right => some ("unable to calculate " ++ left ++ " " ++ operator ++ " " ++ right)
  | .noContainer => some "cannot perform a containment check on this value"
  | .noLength kind => some ("cannot calculate length of value of type " ++ kind)
  | .noJoin kind => some ("cannot join value of type " ++ kind)
  | .noFirst => some "cannot get first item from value"
  | .noLast => some "cannot get last item from value"
  | .noPairs => some "cannot convert value into pair list"
  | .notConvertible kind target => some ("cannot convert " ++ kind ++ " to " ++ target)
  | .longRange => some "range has too many elements"
  | .stillRange => some "cannot create range with step of 0"
  | .sliceOf kind => some ("value of type " ++ kind ++ " cannot be sliced")
  | .stillSlice => some "cannot slice by step size of 0"
  | .width expected actual =>
    some ("sequence of wrong length (expected " ++ toString expected ++ ", got " ++ toString actual ++ ")")
  | .nothingToUnpack => some "value is not iterable"
  | .repeatedArgument name => some ("duplicate argument \x60" ++ name ++ "\x60")
  | .unknownArgument name => some ("unknown keyword argument \x60" ++ name ++ "\x60")
  | .templateNameKind => some "template name was not a string"
  | .missingTemplate shown => some ("template " ++ shown ++ " does not exist")
  | .missingInclude shown => some ("tried to include non-existing template " ++ shown)
  | .missingIncludes shown => some ("tried to include one of multiple templates, none of which existed " ++ shown)
  | .unreadableTemplate path => some ("could not read template " ++ path)
  | .cycle shown => some ("cycle in template inheritance. " ++ shown ++ " was referenced more than once")
  | .secondParent => some "tried to extend a second time in a template"
  | .superOutside => some "cannot super outside of block"
  | .superOnTop => some "no parent block exists"
  | .superArguments => some "super() takes no arguments"
  | .loopArguments => some "loop() takes one argument"
  | .loopOutside => some "cannot recurse outside of loop"
  | .assignment kind => some ("can only assign to namespaces, not " ++ kind)
  | .tooDeep => some "recursion limit exceeded"
  | .inInclude name => some ("error in \"" ++ name ++ "\"")
  | .inSuper => some "error in super block"
  | .reported _ detail => some detail
  | .undefinedValue | .badEscape | .notANumber | .notAMap | .notComparable | .tooManyArguments | .missingArgument => none

end Cause

structure Place where
  template : String
  line : Nat
deriving DecidableEq, Repr

structure Fault where
  cause : Cause
  place : Option Place
deriving DecidableEq, Repr

namespace Fault

/-- The kind, the detail if there is one, and the place if it is known. -/
def message (f : Fault) : String :=
  let detail := match f.cause.detail? with
    | some d => ": " ++ d
    | none => ""
  let place := match f.place with
    | some p => " (in " ++ p.template ++ ":" ++ toString p.line ++ ")"
    | none => ""
  f.cause.kind.text ++ detail ++ place

/-- The first place found stays. -/
def placed (f : Fault) (p : Place) : Fault := { f with place := some (f.place.getD p) }

end Fault
end Folio.Template
