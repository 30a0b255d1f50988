import Folio.Datum
import Folio.Text.Utf8
/-!
# Paths

A path is a sequence of octets, kept as it was written.  What it means is in its parts (`Path.parts`): the separators, empty
segments and every `.` but a leading one are gone, and a leading separator is the root.  Two spellings with the same
parts lead to the same file.

`Path.normal` folds the parts lexically: `.` is dropped and `..` takes back the part before it.
-/
namespace Folio

structure Path where
  octets : Bytes
deriving DecidableEq, Repr

instance : Inhabited Path := ⟨⟨[]⟩⟩

namespace Path

inductive Part where
  | root
  | here
  | up
  | name (octets : Bytes)
deriving DecidableEq, Repr

def separator : UInt8 := 47

def dot : UInt8 := 46

theorem eq_of_octets_eq {p q : Path} (h : p.octets = q.octets) : p = q := by
  cases p
  cases q
  exact congrArg mk h

def ofText (s : String) : Path := ⟨Bytes.ofText s⟩

/-- The path as it is shown, with octets that are not UTF-8 replaced. -/
def text (p : Path) : String := p.octets.toText

/-! ## Parts -/

/-- A stretch between separators, with the place of its first octet. -/
structure Segment where
  start : Nat
  octets : Bytes

def Segment.stop (s : Segment) : Nat := s.start + s.octets.length

/-- All stretches between separators, empty ones included; `place` is that of the first octet. -/
def segmentsFrom (place : Nat) : Bytes → List Segment
  | [] => [⟨place, []⟩]
  | b :: bs =>
    if b = separator then ⟨place, []⟩ :: segmentsFrom (place + 1) bs
    else match segmentsFrom (place + 1) bs with
      | [] => [⟨place, [b]⟩]
      | s :: ss => ⟨place, b :: s.octets⟩ :: ss

def segments (p : Path) : List Segment := segmentsFrom 0 p.octets

def isAbsolute (p : Path) : Bool := p.octets.head? == some separator

def partOfSegment (octets : Bytes) : Option Part :=
  if octets = [] ∨ octets = [dot] then none
  else if octets = [dot, dot] then some .up
  else some (.name octets)

/-- A part with the places where it starts and stops. -/
structure Placed where
  part : Part
  start : Nat
  stop : Nat

def placed (p : Path) : List Placed :=
  let later (ss : List Segment) : List Placed :=
    ss.filterMap fun s => (partOfSegment s.octets).map (⟨·, s.start, s.stop⟩)
  if p.isAbsolute then ⟨.root, 0, 1⟩ :: later p.segments
  else match p.segments with
    | s :: ss => if s.octets = [dot] then ⟨.here, 0, 1⟩ :: later ss else later (s :: ss)
    | [] => []

def parts (p : Path) : List Part := p.placed.map (·.part)

/-- The octets between two places. -/
def slice (p : Path) (start stop : Nat) : Path := ⟨(p.octets.take stop).drop start⟩

/-! ## Building and taking apart -/

/-- Appends below: an absolute path replaces what was there, and one separator is put between. -/
def join (p q : Path) : Path :=
  if q.isAbsolute then q
  else if p.octets = [] ∨ p.octets.getLast? = some separator then ⟨p.octets ++ q.octets⟩
  else ⟨p.octets ++ separator :: q.octets⟩

/-- Without the last part, as written up to the part before; none for the root and for the empty path. -/
def parent? (p : Path) : Option Path :=
  match p.placed.reverse with
  | [] => none
  | last :: before =>
    if last.part = .root then none
    else match before with
      | [] => some ⟨[]⟩
      | b :: _ => some (p.slice 0 b.stop)

def fileName? (p : Path) : Option Bytes :=
  match p.parts.getLast? with
  | some (.name n) => some n
  | _ => none

/-- What a name has after its last dot; none without a dot or with nothing before it. -/
def extensionOfName (name : Bytes) : Option Bytes :=
  let after := name.reverse.takeWhile (· != dot)
  let before := name.reverse.drop (after.length + 1)
  if after.length = name.length ∨ before = [] then none else some after.reverse

def extension? (p : Path) : Option Bytes := p.fileName?.bind extensionOfName

/-- What is left of a path below another one, as written. -/
def below? (p base : Path) : Option Path :=
  let own := p.placed
  let above := base.parts
  if above.isPrefixOf p.parts then
    match own.drop above.length with
    | [] => some ⟨[]⟩
    | first :: rest => some (p.slice first.start ((rest.getLast?).getD first).stop)
  else none

/-! ## Lexical normal form -/

/-- A path that has the given parts, with single separators. -/
def ofParts : List Part → Path
  | [] => ⟨[]⟩
  | .root :: rest => ⟨separator :: body rest⟩
  | rest => ⟨body rest⟩
where
  octetsOf : Part → Bytes
    | .root => [separator]
    | .here => [dot]
    | .up => [dot, dot]
    | .name n => n
  body : List Part → Bytes
    | [] => []
    | [p] => octetsOf p
    | p :: ps => octetsOf p ++ separator :: body ps

/-- One part onto the folded ones: `..` takes back the last part if there is one below the root, and stays otherwise. -/
def fold (out : List Part) : Part → List Part
  | .here => out
  | .root => [.root]
  | .up =>
    match out.getLast? with
    | none | some .root => out ++ [.up]
    | some _ => out.dropLast
  | .name n => out ++ [.name n]

/-- The parts with `.` and `..` folded away from left to right. -/
def folded (ps : List Part) : List Part := ps.foldl fold []

def normal (p : Path) : Path := ofParts (folded p.parts)

/-! ## Shown for inspection -/

/-- Octets as two capital hexadecimal digits each, marked as octets. -/
def octetsShown (bs : Bytes) : String :=
  String.join (bs.map fun b =>
    "\\x" ++ String.ofList ((Nat.toDigits 16 (b.toNat + 256)).drop 1 |>.map Char.toUpper))

/-- Quoted text with octets that are not UTF-8 shown by value; `pending` holds those of the character begun. -/
def shownFrom (p : Option Text.Partial) (pending : Bytes) : Bytes → String
  | [] => octetsShown pending
  | b :: bs =>
    match Text.accepts p b, Text.step p b with
    | true, (c :: _, q) => Text.shownChar c ++ shownFrom q [] bs
    | true, ([], q) => shownFrom q (pending ++ [b]) bs
    | false, _ =>
      match Text.accepts none b, Text.first b.toNat with
      | true, (c :: _, q) => octetsShown pending ++ Text.shownChar c ++ shownFrom q [] bs
      | true, ([], q) => octetsShown pending ++ shownFrom q [b] bs
      | false, _ => octetsShown (pending ++ [b]) ++ shownFrom none [] bs

def shown (p : Path) : String := "\"" ++ shownFrom none [] p.octets ++ "\""

end Path
end Folio
