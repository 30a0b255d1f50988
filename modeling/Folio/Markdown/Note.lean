import Folio.Markdown.Block
import Folio.Markdown.Inline
/-!
# Numbering notes

Notes are numbered in the order in which the text first refers to them; notes that it never refers to are left out.
The running text is read in this order too, so that a note's own text takes part where it stands.
-/
namespace Folio.Markdown

/-- A text read block by block. -/
structure Notes where
  /-- The key of each label that has a note, and the label as it is shown. -/
  known : List (List Char × List Char)
  /-- The keys of the references so far, newest first. -/
  uses : List (List Char)
  /-- The text of each note by its key, newest first. -/
  bodies : List (List Char × List (Block (List Inline)))

/-- The members of a list in the order of their last places. -/
def distinct : List (List Char) → List (List Char)
  | [] => []
  | k :: ks => if ks.contains k then distinct ks else k :: distinct ks

namespace Notes

/-- The keys in the order of their first references. -/
def order (n : Notes) : List (List Char) := (distinct n.uses).reverse

/-- Counts a reference; one whose label has no note is text. -/
def refer (label : List Char) (n : Notes) : Inline × Notes :=
  let key := labelKey label
  match n.known.lookup key with
  | some shown =>
    let n := { n with uses := key :: n.uses }
    (.noteRef shown (n.order.idxOf key + 1) (n.uses.count key), n)
  | none => (.text ("[^".toList ++ label ++ [']']), n)

end Notes

mutual

def Inline.number : Inline → Notes → Inline × Notes
  | .noteRef label _ _, n => n.refer label
  | .emphasis body, n => let (body, n) := numberAll body n; (.emphasis body, n)
  | .strong body, n => let (body, n) := numberAll body n; (.strong body, n)
  | .deleted body, n => let (body, n) := numberAll body n; (.deleted body, n)
  | .link address title body, n => let (body, n) := numberAll body n; (.link address title body, n)
  | .image address title body, n => let (body, n) := numberAll body n; (.image address title body, n)
  | i, n => (i, n)

def numberAll : List Inline → Notes → List Inline × Notes
  | [], n => ([], n)
  | i :: is, n =>
    let (i, n) := i.number n
    let (is, n) := numberAll is n
    (i :: is, n)

end

/-- Reads running text. -/
def readText (cx : Context) (cs : List Char) (n : Notes) : List Inline × Notes := numberAll (readInlines cx cs) n

def readCells (cx : Context) : List (List Char) → Notes → List (List Inline) × Notes
  | [], n => ([], n)
  | c :: cs, n =>
    let (c, n) := readText cx c n
    let (cs, n) := readCells cx cs n
    (c :: cs, n)

def readRows (cx : Context) : List (List (List Char)) → Notes → List (List (List Inline)) × Notes
  | [], n => ([], n)
  | r :: rs, n =>
    let (r, n) := readCells cx r n
    let (rs, n) := readRows cx rs n
    (r :: rs, n)

/-- The mark of a task at the front of an item's text, if it is one: whether the task is done, and the text after it. -/
def taskMark? (cs : List Char) : Option (Bool × List Char) :=
  match dropBlank cs with
  | '[' :: c :: ']' :: rest =>
    if (c == ' ' || c == 'x' || c == 'X') && (rest.head?.map isAsciiBlank).getD true then some (c != ' ', rest.tail)
    else none
  | _ => none

/-- Makes a box of a task's mark that stands at the front of an item. -/
def markTask : List (Block (List Inline)) → List (Block (List Inline))
  | .paragraph (.text cs :: is) :: bs =>
    match taskMark? cs with
    | some (isDone, rest) => .task isDone :: .paragraph (Inline.cons (.text rest) is) :: bs
    | none => .paragraph (.text cs :: is) :: bs
  | bs => bs

mutual

/-- Reads the running text of a block.  A note goes to the notes and leaves nothing behind. -/
def Block.read (cx : Context) : Block (List Char) → Notes → List (Block (List Inline)) × Notes
  | .paragraph body, n => let (body, n) := readText cx body n; ([.paragraph body], n)
  | .heading level body, n => let (body, n) := readText cx body n; ([.heading level body], n)
  | .code info literal, n => ([.code info literal], n)
  | .html literal, n => ([.html literal], n)
  | .rule, n => ([.rule], n)
  | .table columns head rows, n =>
    let (head, n) := readCells cx head n
    let (rows, n) := readRows cx rows n
    ([.table columns head rows], n)
  | .quote body, n => let (body, n) := readAll cx body n; ([.quote body], n)
  | .list start tight items, n => let (items, n) := readItems cx items n; ([.list start tight items], n)
  | .task isDone, n => ([.task isDone], n)
  | .note label body, n =>
    let (body, n) := readAll cx body n
    ([], { n with bodies := (labelKey label, body) :: n.bodies })

def readAll (cx : Context) : List (Block (List Char)) → Notes → List (Block (List Inline)) × Notes
  | [], n => ([], n)
  | b :: bs, n =>
    let (b, n) := b.read cx n
    let (bs, n) := readAll cx bs n
    (b ++ bs, n)

def readItems (cx : Context) : List (List (Block (List Char))) → Notes → List (List (Block (List Inline))) × Notes
  | [], n => ([], n)
  | i :: is, n =>
    let (i, n) := readAll cx i n
    let (is, n) := readItems cx is n
    ((if cx.options.tasklist then markTask i else i) :: is, n)

end

/-- A note that the text refers to. -/
structure Footnote where
  label : List Char
  number : Nat
  uses : Nat
  body : List (Block (List Inline))

/-- A whole text, read. -/
structure Document where
  body : List (Block (List Inline))
  footnotes : List Footnote

namespace Notes

/-- The notes that were referred to, in order. -/
def footnotes (n : Notes) : List Footnote :=
  n.order.zipIdx.map fun (key, i) =>
    ⟨(n.known.lookup key).getD key, i + 1, n.uses.count key, (n.bodies.lookup key).getD []⟩

end Notes

def read (o : Options) (text : List Char) : Document :=
  let r := readBlocks o text
  let (body, n) := readAll ⟨o, r.targets⟩ (blocksOf r.body) ⟨r.notes, [], []⟩
  ⟨body, n.footnotes⟩

end Folio.Markdown
