import Folio.Markdown.Options
import Folio.Markdown.Line
import Folio.Markdown.Link
import Folio.Markdown.Row
import Folio.Markdown.Tag
/-!
# Reading blocks

A text is read line by line.  At any time some blocks are open: containers, each within the one before it (`Frame`),
and within the innermost at most one block that holds lines (`Leaf`).  A line first says which of the open
blocks it belongs to (`Reader.follow`), then which blocks it starts (`start?`), and what is left of it is text.  A
block to which a line does not belong is closed, except that a line of plain text goes on a paragraph from
within containers to which it does not belong.

A list is loose if a blank line stands between two of its items or between two blocks of one, so finished blocks
remember whether a blank line follows them.
-/
namespace Folio.Markdown

/-! ## Open blocks -/

/-- A block that is finished, and whether a blank line ends it. -/
structure Done where
  block : Block (List Char)
  gap : Bool

def blocksOf (newest : List Done) : List (Block (List Char)) := newest.reverse.map (·.block)

/-- The blocks of a list's item, newest first, and whether a blank line ends it. -/
structure Item where
  body : List Done
  gap : Bool

namespace Item

/-- Whether the item makes its list loose. -/
def isLoose (isLast : Bool) (i : Item) : Bool := if isLast then i.body.tail.any (·.gap) else i.gap || i.body.any (·.gap)

/-- Whether the item or its last block is ended by a blank line. -/
def trails (i : Item) : Bool := i.gap || (i.body.head?.map (·.gap)).getD false

end Item

/-- What stands before an item: a bullet, or a number and the sign that closes it. -/
inductive Marker where
  | bullet (c : Char)
  | number (n : Nat) (closing : Char)
deriving DecidableEq, Repr

namespace Marker

/-- Whether two items with these markers belong to one list. -/
def goesOn : Marker → Marker → Bool
  | bullet c, bullet d => c == d
  | number _ c, number _ d => c == d
  | _, _ => false

def start : Marker → Option Nat
  | bullet _ => none
  | number n _ => some n

end Marker

/-- An item to which lines belong that are indented by some columns. -/
structure OpenItem where
  indent : Nat
  item : Item

/-- An open container.  Its finished blocks stand newest first. -/
inductive Frame where
  | quote (body : List Done)
  | list (marker : Marker) (items : List Item) (gap : Bool) (current : Option OpenItem)
  | note (label : List Char) (body : List Done) (gap : Bool)

/-- The marks that open a block of code: lines lose the indentation that the opening line had. -/
structure Fence where
  mark : Char
  length : Nat
  indent : Nat
deriving DecidableEq, Repr

/-- An open block of lines, which stand newest first. -/
inductive Leaf where
  /-- `hadRow` says that a line looks like the second of a table but does not fit the line before it. -/
  | paragraph (lines : List (List Char)) (hadRow : Bool)
  | fenced (fence : Fence) (info : List Char) (lines : List (List Char))
  | indented (lines : List (List Char))
  | html (ending : HtmlEnd) (lines : List (List Char))
  | table (columns : List Alignment) (head : List (List Char)) (rows : List (List (List Char)))
  /-- A rule stays open, so that a blank line after it in an item does not make the list loose. -/
  | rule

/-- What has been read of a text. -/
structure Reader where
  options : Options
  /-- Open containers, innermost first. -/
  frames : List Frame
  leaf : Option Leaf
  /-- Finished blocks that stand in no container, newest first. -/
  body : List Done
  targets : Targets
  /-- The notes defined: the key of each label, and the label as it is shown; newest first. -/
  notes : List (List Char × List Char)

/-! ## Closing -/

/-- Lines, newest first, with a line break after each. -/
def literal (lines : List (List Char)) : List Char := lines.reverse.flatMap (· ++ ['\n'])

/-- Lines, newest first, with line breaks between them. -/
def joined (lines : List (List Char)) : List Char := (literal lines).dropLast

namespace Frame

/-- Puts a finished block into the container; a list takes it into its open item. -/
def push (d : Done) : Frame → Frame
  | quote body => quote (d :: body)
  | list marker items gap (some ⟨indent, item⟩) =>
    list marker items gap (some ⟨indent, { item with body := d :: item.body }⟩)
  | list marker items gap none => list marker items gap none
  | note label body gap => note label (d :: body) gap

/-- Finishes the open item of a list. -/
def closeItem : Frame → Frame
  | list marker items gap (some ⟨_, item⟩) => list marker (item :: items) gap none
  | f => f

def finish : Frame → Done
  | quote body => ⟨.quote (blocksOf body), false⟩
  | note label body gap => ⟨.note label (blocksOf body), gap⟩
  | list marker items gap current =>
    let items := match current with
      | some c => c.item :: items
      | none => items
    let isLoose := (items.head?.map (·.isLoose true)).getD false || items.tail.any (·.isLoose false)
    ⟨.list marker.start (!isLoose) (items.reverse.map fun i => blocksOf i.body),
      gap || (items.head?.map (·.trails)).getD false⟩

end Frame

def isBlankLine (cs : List Char) : Bool := cs.all isIndentChar

namespace Leaf

/-- The finished block, if there is one, and the targets that a paragraph's first lines define. -/
def finish : Leaf → Targets × Option Done
  | paragraph lines _ =>
    let text := joined lines
    let (targets, text) := definitions text.length text
    (targets, if text.all isAsciiBlank then none else some ⟨.paragraph text, false⟩)
  | fenced _ info lines => ([], some ⟨.code info (literal lines), false⟩)
  | indented lines =>
    ([], some ⟨.code [] (literal (lines.dropWhile isBlankLine)), (lines.head?.map isBlankLine).getD false⟩)
  | html _ lines => ([], some ⟨.html (literal lines), (lines.head?.map isBlankLine).getD false⟩)
  | table columns head rows => ([], some ⟨.table columns head rows.reverse, rows.isEmpty⟩)
  | rule => ([], some ⟨.rule, false⟩)

end Leaf

namespace Reader

def start (options : Options) : Reader := ⟨options, [], none, [], [], []⟩

def push (r : Reader) (d : Done) : Reader :=
  match r.frames with
  | [] => { r with body := d :: r.body }
  | f :: outer => { r with frames := f.push d :: outer }

def closeLeaf (r : Reader) : Reader :=
  match r.leaf with
  | none => r
  | some leaf =>
    let (targets, block) := leaf.finish
    let r := { r with leaf := none, targets := r.targets ++ targets }
    (block.map r.push).getD r

def closeFrame (r : Reader) : Reader :=
  match r.frames with
  | [] => r
  | f :: outer => { r with frames := outer }.push f.finish

def closeFrames : Nat → Reader → Reader
  | 0, r => r
  | n + 1, r => closeFrames n r.closeFrame

/-- Closes the blocks within the `kept` outermost containers, and the item of the innermost of these if it ends. -/
def closeTo (r : Reader) (kept : Nat) (itemEnds : Bool) : Reader :=
  let r := closeFrames (r.frames.length - kept) r.closeLeaf
  match r.frames with
  | f :: outer => if itemEnds then { r with frames := f.closeItem :: outer } else r
  | [] => r

/-- Makes room for a block that is no item: a list without an open item is closed. -/
def leaveList (r : Reader) : Reader :=
  match r.frames with
  | .list _ _ _ none :: _ => r.closeFrame
  | _ => r

end Reader

/-! ## Blank lines -/

namespace Frame

/-- The container after a line that does not end in it as a blank one. -/
def calm : Frame → Frame
  | quote body => quote body
  | list marker items _ current =>
    list marker items false (current.map fun c => { c with item := { c.item with gap := false } })
  | note label body _ => note label body false

end Frame

/-- Notes that a blank line follows the newest block. -/
def markGap : List Done → List Done
  | d :: ds => { d with gap := true } :: ds
  | [] => []

namespace Frame

/-- The innermost container after a blank line.  The line that starts an item does not end it, though nothing follow
the marker. -/
def blank (isFresh : Bool) : Frame → Frame
  | quote body => quote (markGap body)
  | list marker items _ (some ⟨indent, item⟩) =>
    list marker items false (some ⟨indent, ⟨markGap item.body, !isFresh⟩⟩)
  | list marker (i :: items) _ none => list marker ({ i with gap := true } :: items) true none
  | list marker [] _ none => list marker [] true none
  | note label body _ => note label (markGap body) true

end Frame

namespace Reader

def calm (r : Reader) : Reader := { r with frames := r.frames.map Frame.calm }

def blank (r : Reader) (isFresh : Bool) : Reader :=
  match r.frames with
  | [] => { r with body := markGap r.body }
  | f :: outer => { r with frames := f.blank isFresh :: outer.map Frame.calm }

end Reader

/-! ## Lines that go on open blocks -/

/-- What is left of a line that belongs to a quotation. -/
def quoted? (l : Line) : Option Line :=
  if l.indent ≤ 3 && l.content.head? == some '>' then some ((l.unindented.skip 1).pass 1) else none

/-- What is left of a line that belongs to a container; `holdsMore` says that an open block stands within it. -/
def Frame.enter? (holdsMore : Bool) (l : Line) : Frame → Option Line
  | .quote _ => quoted? l
  | .list _ _ _ none => none
  | .list _ _ _ (some ⟨indent, item⟩) =>
    if indent ≤ l.indent then some (l.pass indent)
    else if l.isBlank && (holdsMore || !item.body.isEmpty) then some l.unindented
    else none
  | .note _ _ _ =>
    if 4 ≤ l.indent then some (l.pass 4) else if l.column = 0 && l.rest.isEmpty then some l else none

def Frame.isList : Frame → Bool
  | .list _ _ _ _ => true
  | _ => false

/-- How many of the containers, outermost first, a line belongs to, whether it belongs to the last of these as
a list whose item it ends, and what is left of it. -/
def followFrames (hasLeaf : Bool) : List Frame → Line → Nat × Bool × Line
  | [], l => (0, false, l)
  | f :: inner, l =>
    match f.enter? (hasLeaf || !inner.isEmpty) l with
    | some rest =>
      let (kept, itemEnds, l) := followFrames hasLeaf inner rest
      (kept + 1, itemEnds, l)
    | none => if f.isList then (1, true, l) else (0, false, l)

/-- Whether a line's content closes a block of code. -/
def Fence.isClosedBy (f : Fence) (content : List Char) : Bool :=
  let run := content.takeWhile (· == f.mark)
  f.length ≤ run.length && (content.drop run.length).all isIndentChar

/-- How a line relates to an open block of lines. -/
inductive Follow where
  | belongs (l : Line)
  | ends
  | leaves

def Leaf.follow (l : Line) : Leaf → Follow
  | .paragraph _ _ => if l.isBlank then .leaves else .belongs l
  | .fenced fence _ _ =>
    if l.indent ≤ 3 && fence.isClosedBy l.content then .ends else .belongs (l.pass fence.indent)
  | .indented _ => if 4 ≤ l.indent then .belongs (l.pass 4) else if l.isBlank then .belongs l.unindented else .leaves
  | .html .beforeBlank _ => if l.isBlank then .leaves else .belongs l
  | .html (.withLine _) _ => .belongs l
  | .table _ _ _ => if (cells? l.content).isSome then .belongs l else .leaves
  | .rule => .belongs l

/-! ## Lines that start blocks -/

/-- A block that starts in a line, with what is left of the line. -/
inductive Start where
  | quote (rest : Line)
  | heading (level : Nat) (text : List Char)
  | fenced (fence : Fence) (info : List Char)
  | html (ending : HtmlEnd) (line : Line)
  /-- The paragraph before is a heading. -/
  | underline (level : Nat) (line : Line)
  | rule
  | note (label : List Char) (rest : Line)
  | item (marker : Marker) (indent : Nat) (rest : Line)
  | indented (rest : Line)
  /-- The last line of the paragraph before is the head of a table. -/
  | table (columns : List Alignment) (head : List (List Char)) (before : List (List Char))
  | row (cells : List (List Char))

def heading? (content : List Char) : Option Start :=
  let level := (content.takeWhile (· == '#')).length
  let rest := content.drop level
  if 1 ≤ level && level ≤ 6 && (rest.head?.map isIndentChar).getD true then
    let text := strip rest
    let body := (text.reverse.dropWhile (· == '#')).reverse
    let isClosed := (body.getLast?.map isIndentChar).getD true
    some (.heading level (if isClosed then strip body else text))
  else none

def fence? (l : Line) : Option Start :=
  match l.content with
  | [] => none
  | c :: cs =>
    let length := ((c :: cs).takeWhile (· == c)).length
    let info := (c :: cs).drop length
    if (c == '\x60' && !info.contains c || c == '~') && 3 ≤ length then
      some (.fenced ⟨c, length, l.indent⟩ (plain (strip info)))
    else none

def underline? (l : Line) : Option Start :=
  let isRunOf (c : Char) : Bool :=
    let run := l.content.takeWhile (· == c)
    !run.isEmpty && (l.content.drop run.length).all isIndentChar
  if isRunOf '=' then some (.underline 1 l) else if isRunOf '-' then some (.underline 2 l) else none

def isRule (content : List Char) : Bool :=
  ['*', '-', '_'].any fun c => content.all (fun d => d == c || isIndentChar d) && 3 ≤ content.count c

def note? (l : Line) : Option Start :=
  match l.content with
  | '[' :: '^' :: cs =>
    let label := cs.takeWhile fun c => c != ']' && c != ' ' && c != '\t'
    if !label.isEmpty && [']', ':'].isPrefixOf (cs.drop label.length) then
      some (.note label (l.unindented.skip (label.length + 4)).unindented)
    else none
  | _ => none

/-- The marker of an item at the front of a line's content, and how long it is. -/
def marker? (content : List Char) : Option (Marker × Nat) :=
  let digits := content.takeWhile Char.isDigit
  match content.drop digits.length with
  | c :: _ =>
    if digits.isEmpty then (if ['*', '-', '+'].contains c then some (.bullet c, 1) else none)
    else if digits.length ≤ 9 && (c == '.' || c == ')') then
      (Number.natural? 10 digits).map fun n => (.number n c, digits.length + 1)
    else none
  | [] => none

/-- An item.  Right after a paragraph's line, one without text does not count, and no number but one. -/
def item? (inParagraph : Bool) (l : Line) : Option Start :=
  (marker? l.content).bind fun (marker, width) =>
    let after := l.unindented.skip width
    let gap := after.indent
    let startsLate := match marker with
      | .number n _ => n != 1
      | .bullet _ => false
    if gap = 0 && !after.isBlank || inParagraph && (startsLate || after.isBlank) then none
    else if 1 ≤ gap && gap ≤ 4 && !after.isBlank then
      some (.item marker (l.indent + width + gap) (after.pass gap))
    else some (.item marker (l.indent + width + 1) (after.pass 1))

/-- What an open block that a line belongs to lets the line start. -/
inductive Setting where
  /-- No block of lines; `inText` says that a paragraph is open that the line does not belong to. -/
  | container (inText : Bool)
  | paragraph (lines : List (List Char)) (hadRow : Bool)
  | table (columns : Nat)

def Setting.isParagraph : Setting → Bool
  | .paragraph _ _ => true
  | _ => false

/-- Whether a line that starts no other block goes on a paragraph. -/
def Setting.inText : Setting → Bool
  | .container inText => inText
  | .paragraph _ _ => true
  | .table _ => false

def tablePart? (setting : Setting) (l : Line) : Option Start :=
  match setting with
  | .container _ => none
  | .paragraph lines hadRow =>
    match lines with
    | [] => none
    | last :: before =>
      if hadRow then none
      else match alignments? l.content, cells? last with
        | some columns, some head =>
          if columns.length = head.length then some (.table columns head before) else none
        | _, _ => none
  | .table columns => if l.isBlank then none else (cells? l.content).map fun cells => .row (fitRow columns cells)

/-- The block that a line starts. -/
def start? (o : Options) (setting : Setting) (l : Line) : Option Start :=
  if 4 ≤ l.indent then
    if setting.inText || l.isBlank then none else some (.indented (l.pass 4))
  else
    ((quoted? l).map Start.quote).or <| (heading? l.content).or <| (fence? l).or <|
    ((htmlBlock? setting.isParagraph l.content).map (Start.html · l)).or <|
    (if setting.isParagraph then underline? l else none).or <|
    (if isRule l.content then some .rule else none).or <|
    (if o.footnotes then note? l else none).or <|
    (item? setting.isParagraph l).or <|
    (if o.tables then tablePart? setting l else none)

/-! ## Reading a line -/

namespace Reader

/-- The line as it ends up once no further block starts in it. -/
def addText (r : Reader) (l : Line) : Reader :=
  if l.isBlank then r.blank true
  else { r.leaveList with leaf := some (.paragraph [l.content] false) }.calm

/-- Starts a block; what is left of the line, if more blocks may start in it. -/
def begin (r : Reader) : Start → Reader × Option Line
  | .quote rest =>
    let r := r.closeLeaf.leaveList
    ({ r with frames := .quote [] :: r.frames }, some rest)
  | .heading level text => (r.closeLeaf.leaveList.push ⟨.heading level text, false⟩, none)
  | .fenced fence info => ({ r.closeLeaf.leaveList with leaf := some (.fenced fence info []) }, none)
  | .html ending line =>
    let r := { r.closeLeaf.leaveList with leaf := some (.html ending [line.rest]) }
    (if ending.isLast line.content then r.closeLeaf else r, none)
  | .underline level line =>
    match r.leaf with
    | some (.paragraph lines hadRow) =>
      let text := joined lines
      let (targets, text) := definitions text.length text
      let r := { r with targets := r.targets ++ targets, leaf := none }
      if text.all isAsciiBlank then ({ r with leaf := some (.paragraph [line.content] hadRow) }, none)
      else (r.push ⟨.heading level text, false⟩, none)
    | _ => (r, none)
  | .rule => ({ r.closeLeaf.leaveList with leaf := some .rule }, none)
  | .note label rest =>
    let r := r.closeLeaf.leaveList
    ({ r with frames := .note label [] false :: r.frames, notes := (labelKey label, tidyLabel label) :: r.notes },
      some rest)
  | .item marker indent rest =>
    let r := r.closeLeaf
    let current := some ⟨indent, [], false⟩
    match r.frames with
    | .list m items gap none :: outer =>
      if m.goesOn marker then ({ r with frames := .list m items gap current :: outer }, some rest)
      else
        let r := r.closeFrame
        ({ r with frames := .list marker [] false current :: r.frames }, some rest)
    | frames => ({ r with frames := .list marker [] false current :: frames }, some rest)
  | .indented rest => ({ r.closeLeaf.leaveList with leaf := some (.indented [rest.rest]) }, none)
  | .table columns head before =>
    let r := { r with leaf := some (.table columns head []) }
    (if before.isEmpty then r else r.push ⟨.paragraph (strip (joined before)), false⟩, none)
  | .row cells =>
    match r.leaf with
    | some (.table columns head rows) => ({ r with leaf := some (.table columns head (cells :: rows)) }, none)
    | _ => (r, none)

/-- Starts a block and those that start in what is left of the line; `fuel` bounds the characters left. -/
def beginAll : Nat → Reader → Start → Reader
  | fuel + 1, r, s =>
    match r.begin s with
    | (r, none) => r.calm
    | (r, some l) =>
      match start? r.options (.container false) l with
      | some s => beginAll fuel r s
      | none => r.addText l
  | 0, r, _ => r

/-- The setting in which a line may start blocks. -/
def setting (r : Reader) (inLeaf : Bool) : Setting :=
  match r.leaf with
  | some (.paragraph lines hadRow) => if inLeaf then .paragraph lines hadRow else .container true
  | some (.table columns _ _) => if inLeaf then .table columns.length else .container false
  | _ => .container false

/-- A line that belongs to `kept` containers and, if `inLeaf`, to the open block of lines, which may start others. -/
def place (r : Reader) (kept : Nat) (itemEnds inLeaf : Bool) (l : Line) : Reader :=
  match start? r.options (r.setting inLeaf) l with
  | some s => beginAll (l.rest.length + 1) (if inLeaf then r else r.closeTo kept itemEnds) s
  | none =>
    match r.leaf, l.isBlank with
    | some (.paragraph lines hadRow), false =>
      let hadRow := hadRow || (inLeaf && l.indent ≤ 3 && (alignments? l.content).isSome)
      { r with leaf := some (.paragraph ((if inLeaf then l.content else l.rest) :: lines) hadRow) }.calm
    | some .rule, true => if inLeaf then r.calm else (r.closeTo kept itemEnds).blank false
    | _, true => (r.closeTo kept itemEnds).blank false
    | _, false => (r.closeTo kept itemEnds).addText l

def readLine (r : Reader) (text : List Char) : Reader :=
  let (kept, itemEnds, l) := followFrames r.leaf.isSome r.frames.reverse (.start text)
  if kept < r.frames.length || itemEnds then r.place kept itemEnds false l
  else match r.leaf with
    | none => r.place kept false false l
    | some leaf =>
      match leaf.follow l, leaf with
      | .leaves, _ => r.place kept false false l
      | .ends, _ => r.closeLeaf
      | .belongs l, .fenced fence info lines => { r with leaf := some (.fenced fence info (l.rest :: lines)) }.calm
      | .belongs l, .indented lines => { r with leaf := some (.indented (l.rest :: lines)) }.calm
      | .belongs l, .html ending lines =>
        let r := { r with leaf := some (.html ending (l.rest :: lines)) }.calm
        if ending.isLast l.content then r.closeLeaf else r
      | .belongs l, _ => r.place kept false true l

/-- Closes what is still open.  Where the last line has no line break, an open block of code gets none either. -/
def finish (r : Reader) (isBroken : Bool) : Reader :=
  let r := match r.leaf, isBroken with
    | some (.fenced _ info lines), false => { r with leaf := none }.push ⟨.code info (joined lines), false⟩
    | _, _ => r.closeLeaf
  closeFrames r.frames.length r

end Reader

/-- The blocks of a text; what is defined in it stands beside them. -/
def readBlocks (o : Options) (text : List Char) : Reader :=
  let text := if text.head? == some '\uFEFF' then text.tail else text
  let parts := stretches (unifyBreaks text)
  let isBroken := (parts.getLast?.map List.isEmpty).getD true
  ((if isBroken then parts.dropLast else parts).foldl Reader.readLine (.start o)).finish isBroken

end Folio.Markdown
