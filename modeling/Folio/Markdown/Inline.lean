import Folio.Markdown.Options
import Folio.Markdown.Tag
import Folio.Markdown.Link
import Folio.Markdown.Autolink
import Folio.Markdown.Emphasis
/-!
# Reading running text

The text of a block is read once from left to right into pieces.  A closing bracket looks back for the bracket it closes
and forward for a target; if both are there, the pieces between become a link.  What is left at the end, runs that open
or close stretches, is paired by `resolve`.
-/
namespace Folio.Markdown

/-- What the reading of running text depends on. -/
structure Context where
  options : Options
  targets : Targets

/-- Running text read so far. -/
structure Scan where
  /-- The characters read, newest first. -/
  past : List Char
  /-- Those at the end that are plain text, newest first. -/
  words : List Char
  /-- What stands before them, newest first. -/
  pieces : List Piece
  /-- A bracket was opened and none closed since. -/
  inBrackets : Bool

namespace Scan

def empty : Scan := ⟨[], [], [], false⟩

/-- All that was read as pieces, newest first. -/
def all (s : Scan) : List Piece :=
  if s.words.isEmpty then s.pieces else .inline (.text s.words.reverse) :: s.pieces

def add (s : Scan) (p : Piece) : Scan := { s with words := [], pieces := p :: s.all }

def write (s : Scan) (cs : List Char) : Scan := { s with words := cs.reverse ++ s.words }

end Scan

/-! ## Code -/

/-- The text up to a run of exactly `count` backticks, and what follows; `run` counts the backticks just passed. -/
def codeEnd? (count run : Nat) : List Char → Option (List Char × List Char)
  | [] => if run = count then some ([], []) else none
  | c :: cs =>
    if c == '\x60' then codeEnd? count (run + 1) cs
    else if run = count then some ([], c :: cs)
    else (codeEnd? count 0 cs).map fun (code, rest) => (List.replicate run '\x60' ++ c :: code, rest)

/-- Code without the space at either end that keeps a backtick apart. -/
def trimCode (cs : List Char) : List Char :=
  let flat := cs.map fun c => if c == '\n' then ' ' else c
  if flat.any (· != ' ') && flat.head? == some ' ' && flat.getLast? == some ' ' then flat.tail.dropLast else flat

/-! ## Brackets -/

/-- The innermost bracket, with the pieces after it and before it, newest first. -/
def cutAtBracket? : List Piece → Option (List Piece × (Bool × Bool × List Char × Bool) × List Piece)
  | [] => none
  | .bracket isImage isActive rest isFollowed :: ps => some ([], (isImage, isActive, rest, isFollowed), ps)
  | p :: ps => (cutAtBracket? ps).map fun (inner, b, outer) => (p :: inner, b, outer)

def markFollowed : List Piece → List Piece
  | [] => []
  | .bracket isImage isActive rest _ :: ps => .bracket isImage isActive rest true :: ps
  | p :: ps => p :: markFollowed ps

/-- There is no link within a link: brackets around one open none. -/
def deactivate (ps : List Piece) : List Piece :=
  ps.map fun
    | .bracket false _ rest isFollowed => .bracket false false rest isFollowed
    | p => p

def Scan.openBracket (s : Scan) (isImage : Bool) (rest : List Char) : Scan :=
  { s with words := [], pieces := .bracket isImage true rest false :: markFollowed s.all, inBrackets := true }

/-- The text of pieces, newest first, as the label of a note. -/
def noteLabel (newest : List Piece) : List Char :=
  newest.reverse.flatMap fun
    | .inline (.text cs) => cs
    | .inline (.html cs) => cs
    | .run r => List.replicate r.length r.mark
    | .bracket isImage _ _ _ => bracketText isImage
    | _ => []

/-- The target of the link or image whose text ends here, and what follows it.  `written` is that text; it serves as
the label where no other stands. -/
def target? (cx : Context) (written : List Char) (isFollowed : Bool) (cs : List Char) :
    Option (Target × List Char) :=
  match inlineTarget? cs with
  | some found => some found
  | none =>
    match label? cs with
    | some (label, rest) =>
      if !label.isEmpty then (targetOf? cx.targets label).map (·, rest)
      else if isFollowed then none
      else (targetOf? cx.targets written).map (·, rest)
    | none => if isFollowed then none else (targetOf? cx.targets written).map (·, cs)

/-- A closing bracket; what follows it is given. -/
def closeBracket (cx : Context) (s : Scan) (cs : List Char) : Scan × List Char :=
  let s := { s with inBrackets := false }
  match cutAtBracket? s.all with
  | none => (s.write [']'], cs)
  | some (inner, (isImage, isActive, rest, isFollowed), outer) =>
    let opening := Piece.inline (.text (bracketText isImage))
    let asText := ({ s with words := [], pieces := inner ++ opening :: outer }.write [']'], cs)
    if !isImage && !isActive then asText
    else match target? cx (rest.take (rest.length - cs.length - 1)) isFollowed cs with
      | some (target, cs) =>
        let body := resolve inner
        let piece := Piece.inline
          (if isImage then .image target.address target.title body else .link target.address target.title body)
        ({ s with words := [], pieces := piece :: (if isImage then outer else deactivate outer) }, cs)
      | none =>
        match if cx.options.footnotes then noteLabel inner else [] with
        | '^' :: c :: label => ({ s with words := [], pieces := .inline (.noteRef (c :: label) 0 0) :: outer }, cs)
        | _ => asText

/-! ## Typography -/

/-- Hyphens as dashes: as many long ones as there can be, unless all can be short. -/
def dashes (count : Nat) : List Char :=
  let (short, long) :=
    if count % 3 = 0 then (0, count / 3)
    else if count % 2 = 0 then (count / 2, 0)
    else if count % 3 = 2 then (1, (count - 2) / 3)
    else (2, (count - 4) / 3)
  List.replicate long '—' ++ List.replicate short '–'

/-! ## The reading -/

/-- A run at the front of a text. -/
def Scan.openRun (s : Scan) (mark : Char) (length : Nat) (rest : List Char) : Scan :=
  let r := Run.between (s.past.head?.getD '\n') mark length (rest.head?.getD '\n')
  if r.opens || r.closes then s.add (.run r) else s.add (.inline (r.text length))

/-- Reads what a character begins; none if it is plain text. -/
def special? (cx : Context) (s : Scan) (c : Char) (cs : List Char) : Option (Scan × List Char) :=
  let runOf (cs : List Char) : Nat := (cs.takeWhile (· == c)).length
  match c with
  | '\n' =>
    let isHard := [' ', ' '].isPrefixOf s.past
    let s := { s with words := dropBlank s.words }
    some (s.add (.inline (if isHard then .hardBreak else .softBreak)), cs.dropWhile fun c => c == ' ' || c == '\t')
  | '\x60' =>
    let count := runOf (c :: cs)
    let rest := (c :: cs).drop count
    match codeEnd? count 0 rest with
    | some (code, rest) => some (s.add (.inline (.code (trimCode code))), rest)
    | none => some (s.write (List.replicate count c), rest)
  | '\\' =>
    match cs with
    | d :: rest =>
      if isAsciiSign d then some (s.write [d], rest)
      else if d == '\n' then some (s.add (.inline .hardBreak), rest)
      else none
    | [] => none
  | '&' => (entity? cs).map fun (found, rest) => (s.write found, rest)
  | '<' =>
    match bracketedAddress? cs, bracketedMail? cs with
    | some (address, rest), _ =>
      some (s.add (.inline (linkTo (decodeEntities address) (decodeEntities address))), rest)
    | none, some (address, rest) => some (s.add (.inline (linkTo ("mailto:".toList ++ address) address)), rest)
    | none, none =>
      (inlineHtml? cs).map fun rest => (s.add (.inline (.html (c :: cs.take (cs.length - rest.length)))), rest)
  | '[' => some (s.openBracket false cs, cs)
  | '!' =>
    match cs with
    | '[' :: rest => if rest.head? == some '^' then none else some (s.openBracket true rest, rest)
    | _ => none
  | ']' => some (closeBracket cx s cs)
  | '*' | '_' => let count := runOf cs + 1; some (s.openRun c count (cs.drop (count - 1)), cs.drop (count - 1))
  | '~' =>
    let count := runOf cs + 1
    if cx.options.strikethrough then some (s.openRun c count (cs.drop (count - 1)), cs.drop (count - 1)) else none
  | '\'' | '"' => if cx.options.smartPunctuation then some (s.openRun c 1 cs, cs) else none
  | '-' =>
    let count := runOf cs + 1
    if cx.options.smartPunctuation && 2 ≤ count then some (s.write (dashes count), cs.drop (count - 1)) else none
  | '.' =>
    match cs with
    | '.' :: '.' :: rest => if cx.options.smartPunctuation then some (s.write ['…'], rest) else none
    | _ => none
  | ':' =>
    if cx.options.autolink && !s.inBrackets then
      (schemeAddress? s.words cs).map fun address =>
        let back := (s.words.takeWhile Char.isAlpha).length
        ({ s with words := s.words.drop back }.add (.inline (linkTo address address)),
          cs.drop (address.length - back - 1))
    else none
  | 'w' =>
    if cx.options.autolink && !s.inBrackets then
      (wwwAddress? s.past.head? (c :: cs)).map fun address =>
        (s.add (.inline (linkTo ("http://".toList ++ address) address)), cs.drop (address.length - 1))
    else none
  | _ => none

/-- The characters by which a text is longer than what is left of it, newest first. -/
def passed (cs rest : List Char) : List Char := (cs.take (cs.length - rest.length)).reverse

/-- Reads a text; `fuel` bounds the characters left. -/
def scanWith (cx : Context) : Nat → Scan → List Char → Scan
  | fuel + 1, s, c :: cs =>
    match special? cx s c cs with
    | some (t, rest) => scanWith cx fuel { t with past := passed (c :: cs) rest ++ s.past } rest
    | none => scanWith cx fuel { s with words := c :: s.words, past := c :: s.past } cs
  | _, s, _ => s

/-- The inlines of a block's text. -/
def readInlines (cx : Context) (cs : List Char) : List Inline :=
  let cs := (cs.reverse.dropWhile isAsciiBlank).reverse
  let is := resolve (scanWith cx cs.length .empty cs).all
  if cx.options.autolink then linkMailsIn is else is

end Folio.Markdown
