import Folio.Text.Blank
import Folio.Markdown.Character
import Folio.Markdown.Syntax
/-!
# Emphasis

A run of stars, underscores or tildes may open a stretch, close one, or both; which of them its two neighbours say
(`Run.between`).  Runs are paired from left to right: a run that may close takes the nearest run before it that may open
and fits it, and every run between the two becomes text.  Quotation marks that are to be curled pair in the same way, but
nothing between them is lost.
-/
namespace Folio.Markdown

/-- A run of one mark. -/
structure Run where
  mark : Char
  length : Nat
  opens : Bool
  closes : Bool
deriving DecidableEq, Repr

/-- What stands between two brackets or runs, and the brackets and runs themselves. -/
inductive Piece where
  | inline (i : Inline)
  | run (r : Run)
  /-- A bracket that may open a link or image: whether it still may, what follows it in the text, and whether another
  bracket was opened after it. -/
  | bracket (isImage isActive : Bool) (rest : List Char) (isFollowed : Bool)

def bracketText (isImage : Bool) : List Char := if isImage then ['!', '['] else ['[']

def isQuote (c : Char) : Bool := c == '\'' || c == '"'

namespace Run

/-- The run between two characters; the ends of a text count as line breaks. -/
def between (before : Char) (mark : Char) (length : Nat) (after : Char) : Run :=
  let left := !Text.isBlank after && (!isSign after || Text.isBlank before || isSign before)
  let right := !Text.isBlank before && (!isSign before || Text.isBlank after || isSign after)
  if mark == '_' then ⟨mark, length, left && (!right || isSign before), right && (!left || isSign after)⟩
  else if isQuote mark then
    ⟨mark, length, left && (!right || before == '(' || before == '[') && before != ']' && before != ')', right⟩
  else ⟨mark, length, left, right⟩

/-- The text of a run of which some characters are left. -/
def text (r : Run) (left : Nat) : Inline :=
  .text (if r.mark == '\'' then ['’'] else if r.mark == '"' then [if r.closes then '”' else '“']
    else List.replicate left r.mark)

end Run

/-- A run that may still open a stretch: how many of its characters are left, and what follows it, newest first. -/
structure Opener where
  run : Run
  left : Nat
  following : List Inline

namespace Opener

/-- The run as text and what follows it, newest first. -/
def settle (o : Opener) : List Inline := o.following ++ [o.run.text o.left]

/-- Whether the run may open what `r` closes.  Where one of the two may do both, their lengths must not add up to a
multiple of three, unless each is one. -/
def fits (o : Opener) (r : Run) : Bool :=
  o.run.mark == r.mark &&
    !((r.opens || o.run.closes) && (o.run.length + r.length) % 3 == 0 && !(o.run.length % 3 == 0 && r.length % 3 == 0))

end Opener

/-- What has been read: the runs that may still open a stretch, innermost first, and what stands before them, newest
first. -/
structure Pairing where
  openers : List Opener
  before : List Inline

namespace Pairing

def empty : Pairing := ⟨[], []⟩

/-- Puts inlines, newest first, at the end. -/
def append (p : Pairing) (newest : List Inline) : Pairing :=
  match p.openers with
  | [] => { p with before := newest ++ p.before }
  | o :: outer => { p with openers := { o with following := newest ++ o.following } :: outer }

/-- Leaves what is left of a run: to open a stretch if it may, else as text. -/
def leave (p : Pairing) (r : Run) (left : Nat) : Pairing :=
  if r.opens then { p with openers := ⟨r, left, []⟩ :: p.openers } else p.append [r.text left]

/-- Closes a quotation. -/
def closeQuote (p : Pairing) (r : Run) : Pairing :=
  match p.openers.span (!·.fits r) with
  | (_, []) => p.leave r 1
  | (inner, o :: outer) =>
    let opening := Inline.text [if r.mark == '\'' then '‘' else '“']
    let q := (Pairing.mk outer p.before).append (o.following ++ [opening])
    { q with openers := inner ++ q.openers }.append [.text [if r.mark == '\'' then '’' else '”']]

/-- Closes stretches with the characters left of a run, two at a time while both ends have two; `fuel` bounds how many
are left.  None where tildes do not match in number: no run after them counts. -/
def close (p : Pairing) (r : Run) : (fuel left : Nat) → Option Pairing
  | fuel + 1, left =>
    if left = 0 then some p
    else match p.openers.span (!·.fits r) with
      | (_, []) => some (p.leave r left)
      | (inner, o :: outer) =>
        let used := if 2 ≤ o.left && 2 ≤ left then 2 else 1
        if r.mark == '~' && (o.left != used || left != used) then none
        else
          let body := Inline.arrange (inner.flatMap Opener.settle ++ o.following)
          let stretch :=
            if r.mark == '~' then Inline.deleted body
            else if used == 1 then Inline.emphasis body else Inline.strong body
          let outer := if o.left = used then outer else { o with left := o.left - used, following := [] } :: outer
          close ((Pairing.mk outer p.before).append [stretch]) r fuel (left - used)
  | 0, _ => some p

/-- Everything as inlines, newest first. -/
def settle (p : Pairing) : List Inline := p.openers.flatMap Opener.settle ++ p.before

end Pairing

/-- Pairs the runs of some pieces, unless pairing has ended. -/
def pairRuns (ended : Bool) (p : Pairing) : List Piece → Pairing
  | [] => p
  | .inline i :: ps => pairRuns ended (p.append [i]) ps
  | .run r :: ps =>
    if ended then pairRuns ended (p.append [r.text r.length]) ps
    else if !r.closes then pairRuns ended (p.leave r r.length) ps
    else if isQuote r.mark then pairRuns ended (p.closeQuote r) ps
    else match p.close r (r.length + 1) r.length with
      | some q => pairRuns ended q ps
      | none => pairRuns true (p.append [r.text r.length]) ps
  | .bracket isImage _ _ _ :: ps =>
    pairRuns ended (p.append [.text (bracketText isImage)]) ps

/-- The inlines that pieces, newest first, stand for. -/
def resolve (newest : List Piece) : List Inline := Inline.arrange (pairRuns false .empty newest.reverse).settle

end Folio.Markdown
