import Folio.Yaml.Token
/-!
# Cutting a YAML text into tokens

The characters are read once from left to right.  Two things make the cut depend on more than the next character: the
indentation, which opens and closes block collections, and *simple keys*: a node that turns out to be
followed by a colon on its line is a mapping key, so the tokens that say so are put in front of it afterwards.

A scalar may run over several lines; what stands between two of its words is a `Gap`, and `Gap.text` is the rule by which
line breaks fold.

The result is the tokens up to the first fault and that fault if there is one.
-/
namespace Folio.Yaml

/-! ## Characters -/

def isBreak (c : Char) : Bool := c == '\n' || c == '\r' || c == '\x85' || c == '\u2028' || c == '\u2029'

def isSpace (c : Char) : Bool := c == ' ' || c == '\t'

def isNameChar (c : Char) : Bool := c.isAlphanum || c == '_' || c == '-'

/-- A blank, a line break, or the end of the text. -/
def blankOrEnd : List Char → Bool
  | [] => true
  | c :: _ => isSpace c || isBreak c

def breakOrEnd : List Char → Bool
  | [] => true
  | c :: _ => isBreak c

/-- Characters that a text may hold. -/
def isPermitted (c : Char) : Bool :=
  let n := c.toNat
  n == 9 || n == 10 || n == 13 || (0x20 ≤ n && n ≤ 0x7E) || n == 0x85 || (0xA0 ≤ n && n ≤ 0xFFFD) || 0x10000 ≤ n

/-- The line break a text is given for one that was read. -/
def breakChar (c : Char) : Char := if c == '\u2028' || c == '\u2029' then c else '\n'

/-- How many characters the line break at the front has. -/
def breakLength : List Char → Nat
  | '\r' :: '\n' :: _ => 2
  | c :: _ => if isBreak c then 1 else 0
  | [] => 0

/-- Three dashes or three dots that stand alone at the start of a line. -/
def atDocumentIndicator (m : Mark) (cs : List Char) : Bool :=
  m.column == 0 &&
    match cs with
    | '-' :: '-' :: '-' :: rest => blankOrEnd rest
    | '.' :: '.' :: '.' :: rest => blankOrEnd rest
    | _ => false

/-! ## Results of reading a piece -/

/-- Where reading stands: a place and the characters from there on. -/
structure Cursor where
  mark : Mark
  rest : List Char

namespace Cursor

def skip (c : Cursor) (n : Nat) : Cursor := ⟨c.mark.skip n, c.rest.drop n⟩

/-- Past characters of one line that have a property. -/
def skipWhile (p : Char → Bool) (c : Cursor) : Cursor :=
  let n := (c.rest.takeWhile p).length
  c.skip n

def skipBreak (c : Cursor) : Cursor :=
  let n := breakLength c.rest
  if n = 0 then c else ⟨c.mark.newline n, c.rest.drop n⟩

end Cursor

/-- What a piece of the text gives: a value and where reading goes on, or a fault. -/
abbrev Reading (α : Type) := Except Fault (α × Cursor)

def failAt (problem : Problem) (mark : Mark) (activity : Activity) (since : Mark) : Except Fault α :=
  .error ⟨problem, mark, some (activity, since)⟩

/-! ## Folding -/

/-- The blanks and line breaks between two words of a scalar.  `opened` says that a line break was met; then blanks
do not count, the first break is kept apart, and the further ones follow. -/
structure Gap where
  opened : Bool
  blanks : List Char
  first : List Char
  more : List Char

namespace Gap

def none : Gap := ⟨false, [], [], []⟩

/-- After an escaped line break. -/
def escaped : Gap := ⟨true, [], [], []⟩

def addBlank (g : Gap) (c : Char) : Gap := if g.opened then g else { g with blanks := g.blanks ++ [c] }

def addBreak (g : Gap) (c : Char) : Gap :=
  if g.opened then { g with more := g.more ++ [breakChar c] } else ⟨true, [], [breakChar c], []⟩

def isEmpty (g : Gap) : Bool := !g.opened && g.blanks.isEmpty

/-- A single line break folds into a space; of several, the first is dropped. -/
def text (g : Gap) : List Char :=
  if !g.opened then g.blanks
  else if g.first = ['\n'] then (if g.more.isEmpty then [' '] else g.more)
  else g.first ++ g.more

end Gap

/-! ## Quoted scalars -/

def hexValue (c : Char) : Option Nat :=
  if '0' ≤ c && c ≤ '9' then some (c.toNat - 48)
  else if 'a' ≤ c && c ≤ 'f' then some (c.toNat - 87)
  else if 'A' ≤ c && c ≤ 'F' then some (c.toNat - 55)
  else none

def hexNumber (cs : List Char) : Option Nat :=
  cs.foldl (fun n c => match n, hexValue c with
    | some n, some d => some (n * 16 + d)
    | _, _ => none) (some 0)

/-- An escape that stands for one character. -/
def simpleEscape : Char → Option Char
  | '0' => some '\x00' | 'a' => some '\x07' | 'b' => some '\x08' | 't' => some '\t' | '\t' => some '\t'
  | 'n' => some '\n' | 'v' => some '\x0b' | 'f' => some '\x0c' | 'r' => some '\r' | 'e' => some '\x1b'
  | ' ' => some ' ' | '"' => some '"' | '/' => some '/' | '\\' => some '\\' | 'N' => some '\x85'
  | '_' => some '\xa0' | 'L' => some '\u2028' | 'P' => some '\u2029' | _ => none

/-- How many hexadecimal digits an escape takes. -/
def numericEscape : Char → Option Nat
  | 'x' => some 2 | 'u' => some 4 | 'U' => some 8 | _ => none

/-- The inside of a quoted scalar, from just after the opening quote to just after the closing one; `done` holds the
characters read, the last one first. -/
def quoted (single : Bool) (start : Mark) (gap : Gap) (done : List Char) (m : Mark) :
    List Char → Reading String
  | [] => failAt .endOfStream m .quotedScalar start
  | c :: cs =>
    if isSpace c then quoted single start (gap.addBlank c) done m.next cs
    else if isBreak c then
      match c, cs with
      | '\r', '\n' :: cs' => quoted single start (gap.addBreak '\r') done (m.newline 2) cs'
      | c, cs => quoted single start (gap.addBreak c) done (m.newline 1) cs
    else if atDocumentIndicator m (c :: cs) then failAt .documentIndicator m .quotedScalar start
    else
      let done := gap.text.reverse ++ done
      if single then
        if c = '\'' then
          match cs with
          | '\'' :: cs' => quoted single start .none ('\'' :: done) (m.skip 2) cs'
          | cs => .ok (String.ofList done.reverse, ⟨m.next, cs⟩)
        else quoted single start .none (c :: done) m.next cs
      else if c = '"' then .ok (String.ofList done.reverse, ⟨m.next, cs⟩)
      else if c = '\\' then
        match cs with
        | [] => failAt .unknownEscape m .quotedEscape start
        | e :: cs =>
          if isBreak e then
            match e, cs with
            | '\r', '\n' :: cs' => quoted single start .escaped done (m.next.newline 2) cs'
            | _, cs => quoted single start .escaped done (m.next.newline 1) cs
          else match simpleEscape e, numericEscape e with
            | some x, _ => quoted single start .none (x :: done) (m.skip 2) cs
            | none, some n =>
              if (cs.take n).length < n then failAt .hexadecimal (m.skip 2) .quotedEscape start
              else match hexNumber (cs.take n) with
                | none => failAt .hexadecimal (m.skip 2) .quotedEscape start
                | some code =>
                  if (0xD800 ≤ code && code ≤ 0xDFFF) || code > 0x10FFFF then
                    failAt .escapeCode (m.skip 2) .quotedEscape start
                  else quoted single start .none (Char.ofNat code :: done) (m.skip (2 + n)) (cs.drop n)
            | none, none => failAt .unknownEscape m .quotedEscape start
      else quoted single start .none (c :: done) m.next cs
termination_by cs => cs.length
decreasing_by all_goals simp only [List.length_cons, List.length_drop]; omega

/-! ## Plain scalars -/

def isFlowIndicator (c : Char) : Bool := c == ',' || c == '[' || c == ']' || c == '{' || c == '}'

/-- What ends a plain scalar inside a word: a colon before a blank, and in a flow collection its indicators. -/
def endsPlain (flow : Bool) (c : Char) (rest : List Char) : Bool :=
  (c == ':' && blankOrEnd rest) || (flow && isFlowIndicator c)

/-- A plain scalar, the place where its last word stops, and whether the cursor is on a later line than that. -/
structure Plain where
  text : String
  stop : Mark
  newLine : Bool

/-- A plain scalar goes on while its lines are indented by at least `indent` columns. -/
def plain (flow : Bool) (indent : Int) (start : Mark) (gap : Gap) (done : List Char) (stop m : Mark) :
    List Char → Reading Plain
  | [] => .ok (⟨String.ofList done.reverse, stop, gap.opened⟩, ⟨m, []⟩)
  | c :: cs =>
    let finish : Reading Plain := .ok (⟨String.ofList done.reverse, stop, gap.opened⟩, ⟨m, c :: cs⟩)
    if isSpace c then
      if gap.opened && (m.column : Int) < indent && c == '\t' then failAt .tabIndentation m .plainScalar start
      else plain flow indent start (gap.addBlank c) done stop m.next cs
    else if isBreak c then
      match c, cs with
      | '\r', '\n' :: cs' => plain flow indent start (gap.addBreak '\r') done stop (m.newline 2) cs'
      | c, cs => plain flow indent start (gap.addBreak c) done stop (m.newline 1) cs
    else if !gap.isEmpty && ((!flow && (m.column : Int) < indent) || atDocumentIndicator m (c :: cs) || c == '#') then
      finish
    else if flow && c == ':' && (cs.head?.any fun d => isFlowIndicator d || d == '?') then
      failAt .unexpectedColon m .plainScalar start
    else if endsPlain flow c cs then finish
    else plain flow indent start .none (c :: (gap.text.reverse ++ done)) m.next m.next cs
termination_by cs => cs.length
decreasing_by all_goals simp only [List.length_cons]; omega

/-! ## Block scalars -/

/-- What happens to the line breaks at the end of a block scalar. -/
inductive Chomping where
  | strip | clip | keep
deriving DecidableEq

def chompingOf : Char → Option Chomping
  | '+' => some .keep
  | '-' => some .strip
  | _ => none

/-- Indentation, if it is known, and the line breaks of the empty lines read. -/
structure Blankness where
  indent : Option Nat
  deepest : Nat
  breaks : List Char

/-- Skips indentation and empty lines; without a known indentation any number of spaces is skipped. -/
def emptyLines (start : Mark) (b : Blankness) (m : Mark) : List Char → Reading Blankness
  | [] => .ok ({ b with deepest := max b.deepest m.column }, ⟨m, []⟩)
  | c :: cs =>
    let inside := b.indent.all fun n => m.column < n
    if inside && c == ' ' then emptyLines start b m.next cs
    else
      let b := { b with deepest := max b.deepest m.column }
      if inside && c == '\t' then failAt .tabInBlockScalar m .blockScalar start
      else if isBreak c then
        match c, cs with
        | '\r', '\n' :: cs' => emptyLines start { b with breaks := b.breaks ++ ['\n'] } (m.newline 2) cs'
        | c, cs => emptyLines start { b with breaks := b.breaks ++ [breakChar c] } (m.newline 1) cs
      else .ok (b, ⟨m, c :: cs⟩)
termination_by cs => cs.length
decreasing_by all_goals simp only [List.length_cons]; omega

/-- Empty lines, after which the indentation is known. -/
def emptyLinesThen (start : Mark) (outer : Int) (indent : Option Nat) (c : Cursor) : Reading (Nat × List Char) :=
  match emptyLines start ⟨indent, 0, []⟩ c.mark c.rest with
  | .error e => .error e
  | .ok (b, c) =>
    let n := indent.getD (max (max b.deepest (outer + 1).toNat) 1)
    .ok ((n, b.breaks), c)

/-- The lines of a block scalar.  `lead` is the break before the current line, `breaks` are those of empty lines before
it, `blankLead` says that the line before it started with a blank. -/
def blockLines (literal : Bool) (start : Mark) (outer : Int) (indent : Nat) :
    Nat → (done lead breaks : List Char) → Bool → Cursor → Reading (List Char × List Char × List Char)
  | 0, done, lead, breaks, _, c => .ok ((done, lead, breaks), c)
  | fuel + 1, done, lead, breaks, blankLead, c =>
    if c.mark.column = indent ∧ c.rest ≠ [] then
      let blank := c.rest.head?.any isSpace
      let joined :=
        if !literal && lead = ['\n'] && !blankLead && !blank then (if breaks.isEmpty then [' '] else []) else lead
      let line := c.rest.takeWhile fun x => !isBreak x
      let c := c.skip line.length
      let lead := (c.rest.take 1).map breakChar
      match emptyLinesThen start outer (some indent) c.skipBreak with
      | .error e => .error e
      | .ok ((_, breaks'), c) =>
        blockLines literal start outer indent fuel (done ++ joined ++ breaks ++ line) lead breaks' blank c
    else .ok ((done, lead, breaks), c)

def digitOf (c : Char) : Option Nat := if c.isDigit then some (c.toNat - 48) else none

/-- The chomping and indentation indicators of a block scalar, in either order. -/
def blockHeader (start : Mark) (c : Cursor) : Reading (Chomping × Nat) :=
  let increment (c : Cursor) : Reading Nat :=
    match c.rest.head?.bind digitOf with
    | some 0 => failAt .zeroIndentation c.mark .blockScalar start
    | some n => .ok (n, c.skip 1)
    | none => .ok (0, c)
  match c.rest.head?.bind chompingOf with
  | some ch =>
    match increment (c.skip 1) with
    | .error e => .error e
    | .ok (n, c) => .ok ((ch, n), c)
  | none =>
    match increment c with
    | .error e => .error e
    | .ok (0, c) => .ok ((.clip, 0), c)
    | .ok (n, c) =>
      match c.rest.head?.bind chompingOf with
      | some ch => .ok ((ch, n), c.skip 1)
      | none => .ok ((.clip, n), c)

/-- Blanks and a comment up to the end of a line. -/
def skipComment (c : Cursor) : Cursor :=
  let c := c.skipWhile isSpace
  if c.rest.head? = some '#' then c.skipWhile fun x => !isBreak x else c

def blockScalar (literal : Bool) (outer : Int) (start : Cursor) : Reading String :=
  match blockHeader start.mark (start.skip 1) with
  | .error e => .error e
  | .ok ((chomping, increment), c) =>
    let c := skipComment c
    if !breakOrEnd c.rest then failAt .commentOrBreak c.mark .blockScalar start.mark
    else
      let c := c.skipBreak
      let indent := if increment = 0 then none else some (increment + outer.toNat)
      match emptyLinesThen start.mark outer indent c with
      | .error e => .error e
      | .ok ((indent, breaks), c) =>
        match blockLines literal start.mark outer indent (c.rest.length + 1) [] [] breaks false c with
        | .error e => .error e
        | .ok ((done, lead, breaks), c) =>
          let tail := match chomping with
            | .strip => []
            | .clip => lead
            | .keep => lead ++ breaks
          .ok (String.ofList (done ++ tail), c)

/-! ## Anchors, tags and directives -/

def anchorName (activity : Activity) (start : Cursor) : Reading String :=
  let c := start.skip 1
  let name := c.rest.takeWhile isNameChar
  let c := c.skip name.length
  let ended := blankOrEnd c.rest || c.rest.head?.any fun x => "?:,]\x7d%@\x60".toList.contains x
  if name.isEmpty || !ended then failAt .anchorName c.mark activity start.mark
  else .ok (String.ofList name, c)

def isUriChar (verbatim : Bool) (c : Char) : Bool :=
  isNameChar c || ";/?:@&=+$.!~*'()%".toList.contains c || (verbatim && (c == ',' || c == '[' || c == ']'))

/-- The octets that percent signs stand for, read as text. -/
def decodePercent : List Char → List Char
  | '%' :: a :: b :: cs =>
    match hexValue a, hexValue b with
    | some x, some y => Char.ofNat (x * 16 + y) :: decodePercent cs
    | _, _ => '%' :: decodePercent (a :: b :: cs)
  | c :: cs => c :: decodePercent cs
  | [] => []
termination_by cs => cs.length

/-- A tag: `!<uri>`, `!handle!suffix`, `!suffix` or a lone exclamation mark, which is its own suffix. -/
def tag (flow : Bool) (start : Cursor) : Reading (String × String) :=
  let finish (handle suffix : List Char) (c : Cursor) : Reading (String × String) :=
    if blankOrEnd c.rest || (flow && c.rest.head? = some ',') then
      .ok ((String.ofList handle, String.ofList (decodePercent suffix)), c)
    else failAt .blankAfterTag c.mark .tag start.mark
  match start.rest with
  | '!' :: '<' :: cs =>
    let uri := cs.takeWhile (isUriChar true)
    let c := start.skip (2 + uri.length)
    if uri.isEmpty then failAt .tagUri c.mark .tagUri start.mark
    else if c.rest.head? = some '>' then finish [] uri (c.skip 1)
    else failAt .tagEnd c.mark .tag start.mark
  | _ =>
    let c := start.skip 1
    let name := c.rest.takeWhile isNameChar
    let c := c.skip name.length
    if c.rest.head? = some '!' then
      let c := c.skip 1
      let suffix := c.rest.takeWhile (isUriChar false)
      if suffix.isEmpty then failAt .tagUri c.mark .tagUri start.mark
      else finish ('!' :: (name ++ ['!'])) suffix (c.skip suffix.length)
    else
      let more := c.rest.takeWhile (isUriChar false)
      let suffix := name ++ more
      let c := c.skip more.length
      if suffix.isEmpty then finish [] ['!'] c else finish ['!'] suffix c

def number (c : Cursor) : Option (Nat × Cursor) :=
  let digits := c.rest.takeWhile Char.isDigit
  if digits.isEmpty || digits.length > 9 then none
  else some (digits.foldl (fun n d => n * 10 + (d.toNat - 48)) 0, c.skip digits.length)

def directive (start : Cursor) : Reading Kind :=
  let c := start.skip 1
  let name := c.rest.takeWhile isNameChar
  let c := c.skip name.length
  let finish (kind : Kind) (c : Cursor) : Reading Kind :=
    let c := skipComment c
    if breakOrEnd c.rest then .ok (kind, c.skipBreak) else failAt .commentOrBreak c.mark .directive start.mark
  if name.isEmpty then failAt .directiveName c.mark .directive start.mark
  else if !blankOrEnd c.rest then failAt .directiveCharacter c.mark .directive start.mark
  else if name = "YAML".toList then
    let c := c.skipWhile isSpace
    match number c with
    | some (major, c) =>
      match c.rest.head?, number (c.skip 1) with
      | some '.', some (minor, c) => finish (.version major minor) c
      | _, _ => failAt .versionNumber c.mark .directive start.mark
    | none => failAt .versionNumber c.mark .directive start.mark
  else if name = "TAG".toList then
    let c := c.skipWhile isSpace
    let handle := c.rest.takeWhile fun x => isNameChar x || x == '!'
    let c := (c.skip handle.length).skipWhile isSpace
    let uri := c.rest.takeWhile (isUriChar true)
    let c := c.skip uri.length
    if handle.head? ≠ some '!' ∨ handle.getLast? ≠ some '!' then failAt .tagHandle c.mark .directive start.mark
    else if uri.isEmpty then failAt .tagUri c.mark .directive start.mark
    else finish (.tagShorthand (String.ofList handle) (String.ofList uri)) c
  else failAt .unknownDirective c.mark .directive start.mark

/-! ## The scanner -/

/-- A place where a mapping key may have started: the number of the token there, and whether nothing but a key can stand
there. -/
structure PossibleKey where
  number : Nat
  required : Bool
  mark : Mark

/-- `done` holds the tokens, the last one first; `keys` holds what is possible at each level of flow collections, the
innermost first; `indents` are the columns of the block collections around `indent`. -/
structure Scanner where
  cursor : Cursor
  done : List Token
  indent : Int
  indents : List Int
  keys : List (Option PossibleKey)
  keyAllowed : Bool

namespace Scanner

def start (cs : List Char) : Scanner :=
  ⟨⟨.origin, cs⟩, [], -1, [], [none], true⟩

def inFlow (s : Scanner) : Bool := s.keys.length > 1

def mark (s : Scanner) : Mark := s.cursor.mark

def emit (s : Scanner) (kind : Kind) (start stop : Mark) : Scanner := { s with done := ⟨kind, start, stop⟩ :: s.done }

/-- Puts a token in front of the one with the given number. -/
def insertAt (s : Scanner) (number : Nat) (t : Token) : Scanner :=
  let later := s.done.length - number
  { s with done := s.done.take later ++ t :: s.done.drop later }

/-- A block collection starts where the column is deeper than the indentation. -/
def openBlock (s : Scanner) (column : Nat) (number : Nat) (kind : Kind) (mark : Mark) : Scanner :=
  if s.inFlow || s.indent ≥ column then s
  else { s with indents := s.indent :: s.indents, indent := column }.insertAt number ⟨kind, mark, mark⟩

/-- Block collections that are deeper than a column end. -/
def closeBlocks (s : Scanner) (column : Int) : Scanner :=
  if s.inFlow then s else go s s.indents
where
  go (s : Scanner) : List Int → Scanner
    | [] => s
    | outer :: rest =>
      if s.indent > column then
        go { s.emit .blockEnd s.mark s.mark with indent := outer, indents := rest } rest
      else s

/-- A possible key that was not followed by a colon in time is none. -/
def dropStaleKeys (s : Scanner) : Except Fault Scanner := do
  let keys ← s.keys.mapM fun
    | none => .ok none
    | some k =>
      if k.mark.line < s.mark.line || k.mark.index + 1024 < s.mark.index then
        if k.required then failAt .missingColon s.mark .simpleKey k.mark else .ok none
      else .ok (some k)
  .ok { s with keys }

def dropKey (s : Scanner) : Except Fault Scanner :=
  match s.keys with
  | some k :: rest => if k.required then failAt .missingColon s.mark .simpleKey k.mark else .ok { s with keys := none :: rest }
  | _ => .ok s

def saveKey (s : Scanner) : Except Fault Scanner := do
  if s.keyAllowed then
    let required := !s.inFlow && s.indent == (s.mark.column : Int)
    let s ← s.dropKey
    .ok { s with keys := some ⟨s.done.length, required, s.mark⟩ :: s.keys.drop 1 }
  else .ok s

/-- Blanks, comments and line breaks up to the next token. -/
def toNextToken (s : Scanner) : Nat → Scanner
  | 0 => s
  | fuel + 1 =>
    let c := if s.mark.index = 0 ∧ s.cursor.rest.head? = some '\ufeff' then s.cursor.skip 1 else s.cursor
    let tabs := s.inFlow || !s.keyAllowed
    let c := c.skipWhile fun x => x == ' ' || (tabs && x == '\t')
    let c := if c.rest.head? = some '#' then c.skipWhile fun x => !isBreak x else c
    if breakLength c.rest = 0 then { s with cursor := c }
    else toNextToken { s with cursor := c.skipBreak, keyAllowed := s.keyAllowed || !s.inFlow } fuel

/-- A token of `n` characters. -/
def indicator (s : Scanner) (kind : Kind) (n : Nat) : Scanner :=
  let start := s.mark
  let s := { s with cursor := s.cursor.skip n }
  s.emit kind start s.mark

/-- A token made of what a reading gives. -/
def piece (s : Scanner) (r : Reading α) (kind : α → Kind) : Except Fault Scanner :=
  match r with
  | .error e => .error e
  | .ok (a, c) => .ok { s.emit (kind a) s.mark c.mark with cursor := c }

def openFlow (s : Scanner) (kind : Kind) : Except Fault Scanner := do
  let s ← s.saveKey
  .ok ({ s with keys := none :: s.keys, keyAllowed := true }.indicator kind 1)

def closeFlow (s : Scanner) (kind : Kind) : Except Fault Scanner := do
  let s ← s.dropKey
  let keys := if s.inFlow then s.keys.drop 1 else s.keys
  .ok ({ s with keys, keyAllowed := false }.indicator kind 1)

def blockEntry (s : Scanner) : Except Fault Scanner := do
  if !s.inFlow && !s.keyAllowed then .error ⟨.noBlockEntryHere, s.mark, none⟩
  else
    let s := s.openBlock s.mark.column s.done.length .blockSequenceStart s.mark
    let s ← s.dropKey
    .ok ({ s with keyAllowed := true }.indicator .blockEntry 1)

def keyIndicator (s : Scanner) : Except Fault Scanner := do
  if !s.inFlow && !s.keyAllowed then .error ⟨.noKeyHere, s.mark, none⟩
  else
    let s := s.openBlock s.mark.column s.done.length .blockMappingStart s.mark
    let s ← s.dropKey
    .ok ({ s with keyAllowed := !s.inFlow }.indicator .key 1)

/-- A colon makes a key of the possible key before it, or else stands for an empty or a marked key. -/
def valueIndicator (s : Scanner) : Except Fault Scanner :=
  match s.keys with
  | some k :: rest =>
    let s := s.insertAt k.number ⟨.key, k.mark, k.mark⟩
    let s := s.openBlock k.mark.column k.number .blockMappingStart k.mark
    .ok ({ s with keys := none :: rest, keyAllowed := false }.indicator .value 1)
  | _ =>
    if !s.inFlow && !s.keyAllowed then .error ⟨.noValueHere, s.mark, none⟩
    else
      let s := s.openBlock s.mark.column s.done.length .blockMappingStart s.mark
      .ok ({ s with keyAllowed := !s.inFlow }.indicator .value 1)

def plainScalar (s : Scanner) : Except Fault Scanner := do
  let s ← s.saveKey
  let s := { s with keyAllowed := false }
  match plain s.inFlow (s.indent + 1) s.mark .none [] s.mark s.mark s.cursor.rest with
  | .error e => .error e
  | .ok (p, c) =>
    .ok { s.emit (.scalar p.text true) s.mark p.stop with cursor := c, keyAllowed := p.newLine }

/-- Everything that starts with the character at the cursor, unless the text has ended. -/
def token (s : Scanner) (c : Char) (cs : List Char) : Except Fault Scanner :=
  let flow := s.inFlow
  let named {α : Type} (r : Scanner → Reading α) (kind : α → Kind) : Except Fault Scanner := do
    let s ← s.saveKey
    { s with keyAllowed := false }.piece (r s) kind
  if s.mark.column = 0 ∧ c = '%' then do
    let s ← (s.closeBlocks (-1)).dropKey
    { s with keyAllowed := false }.piece (directive s.cursor) id
  else if atDocumentIndicator s.mark (c :: cs) then do
    let s ← (s.closeBlocks (-1)).dropKey
    .ok ({ s with keyAllowed := false }.indicator (if c = '-' then .documentStart else .documentEnd) 3)
  else match c with
    | '[' => s.openFlow .flowSequenceStart
    | '{' => s.openFlow .flowMappingStart
    | ']' => s.closeFlow .flowSequenceEnd
    | '}' => s.closeFlow .flowMappingEnd
    | ',' => do
      let s ← s.dropKey
      .ok ({ s with keyAllowed := true }.indicator .flowEntry 1)
    | '*' => named (fun s => anchorName .aliased s.cursor) .aliased
    | '&' => named (fun s => anchorName .anchor s.cursor) .anchor
    | '!' => named (fun s => tag flow s.cursor) fun t => .tag t.1 t.2
    | '\'' => named (fun s => quoted true s.mark .none [] s.mark.next cs) fun t => .scalar t false
    | '"' => named (fun s => quoted false s.mark .none [] s.mark.next cs) fun t => .scalar t false
    | _ =>
      if c = '-' ∧ blankOrEnd cs then s.blockEntry
      else if c = '?' ∧ (flow ∨ blankOrEnd cs) then s.keyIndicator
      else if c = ':' ∧ (flow ∨ blankOrEnd cs) then s.valueIndicator
      else if (c = '|' ∨ c = '>') ∧ !flow then do
        let s ← s.dropKey
        { s with keyAllowed := true }.piece (blockScalar (c == '|') s.indent s.cursor) fun t => .scalar t false
      else if !(isSpace c || "-?:,[]\x7b\x7d#&*!|>'\"%@\x60".toList.contains c) ∨ (c = '-' ∧ !(cs.head?.any isSpace))
          ∨ (!flow ∧ (c = '?' ∨ c = ':') ∧ !blankOrEnd cs) then s.plainScalar
      else failAt .badStart s.mark .nextToken s.mark

/-- The text ends as if on a fresh line. -/
def finish (s : Scanner) : Except Fault Scanner := do
  let m := s.mark
  let m := if m.column = 0 then m else ⟨m.index, m.line + 1, 0⟩
  let s ← ({ s with cursor := ⟨m, []⟩ }.closeBlocks (-1)).dropKey
  .ok (s.emit .streamEnd m m)

/-- Token after token; each but the last takes at least one character. -/
def run (s : Scanner) : Nat → List Token × Option Fault
  | 0 => (s.done.reverse, none)
  | fuel + 1 =>
    let s := s.toNextToken (s.cursor.rest.length + 1)
    match s.dropStaleKeys with
    | .error e => (s.done.reverse, some e)
    | .ok s =>
      let s := s.closeBlocks s.mark.column
      match s.cursor.rest with
      | [] =>
        match s.finish with
        | .error e => (s.done.reverse, some e)
        | .ok s => (s.done.reverse, none)
      | c :: cs =>
        match s.token c cs with
        | .error e => (s.done.reverse, some e)
        | .ok s => run s fuel

end Scanner

/-- The first character that no text may hold, with the octets before it. -/
def forbidden? (octets : Nat) : List Char → Option Nat
  | [] => none
  | c :: cs => if isPermitted c then forbidden? (octets + c.utf8Size) cs else some octets

/-- The tokens of a text up to its first fault. -/
def tokens (text : List Char) : List Token × Option Fault :=
  let text := if text.head? = some '\ufeff' then text.drop 1 else text
  match forbidden? 0 text with
  | some n => ([], some ⟨.controlCharacter, ⟨n, 0, 0⟩, none⟩)
  | none => (Scanner.start text).run (text.length + 2)

end Folio.Yaml
