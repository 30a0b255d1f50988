import Folio.Number.Decimal
import Folio.Template.Fault
import Folio.Text.Blank
import Folio.Text.Search
/-!
# Tokens of a template

A template is text with marked stretches: `{{ … }}` prints a value, `{% … %}` is a tag and `{# … #}` a comment.  A hyphen
beside a mark takes away the blanks on its side.  Inside a marked stretch the source is a list of words, numbers, texts
and signs; between the tags `raw` and `endraw` nothing is marked.

The tokens are read one after the other (`Scanner.step`), and every step takes at least one character.  When a token
cannot be read, the tokens before it stand and the fault is kept for a reader that comes so far.
-/
namespace Folio.Template

inductive Token where
  /-- Text between marked stretches. -/
  | plain (text : String)
  | emitStart
  | emitEnd
  | tagStart
  | tagEnd
  | name (text : String)
  | text (text : String)
  | int (n : Nat)
  | float (x : Float)
  | sign (text : String)

instance : Inhabited Token := ⟨.tagEnd⟩

/-- How a fault speaks of a token. -/
def Token.describe : Token → String
  | .plain _ => "template-data"
  | .emitStart => "start of variable block"
  | .emitEnd => "end of variable block"
  | .tagStart => "start of block"
  | .tagEnd => "end of block"
  | .name _ => "identifier"
  | .text _ => "string"
  | .int _ => "integer"
  | .float _ => "float"
  | .sign s => "\x60" ++ s ++ "\x60"

structure Lexeme where
  token : Token
  line : Nat

/-! ## Pieces -/

/-- Blanks inside marked stretches. -/
def isSpace (c : Char) : Bool := c == ' ' || c == '\t' || c == '\n' || c == '\x0c' || c == '\r'

def isNameStart (c : Char) : Bool := c == '_' || c.isAlpha

def isNamePart (c : Char) : Bool := c == '_' || c.isAlphanum

def newlines (cs : List Char) : Nat := cs.count '\n'

inductive Mark where
  | emit
  | tag
  | comment
deriving DecidableEq, Repr

/-- A mark that opens a stretch. -/
def mark? : List Char → Option Mark
  | '{' :: '{' :: _ => some .emit
  | '{' :: '%' :: _ => some .tag
  | '{' :: '#' :: _ => some .comment
  | _ => none

/-- The text in front of the next mark. -/
def untilMark : List Char → List Char
  | [] => []
  | c :: cs => if (mark? (c :: cs)).isSome then [] else c :: untilMark cs

/-- Whether blanks go away at a mark: `-` takes them, `+` only says that they stay. -/
def control : List Char → Bool × Nat
  | '-' :: _ => (true, 1)
  | '+' :: _ => (false, 1)
  | _ => (false, 0)

/-- The length of a tag that consists of one word, from behind its opening mark, and whether blanks go after it. -/
def wordTag? (word : List Char) (cs : List Char) : Option (Nat × Bool) :=
  let named := cs.dropWhile isSpace
  if word.isPrefixOf named then
    let after := (named.drop word.length).dropWhile isSpace
    let (trim, n) := control after
    if ['%', '}'].isPrefixOf (after.drop n) then some (cs.length - (after.length - n - 2), trim) else none
  else none

/-- What stands before the tag `endraw`: the text, whether blanks go at its end, the length of the tag with its marks, and
whether blanks go after it. -/
def rawEnd? : List Char → Option (List Char × Bool × Nat × Bool)
  | [] => none
  | c :: cs =>
    let inside := (c :: cs).drop 2
    let (trimBefore, n) := control inside
    match mark? (c :: cs), wordTag? ['e', 'n', 'd', 'r', 'a', 'w'] (inside.drop n) with
    | some .tag, some (length, trimAfter) => some ([], trimBefore, length + n + 2, trimAfter)
    | _, _ => (rawEnd? cs).map fun (text, rest) => (c :: text, rest)

/-! ## Numbers and texts -/

inductive NumberPart where
  | whole
  | fraction
  | exponent
  | exponentDigits
deriving DecidableEq, Repr

/-- The characters of a number in base ten, and whether it is a float. -/
def numberPart : NumberPart → List Char → List Char × Bool
  | p, [] => ([], p != .whole)
  | p, c :: cs =>
    let next : Option NumberPart :=
      if c == '.' then if p = .whole then some .fraction else none
      else if c == 'e' || c == 'E' then if p = .whole || p = .fraction then some .exponent else none
      else if c == '+' || c == '-' then if p = .exponent then some .exponentDigits else none
      else if c.isDigit then some (if p = .exponent then .exponentDigits else p)
      else if c == '_' then some p
      else none
    match next with
    | some q =>
      let (ds, float) := numberPart q cs
      (c :: ds, float)
    | none => ([], p != .whole)

def radix : List Char → Nat
  | '0' :: 'b' :: _ | '0' :: 'B' :: _ => 2
  | '0' :: 'o' :: _ | '0' :: 'O' :: _ => 8
  | '0' :: 'x' :: _ | '0' :: 'X' :: _ => 16
  | _ => 10

/-- The largest whole number that can be written, and one. -/
def wholeBound : Nat := Nat.pow 2 128

def whole (base : Nat) (digits : List Char) (length : Nat) : Except Cause (Token × Nat) :=
  match Number.natural? base (digits.filter (· != '_')) with
  | some n => if n < wholeBound then .ok (.int n, length) else .error (.badNumber "integer")
  | none => .error (.badNumber "integer")

/-- The number at the front and its length. -/
def number (cs : List Char) : Except Cause (Token × Nat) :=
  let base := radix cs
  if base = 10 then
    let (ds, float) := numberPart .whole cs
    if float then
      match Number.float? (ds.filter (· != '_')) with
      | some x => .ok (.float x, ds.length)
      | none => .error (.badNumber "float")
    else whole 10 ds ds.length
  else
    let isDigit (c : Char) : Bool :=
      c.isDigit || c == '_' || (base == 16 && (('a' ≤ c && c ≤ 'f') || ('A' ≤ c && c ≤ 'F')))
    let ds := (cs.drop 2).takeWhile isDigit
    whole base ds (ds.length + 2)

/-- What stands in front of the closing quote, escapes left as they are. -/
def quoted (quote : Char) : List Char → Option (List Char)
  | [] => none
  | '\\' :: c :: cs => (quoted quote cs).map fun inside => '\\' :: c :: inside
  | c :: cs => if c = quote then some [] else if c = '\\' then none else (quoted quote cs).map (c :: ·)

def hexNumber (cs : List Char) (n : Nat) : Option Nat :=
  if (cs.take n).length = n then Number.natural? 16 (cs.take n) else none

/-- The text that a quoted stretch stands for; `high` is the first half of a character above the basic plane. -/
def unescape (high : Option Nat) : List Char → Option (List Char)
  | [] => if high.isNone then some [] else none
  | '\\' :: 'u' :: a :: b :: c :: d :: cs =>
    match hexNumber [a, b, c, d] 4, high with
    | some n, none =>
      if 0xD800 ≤ n ∧ n < 0xDC00 then unescape (some n) cs
      else if 0xDC00 ≤ n ∧ n < 0xE000 then none
      else (unescape none cs).map (Char.ofNat n :: ·)
    | some n, some h =>
      if 0xDC00 ≤ n ∧ n < 0xE000 then
        (unescape none cs).map (Char.ofNat (0x10000 + (h - 0xD800) * 0x400 + (n - 0xDC00)) :: ·)
      else none
    | none, _ => none
  | '\\' :: c :: cs =>
    let plain : Option Char := match c with
      | 'n' => some '\n'
      | 't' => some '\t'
      | 'r' => some '\r'
      | 'b' => some '\x08'
      | 'f' => some '\x0c'
      | '"' | '\'' | '\\' | '/' => some c
      | _ => none
    match plain, high with
    | some p, none => (unescape none cs).map (p :: ·)
    | _, _ => none
  | c :: cs => if high.isSome || c = '\\' then none else (unescape none cs).map (c :: ·)

/-! ## Steps -/

inductive Where where
  /-- Between marked stretches; blanks in front may go away. -/
  | outside (trim : Bool)
  /-- In a stretch that prints, inside so many brackets. -/
  | emit (depth : Nat)
  | tag (depth : Nat)
deriving DecidableEq, Repr

/-- One step: where it leads, how many characters it takes after the first one, and the token read. -/
structure Step where
  next : Where
  more : Nat
  token : Option Token

def plainToken (trim : Bool) (text : List Char) : Option Token :=
  let text := if trim then Text.trimEnd text else text
  if text.isEmpty then none else some (.plain (String.ofList text))

/-- A step at a mark. -/
def atMark (m : Mark) (cs : List Char) : Except (Cause × Nat) Step :=
  let (_, n) := control (cs.drop 2)
  let inside := cs.drop (2 + n)
  match m with
  | .emit => .ok ⟨.emit 0, 1 + n, some .emitStart⟩
  | .comment =>
    match Text.cutAt? ['#', '}'] inside with
    | none => .error (.unexpected "end of comment" none, 0)
    | some (text, _) =>
      let last := (cs.take (2 + n + text.length)).getLast?
      .ok ⟨.outside (last == some '-'), n + text.length + 3, none⟩
  | .tag =>
    match wordTag? ['r', 'a', 'w'] inside with
    | none => .ok ⟨.tag 0, 1 + n, some .tagStart⟩
    | some (length, trim) =>
      let body := inside.drop length
      match rawEnd? body with
      | none =>
        .error (.unexpected "end of raw block" none, newlines (cs.take (2 + n + length) ++ untilMark body))
      | some (text, trimEnd, endLength, trimAfter) =>
        let kept := if trim then Text.trimStart text else text
        .ok ⟨.outside trimAfter, 1 + n + length + text.length + endLength, plainToken trimEnd kept⟩

/-- A step between marked stretches. -/
def outsideStep (trim : Bool) (c : Char) (cs : List Char) : Except (Cause × Nat) Step :=
  if trim && Text.isBlank c then .ok ⟨.outside true, 0, none⟩
  else match mark? (c :: cs) with
    | some m => atMark m (c :: cs)
    | none =>
      let text := untilMark (c :: cs)
      let (trimEnd, _) := control ((c :: cs).drop (text.length + 2))
      .ok ⟨.outside false, text.length - 1, plainToken trimEnd text⟩

/-- The end of a marked stretch at the front: its length, and whether blanks go after it. -/
def closing? (first : Char) (cs : List Char) : Option (Nat × Bool) :=
  let (trim, n) := control cs
  if [first, '}'].isPrefixOf (cs.drop n) then some (n + 2, trim)
  else if [first, '}'].isPrefixOf cs then some (2, false)
  else none

def longSigns : List (List Char) :=
  [['/', '/'], ['*', '*'], ['=', '='], ['!', '='], ['>', '='], ['<', '=']]

def shortSigns : List Char :=
  ['+', '-', '*', '/', '%', '!', '.', ',', ':', '~', '=', '>', '<', '|', '(', ')', '[', ']', '{', '}']

/-- A step inside a marked stretch that the character `first` closes; `here` makes the place of a depth of brackets. -/
def insideStep (here : Nat → Where) (depth : Nat) (c : Char) (cs : List Char) : Except (Cause × Nat) Step :=
  if isSpace c then .ok ⟨here depth, 0, none⟩
  else if longSigns.any (·.isPrefixOf (c :: cs)) then
    .ok ⟨here depth, 1, some (.sign (String.ofList ((c :: cs).take 2)))⟩
  else if shortSigns.contains c then
    let depth := if c == '(' || c == '[' || c == '{' then depth + 1
      else if c == ')' || c == ']' || c == '}' then depth - 1
      else depth
    .ok ⟨here depth, 0, some (.sign (String.singleton c))⟩
  else if c == '"' || c == '\'' then
    match quoted c cs with
    | none => .error (.unexpected "end of string" none, 0)
    | some inside =>
      match unescape none inside with
      | some text => .ok ⟨here depth, inside.length + 1, some (.text (String.ofList text))⟩
      | none => .error (.badEscape, newlines inside)
  else if c.isDigit then
    match number (c :: cs) with
    | .ok (token, length) => .ok ⟨here depth, length - 1, some token⟩
    | .error cause => .error (cause, 0)
  else if isNameStart c then
    let name := c :: cs.takeWhile isNamePart
    .ok ⟨here depth, name.length - 1, some (.name (String.ofList name))⟩
  else .error (.unexpected "character" none, 0)

/-- A step from anywhere; a fault comes with the lines between it and the first character. -/
def step (w : Where) (c : Char) (cs : List Char) : Except (Cause × Nat) Step :=
  match w with
  | .outside trim => outsideStep trim c cs
  | .emit depth =>
    match depth, closing? '}' (c :: cs) with
    | 0, some (length, trim) => .ok ⟨.outside trim, length - 1, some .emitEnd⟩
    | _, _ => insideStep .emit depth c cs
  | .tag depth =>
    match depth, closing? '%' (c :: cs) with
    | 0, some (length, trim) => .ok ⟨.outside trim, length - 1, some .tagEnd⟩
    | _, _ => insideStep .tag depth c cs

/-- The tokens of a source as far as they can be read, and the fault that ended the reading with its line. -/
structure Lexemes where
  items : List Lexeme
  fault : Option (Cause × Nat)

def scan (w : Where) (line : Nat) : List Char → Lexemes
  | [] => ⟨[], none⟩
  | c :: cs =>
    match step w c cs with
    | .error (cause, lines) => ⟨[], some (cause, line + lines)⟩
    | .ok s =>
      let rest := scan s.next (line + newlines ((c :: cs).take (s.more + 1))) (cs.drop s.more)
      match s.token with
      | some t => ⟨⟨t, line⟩ :: rest.items, rest.fault⟩
      | none => rest
termination_by cs => cs.length
decreasing_by simp only [List.length_cons, List.length_drop]; omega

def Lexemes.ofText (source : String) : Lexemes := scan (.outside false) 1 source.toList

end Folio.Template
