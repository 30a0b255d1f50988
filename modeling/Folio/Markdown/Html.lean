import Folio.Markdown.Note
/-!
# Writing HTML

A document is written from its first block to its last, its notes after it.  Blocks start on lines of their own
(`Page.freshLine`).
-/
namespace Folio.Markdown

/-- What has been written, last character first. -/
abbrev Page := List Char

namespace Page

def putChars (cs : List Char) (p : Page) : Page := cs.reverse ++ p

def put (s : String) (p : Page) : Page := p.putChars s.toList

def freshLine (p : Page) : Page :=
  match p with
  | [] => []
  | '\n' :: p => '\n' :: p
  | p => '\n' :: p

end Page

/-! ## Running text -/

mutual

/-- The text of an inline without its markup. -/
def Inline.toText : Inline → List Char
  | .text cs => cs
  | .code cs => cs
  | .html cs => cs
  | .softBreak => [' ']
  | .hardBreak => [' ']
  | .emphasis body => toTextAll body
  | .strong body => toTextAll body
  | .deleted body => toTextAll body
  | .link _ _ body => toTextAll body
  | .image _ _ body => toTextAll body
  | .noteRef _ _ _ => []

def toTextAll : List Inline → List Char
  | [] => []
  | i :: is => i.toText ++ toTextAll is

end

/-- Schemes of addresses that run something. -/
def riskySchemes : List String := ["javascript:", "vbscript:", "file:", "data:"]

/-- Kinds of data that are pictures only. -/
def safeData : List String := ["data:image/png", "data:image/gif", "data:image/jpeg", "data:image/webp"]

def isRisky (address : List Char) : Bool :=
  let startsWith (s : String) : Bool := s.toList.isPrefixOf (address.map Char.toLower)
  riskySchemes.any startsWith && !safeData.any startsWith

/-- An address in a text with or without HTML of its own; without it, addresses that run something are left out. -/
def shownAddress (rawHtml : Bool) (address : List Char) : List Char :=
  if rawHtml || !isRisky address then percentEncode address else []

def putTitle (title : List Char) (p : Page) : Page :=
  if title.isEmpty then p else p.put " title=\"" |>.putChars (escape title) |>.put "\""

/-- What takes the place of HTML that is not to be kept. -/
def omitted : String := "<!-- raw HTML omitted -->"

/-- The end of a name that tells the second and later references to a note apart. -/
def useSuffix (uses : Nat) : String := if uses ≤ 1 then "" else "-" ++ toString uses

mutual

def Inline.write (rawHtml : Bool) : Inline → Page → Page
  | .text cs, p => p.putChars (escape cs)
  | .code cs, p => p.put "<code>" |>.putChars (escape cs) |>.put "</code>"
  | .html cs, p => if rawHtml then p.putChars cs else p.put omitted
  | .softBreak, p => p.put "\n"
  | .hardBreak, p => p.put "<br />\n"
  | .emphasis body, p => (writeInlines rawHtml body (p.put "<em>")).put "</em>"
  | .strong body, p => (writeInlines rawHtml body (p.put "<strong>")).put "</strong>"
  | .deleted body, p => (writeInlines rawHtml body (p.put "<del>")).put "</del>"
  | .link address title body, p =>
    let p := p.put "<a href=\"" |>.putChars (shownAddress rawHtml address) |>.put "\""
    (writeInlines rawHtml body ((putTitle title p).put ">")).put "</a>"
  | .image address title body, p =>
    let p := p.put "<img src=\"" |>.putChars (shownAddress rawHtml address) |>.put "\" alt=\""
    (putTitle title (p.putChars (escape (toTextAll body)) |>.put "\"")).put " />"
  | .noteRef label number uses, p =>
    let name := String.ofList (percentEncode label)
    p.put ("<sup class=\"footnote-ref\"><a href=\"#fn-" ++ name ++ "\" id=\"fnref-" ++ name ++ useSuffix uses
      ++ "\" data-footnote-ref>" ++ toString number ++ "</a></sup>")

def writeInlines (rawHtml : Bool) : List Inline → Page → Page
  | [], p => p
  | i :: is, p => writeInlines rawHtml is (i.write rawHtml p)

end

/-! ## Blocks -/

def alignAttribute : Alignment → String
  | .none => ""
  | .left => " align=\"left\""
  | .center => " align=\"center\""
  | .right => " align=\"right\""

def writeCells (rawHtml : Bool) (tag : String) : List (Alignment × List Inline) → Page → Page
  | [], p => p
  | (a, body) :: cells, p =>
    let p := p.freshLine.put ("<" ++ tag ++ alignAttribute a ++ ">")
    writeCells rawHtml tag cells ((writeInlines rawHtml body p).put ("</" ++ tag ++ ">"))

def writeRow (rawHtml : Bool) (tag : String) (columns : List Alignment) (cells : List (List Inline)) (p : Page) :
    Page :=
  (writeCells rawHtml tag (columns.zip cells) (p.freshLine.put "<tr>")).freshLine.put "</tr>"

def writeTable (rawHtml : Bool) (columns : List Alignment) (head : List (List Inline))
    (rows : List (List (List Inline))) (p : Page) : Page :=
  let p := writeRow rawHtml "th" columns head (p.freshLine.put "<table>\n<thead>")
  let p := p.freshLine.put "</thead>"
  let p := if rows.isEmpty then p
    else (rows.foldl (fun p row => writeRow rawHtml "td" columns row p) (p.freshLine.put "<tbody>")).freshLine.put
      "</tbody>"
  p.freshLine.put "</table>\n"

def writeCode (info literal : List Char) (p : Page) : Page :=
  let language := info.takeWhile (!isAsciiBlank ·)
  let p := p.freshLine.put "<pre><code"
  let p := if language.isEmpty then p else p.put " class=\"language-" |>.putChars (escape language) |>.put "\""
  p.put ">" |>.putChars (escape literal) |>.put "</code></pre>\n"

def taskBox (isDone : Bool) : String :=
  "<input type=\"checkbox\"" ++ (if isDone then " checked=\"\"" else "") ++ " disabled=\"\" /> "

mutual

/-- Writes a block; in a tight list, a paragraph is its text only. -/
def Block.write (o : Options) (tight : Bool) : Block (List Inline) → Page → Page
  | .paragraph body, p =>
    if tight then writeInlines o.rawHtml body p
    else (writeInlines o.rawHtml body (p.freshLine.put "<p>")).put "</p>\n"
  | .heading level body, p =>
    let tag := "h" ++ toString level ++ ">"
    (writeInlines o.rawHtml body (p.freshLine.put ("<" ++ tag))).put ("</" ++ tag ++ "\n")
  | .code info literal, p => writeCode info literal p
  | .html literal, p => (if o.rawHtml then p.freshLine.putChars literal else p.freshLine.put omitted).freshLine
  | .rule, p => p.freshLine.put "<hr />\n"
  | .table columns head rows, p => writeTable o.rawHtml columns head rows p
  | .quote body, p => (writeBlocks o false body (p.freshLine.put "<blockquote>\n")).freshLine.put "</blockquote>\n"
  | .list start isTight items, p =>
    let (opening, closing) := match start with
      | none => ("<ul>\n", "</ul>\n")
      | some 1 => ("<ol>\n", "</ol>\n")
      | some n => ("<ol start=\"" ++ toString n ++ "\">\n", "</ol>\n")
    (writeItems o isTight items (p.freshLine.put opening)).put closing
  | .task isDone, p => p.put (taskBox isDone)
  | .note _ body, p => writeBlocks o false body p

def writeBlocks (o : Options) (tight : Bool) : List (Block (List Inline)) → Page → Page
  | [], p => p
  | b :: bs, p => writeBlocks o tight bs (b.write o tight p)

def writeItems (o : Options) (tight : Bool) : List (List (Block (List Inline))) → Page → Page
  | [], p => p
  | body :: items, p =>
    let p := p.freshLine.put "<li>"
    writeItems o tight items ((writeBlocks o tight body p).put "</li>\n")

end

/-! ## Notes -/

/-- A way back from a note to one of the references to it. -/
def backLink (f : Footnote) (use : Nat) : String :=
  let suffix := useSuffix use
  let name := toString f.number ++ suffix
  "<a href=\"#fnref-" ++ String.ofList (percentEncode f.label) ++ suffix
    ++ "\" class=\"footnote-backref\" data-footnote-backref data-footnote-backref-idx=\"" ++ name
    ++ "\" aria-label=\"Back to reference " ++ name ++ "\">↩"
    ++ (if use ≤ 1 then "" else "<sup class=\"footnote-ref\">" ++ toString use ++ "</sup>") ++ "</a>"

def backLinks (f : Footnote) : String := " ".intercalate ((List.range f.uses).map fun i => backLink f (i + 1))

/-- Writes a note; the ways back stand in its last paragraph if it ends in one. -/
def writeFootnote (o : Options) (p : Page) (f : Footnote) : Page :=
  let p := p.freshLine.put "<li id=\"fn-" |>.putChars (percentEncode f.label) |>.put "\">"
  let p := match f.body.getLast? with
    | some (.paragraph body) =>
      let p := (writeBlocks o false f.body.dropLast p).freshLine.put "<p>"
      (writeInlines o.rawHtml body p).put (" " ++ backLinks f ++ "</p>\n")
    | _ => (writeBlocks o false f.body p).put (backLinks f ++ "\n")
  p.put "</li>\n"

def Document.write (o : Options) (d : Document) : Page :=
  let p := writeBlocks o false d.body []
  if d.footnotes.isEmpty then p
  else (d.footnotes.foldl (writeFootnote o) (p.freshLine.put "<section class=\"footnotes\" data-footnotes>\n<ol>\n")).put
    "</ol>\n</section>\n"

/-- The HTML of a text in Markdown. -/
def toHtml (o : Options) (text : String) : String :=
  String.ofList ((read o text.toList).write o).reverse

end Folio.Markdown
