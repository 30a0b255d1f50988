import Folio.Markdown.Character
import Folio.Text.Search
/-!
# HTML inside Markdown

A tag, comment, instruction, declaration or character section stands for itself within running text.  A line that
starts with certain tags starts a block of HTML, whose kind says where it ends.

Each recogniser takes the text in front of which the thing stands and gives what is left after it.
-/
namespace Folio.Markdown

/-- What is left after a text that stands in front. -/
def after? (front cs : List Char) : Option (List Char) :=
  if front.isPrefixOf cs then some (cs.drop front.length) else none

/-- What is left after the first place of a text. -/
def past? (needle cs : List Char) : Option (List Char) :=
  (Text.cutAt? needle cs).map fun (_, rest) => rest.drop needle.length

/-! ## Tags -/

def tagName? : List Char → Option (List Char)
  | c :: cs => if c.isAlpha then some (cs.dropWhile fun c => c.isAlphanum || c == '-') else none
  | [] => none

def attributeName? : List Char → Option (List Char)
  | c :: cs =>
    if c.isAlpha || c == '_' || c == ':' then
      some (cs.dropWhile fun c => c.isAlphanum || c == '_' || c == '.' || c == ':' || c == '-')
    else none
  | [] => none

def attributeValue? : List Char → Option (List Char)
  | '"' :: cs => past? ['"'] cs
  | '\'' :: cs => past? ['\''] cs
  | cs =>
    let rest := cs.dropWhile fun c => !isAsciiBlank c && !"\"'=<>\x60".toList.contains c
    if rest.length < cs.length then some rest else none

/-- An attribute's value with the equals sign before it; without either, nothing is passed. -/
def attributeRest? (cs : List Char) : Option (List Char) :=
  match dropBlank cs with
  | '=' :: rest => attributeValue? (dropBlank rest)
  | _ => some cs

/-- Passes attributes, each after blank characters; `fuel` bounds the characters left. -/
def attributes : Nat → List Char → List Char
  | 0, cs => cs
  | fuel + 1, cs =>
    match cs with
    | c :: _ =>
      if isAsciiBlank c then
        match (attributeName? (dropBlank cs)).bind attributeRest? with
        | some rest => attributes fuel rest
        | none => cs
      else cs
    | [] => cs

/-- The rest of an opening tag, whose `<` has been read. -/
def openTag? (cs : List Char) : Option (List Char) :=
  (tagName? cs).bind fun rest =>
    match dropBlank (attributes rest.length rest) with
    | '>' :: rest => some rest
    | '/' :: '>' :: rest => some rest
    | _ => none

/-- The rest of a closing tag, whose `<` has been read. -/
def closeTag? : List Char → Option (List Char)
  | '/' :: cs =>
    (tagName? cs).bind fun rest =>
      match dropBlank rest with
      | '>' :: rest => some rest
      | _ => none
  | _ => none

/-- What follows `<!`: a comment, a character section or a declaration. -/
def declaration? : List Char → Option (List Char)
  | '-' :: '-' :: '>' :: rest => some rest
  | '-' :: '-' :: '-' :: '>' :: rest => some rest
  | '-' :: '-' :: rest => past? "-->".toList rest
  | '[' :: rest => (after? "CDATA[".toList rest).bind (past? "]]>".toList)
  | c :: rest => if c.isAlpha then past? ['>'] rest else none
  | [] => none

/-- What follows a `<` that begins a piece of HTML. -/
def inlineHtml? : List Char → Option (List Char)
  | '!' :: cs => declaration? cs
  | '?' :: cs => past? "?>".toList cs
  | cs => (openTag? cs).orElse fun _ => closeTag? cs

/-! ## Addresses in angle brackets -/

def isSchemeChar (c : Char) : Bool := c.isAlphanum || c == '+' || c == '.' || c == '-'

/-- An address that begins with a scheme, and what follows the `>`. -/
def bracketedAddress? : List Char → Option (List Char × List Char)
  | c :: cs =>
    let scheme := cs.takeWhile isSchemeChar
    if c.isAlpha && 1 ≤ scheme.length && scheme.length ≤ 31 then
      match cs.drop scheme.length with
      | ':' :: rest =>
        let body := rest.takeWhile fun c => 0x20 < c.toNat && c != '<' && c != '>'
        match rest.drop body.length with
        | '>' :: rest => some (c :: scheme ++ ':' :: body, rest)
        | _ => none
      | _ => none
    else none
  | [] => none

def isMailboxChar (c : Char) : Bool := c.isAlphanum || ".!#$%&'*+/=?^_\x60\x7b|\x7d~-".toList.contains c

/-- A label of a host name: letters and digits, and hyphens that do not stand at an end. -/
def isHostLabel (cs : List Char) : Bool :=
  !cs.isEmpty && cs.length ≤ 63 && cs.head? != some '-' && cs.getLast? != some '-'

/-- The parts between dots. -/
def dotted : List Char → List (List Char)
  | [] => [[]]
  | c :: cs =>
    if c == '.' then [] :: dotted cs
    else match dotted cs with
      | p :: ps => (c :: p) :: ps
      | [] => [[c]]

/-- A mail address, and what follows the `>`. -/
def bracketedMail? (cs : List Char) : Option (List Char × List Char) :=
  let mailbox := cs.takeWhile isMailboxChar
  match cs.drop mailbox.length with
  | '@' :: rest =>
    let host := rest.takeWhile fun c => c.isAlphanum || c == '-' || c == '.'
    match rest.drop host.length with
    | '>' :: rest =>
      if !mailbox.isEmpty && (dotted host).all isHostLabel then some (mailbox ++ '@' :: host, rest) else none
    | _ => none
  | _ => none

/-! ## Blocks of HTML -/

/-- Where a block of HTML ends. -/
inductive HtmlEnd where
  /-- In the line that holds one of some texts. -/
  | withLine (marks : List (List Char))
  | beforeBlank

namespace HtmlEnd

/-- Whether a line, as its content, is the block's last. -/
def isLast (e : HtmlEnd) (content : List Char) : Bool :=
  match e with
  | withLine marks => marks.any (Text.isWithin · (content.map Char.toLower))
  | beforeBlank => false

end HtmlEnd

/-- Elements whose content is no Markdown. -/
def rawElements : List String := ["script", "pre", "textarea", "style"]

/-- Elements a tag of which starts a block, also right after a paragraph's line. -/
def blockElements : List String :=
  ["address", "article", "aside", "base", "basefont", "blockquote", "body", "caption", "center", "col", "colgroup",
  "dd", "details", "dialog", "dir", "div", "dl", "dt", "fieldset", "figcaption", "figure", "footer", "form", "frame",
  "frameset", "h1", "h2", "h3", "h4", "h5", "h6", "head", "header", "hr", "html", "iframe", "legend", "li", "link",
  "main", "menu", "menuitem", "nav", "noframes", "ol", "optgroup", "option", "p", "param", "search", "section",
  "summary", "table", "tbody", "td", "tfoot", "th", "thead", "title", "tr", "track", "ul"]

/-- What follows the name of one of some elements, whatever its case. -/
def element? (names : List String) (cs : List Char) : Option (List Char) :=
  let name := cs.takeWhile Char.isAlphanum
  if names.contains (String.ofList (name.map Char.toLower)) then some (cs.drop name.length) else none

def endsRawName : List Char → Bool
  | [] => true
  | c :: _ => isAsciiBlank c || c == '>'

def endsBlockName : List Char → Bool
  | '/' :: '>' :: _ => true
  | cs => endsRawName cs

/-- The block of HTML that a line's content starts; a complete tag of any other element starts one unless a paragraph's
line stands right before it. -/
def htmlBlock? (inParagraph : Bool) : List Char → Option HtmlEnd
  | '<' :: cs =>
    if ((element? rawElements cs).map endsRawName).getD false then
      some (.withLine (rawElements.map fun name => "</".toList ++ name.toList ++ ['>']))
    else if (after? "!--".toList cs).isSome then some (.withLine ["-->".toList])
    else if (after? "?".toList cs).isSome then some (.withLine ["?>".toList])
    else if (after? "![CDATA[".toList cs).isSome then some (.withLine ["]]>".toList])
    else if ((after? "!".toList cs).map fun rest => (rest.head?.map Char.isAlpha).getD false).getD false then
      some (.withLine [['>']])
    else if ((element? blockElements ((after? "/".toList cs).getD cs)).map endsBlockName).getD false then
      some .beforeBlank
    else if !inParagraph && (((openTag? cs).orElse fun _ => closeTag? cs).map fun rest =>
        (dropBlank rest).isEmpty).getD false then
      some .beforeBlank
    else none
  | _ => none

end Folio.Markdown
