import Folio.Text.Blank
import Folio.Text.Search
import Folio.Markdown.Character
import Folio.Markdown.Syntax
/-!
# Addresses in running text

An address that starts with `http://`, `https://`, `ftp://` or `www.`, and a mail address, link to themselves.  Such an
address ends where blank characters or `<` do, without the signs that rather end the sentence (`trimAddress`).
-/
namespace Folio.Markdown

/-- Whether a text starts with a host name.  `dots` counts the dots, `earlier` and `current` the underscores in
the part before the last dot and after it. -/
def startsHost (allowsShort : Bool) (dots earlier current : Nat) : List Char → Bool
  | [] => (earlier == 0 && current == 0 || 10 < dots) && (allowsShort || 0 < dots)
  | c :: cs =>
    if c == '_' then startsHost allowsShort dots earlier (current + 1) cs
    else if c == '.' then startsHost allowsShort (dots + 1) current 0 cs
    else if (Text.isBlank c || isSign c) && c != '-' && !(c == '\\' && !cs.isEmpty) then
      earlier == 0 && current == 0 && (allowsShort || 0 < dots)
    else startsHost allowsShort dots earlier current cs

/-- Drops the end of an address, given from its last character on, that belongs to the sentence: signs, a
reference to a character, and parentheses that the address did not open. -/
def trimAddress : Nat → List Char → List Char
  | fuel + 1, c :: newest =>
    if "?!.,:*_~'\"[]".toList.contains c then trimAddress fuel newest
    else if c == ';' then
      let letters := newest.takeWhile Char.isAlpha
      match newest.drop letters.length with
      | '&' :: more => if letters.isEmpty then trimAddress fuel newest else trimAddress fuel more
      | _ => trimAddress fuel newest
    else if c == ')' then
      if (c :: newest).count ')' ≤ newest.count '(' then c :: newest else trimAddress fuel newest
    else c :: newest
  | _, newest => newest

/-- The address at the front of a text. -/
def addressExtent (cs : List Char) : List Char :=
  let stretch := cs.takeWhile fun c => !isAsciiBlank c && c != '<'
  (trimAddress stretch.length stretch.reverse).reverse

def linkTo (address shown : List Char) : Inline := .link address [] [.text shown]

def schemes : List (List Char) := ["http".toList, "https".toList, "ftp".toList]

/-- An address with a scheme: `newest` are the letters before a colon, last one first, and the text after the colon
follows. -/
def schemeAddress? (newest cs : List Char) : Option (List Char) :=
  let scheme := (newest.takeWhile Char.isAlpha).reverse
  match cs with
  | '/' :: '/' :: rest =>
    if schemes.contains scheme && !rest.isEmpty && startsHost true 0 0 0 rest then
      some (scheme ++ addressExtent (':' :: cs))
    else none
  | _ => none

/-- An address that starts with `www.` after a blank character or one of some signs. -/
def wwwAddress? (before : Option Char) (cs : List Char) : Option (List Char) :=
  let mayStart := (before.map fun c => isAsciiBlank c || "*_~([".toList.contains c).getD true
  if mayStart && "www.".toList.isPrefixOf cs && startsHost false 0 0 0 cs then some (addressExtent cs) else none

/-! ## Mail addresses -/

/-- What stands in front of the `@`, last character first, and whether it names a protocol; `mailto:` and `xmpp:` may
stand before the name. -/
def mailbox : List Char → List Char × Option (List Char)
  | [] => ([], none)
  | c :: newest =>
    if c.isAlphanum || ".+-_".toList.contains c then
      let (name, protocol) := mailbox newest
      (c :: name, protocol)
    else if c == ':' then
      let letters := (newest.takeWhile Char.isAlpha).reverse
      if letters == "mailto".toList || letters == "xmpp".toList then
        ((c :: newest).take (letters.length + 1), some letters)
      else ([], none)
    else ([], none)

/-- The host after the `@`; none if another `@` follows it. -/
def mailHost? (allowsSlash : Bool) : List Char → Option (List Char)
  | [] => some []
  | c :: cs =>
    if c == '@' then none
    else if c.isAlphanum || c == '-' || c == '_' || (c == '/' && allowsSlash)
        || (c == '.' && (cs.head?.map Char.isAlphanum).getD false) then
      (mailHost? allowsSlash cs).map (c :: ·)
    else some []

/-- The mail address around an `@`, and how many of the characters before the `@` it has. -/
def mailAddress? (newest cs : List Char) : Option (List Char × Nat × Bool) :=
  let (name, protocol) := mailbox newest
  if name.isEmpty then none
  else (mailHost? (protocol == some "xmpp".toList) cs).bind fun host =>
    if host.contains '.' && ((host.getLast?.map Char.isAlpha).getD false) then
      let extent := (trimAddress (host.length + 1) (host.reverse ++ ['@'])).reverse
      some (name.reverse ++ extent, name.length, protocol.isSome)
    else none

/-- Makes links of the mail addresses in a text, outside of brackets.  `depth` counts the brackets that are open,
`newest` holds the characters read since the last link, `covered` how many still belong to it. -/
def linkMail (depth : Int) (newest : List Char) (covered : Nat) : List Char → List Inline
  | [] => if newest.isEmpty then [] else [.text newest.reverse]
  | c :: cs =>
    match covered with
    | n + 1 => linkMail depth newest n cs
    | 0 =>
      let depth := if c == '[' then depth + 1 else if c == ']' then depth - 1 else depth
      match if c == '@' && depth ≤ 0 then mailAddress? newest cs else none with
      | some (shown, back, hasProtocol) =>
        let before := (newest.drop back).reverse
        let link := linkTo (if hasProtocol then shown else "mailto:".toList ++ shown) shown
        (if before.isEmpty then [] else [.text before]) ++ link :: linkMail 0 [] (shown.length - back - 1) cs
      | none => linkMail depth (c :: newest) 0 cs

mutual

/-- Makes links of mail addresses in texts that stand in no link. -/
def Inline.linkMails : Inline → List Inline
  | .text cs => linkMail 0 [] 0 cs
  | .emphasis body => [.emphasis (linkMailsIn body)]
  | .strong body => [.strong (linkMailsIn body)]
  | .deleted body => [.deleted (linkMailsIn body)]
  | i => [i]

def linkMailsIn : List Inline → List Inline
  | [] => []
  | i :: is => i.linkMails ++ linkMailsIn is

end

end Folio.Markdown
