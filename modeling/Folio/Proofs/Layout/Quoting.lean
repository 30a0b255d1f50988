import Folio.Layout
import Folio.Proofs.Template.Scanning
/-!
# A layout's name inside its quotes

The name of a layout is written between double quotes with a backslash before each backslash and each quote.  No name ends
its literal early or runs over its end: read by the rule of such literals, and by the scanner of templates, the wrapped
source is a tag that names the layout, the tag of the content block, and then the body as it stands (`wrap_literal`).  So
the name and the body can be had back from the wrapped source.
-/
namespace Folio.Layout

open Template (Token Lexeme Lexemes scan scan_cons newlines quoted unescape)

/-! ## Escaping -/

theorem escape_cons (c : Char) (cs : List Char) :
    escape (c :: cs) = if c = '\\' ∨ c = '"' then '\\' :: c :: escape cs else c :: escape cs := rfl

/-- Replacing one character goes through a text character by character. -/
theorem replace_singleton (x : Char) (new : List Char) : ∀ cs : List Char,
    Text.replace [x] new cs = cs.flatMap fun c => if x = c then new else [c]
  | [] => rfl
  | c :: cs => by
    have hrest := replace_singleton x new cs
    unfold Text.replace at hrest ⊢
    simp only [List.isEmpty_cons, Bool.false_eq_true, if_false] at hrest ⊢
    rw [List.flatMap_cons, ← hrest, Text.replaceFrom]
    by_cases hx : x = c
    · subst hx
      simp [List.isPrefixOf]
    · simp [List.isPrefixOf, hx]

/-- Escaping is replacing backslashes and then quotes. -/
theorem escape_eq_replace (name : List Char) :
    escape name = Text.replace ['"'] ['\\', '"'] (Text.replace ['\\'] ['\\', '\\'] name) := by
  rw [replace_singleton, replace_singleton]
  induction name with
  | nil => rfl
  | cons c cs ih =>
    rw [escape_cons, List.flatMap_cons, List.flatMap_append, ← ih]
    by_cases hb : c = '\\'
    · subst hb
      rfl
    · by_cases hq : c = '"'
      · subst hq
        rfl
      · simp [hb, hq, Ne.symm hb, Ne.symm hq]

theorem newlines_escape (name : List Char) : newlines (escape name) = newlines name := by
  unfold newlines
  induction name with
  | nil => rfl
  | cons c cs ih =>
    rw [escape_cons]
    split
    · rw [List.count_cons_of_ne (by decide), List.count_cons, List.count_cons, ih]
    · rw [List.count_cons, List.count_cons, ih]

/-- The first quote that is not escaped is the one behind the name. -/
theorem quoted_escape (name rest : List Char) : quoted '"' (escape name ++ '"' :: rest) = some (escape name) := by
  induction name with
  | nil => rfl
  | cons c cs ih =>
    rw [escape_cons]
    split
    · show (quoted '"' (escape cs ++ '"' :: rest)).map _ = _
      rw [ih]
      rfl
    · rename_i h
      obtain ⟨hb, hq⟩ := not_or.1 h
      rw [List.cons_append, Template.quoted_cons hb, if_neg hq, ih]
      rfl

theorem unescape_escape (name : List Char) : unescape none (escape name) = some name := by
  induction name with
  | nil => rfl
  | cons c cs ih =>
    rw [escape_cons]
    split
    · rename_i h
      obtain rfl | rfl := h
      · show (unescape none (escape cs)).map _ = _
        rw [ih]
        rfl
      · show (unescape none (escape cs)).map _ = _
        rw [ih]
        rfl
    · rename_i h
      obtain ⟨hb, -⟩ := not_or.1 h
      rw [unescape]
      · simp [hb, ih]
      · exact fun _ _ _ _ _ he => absurd he hb
      · exact fun _ _ he => absurd he hb

/-! ## The tags of a wrapped source -/

theorem scan_blank (line : Nat) (cs : List Char) : scan (.tag 0) line (' ' :: cs) = scan (.tag 0) line cs := by
  rw [scan_cons rfl]
  rfl

/-- The mark that opens a tag, unless the tag makes the source behind it raw. -/
theorem scan_tagStart {cs : List Char} (h : Template.wordTag? ['r', 'a', 'w'] (' ' :: cs) = none) (trim : Bool)
    (line : Nat) :
    scan (.outside trim) line ('\x7b' :: '%' :: ' ' :: cs) = (scan (.tag 0) line cs).behind (some .tagStart) line := by
  have hmark : Template.step (.outside trim) '\x7b' ('%' :: ' ' :: cs) = .ok ⟨.tag 0, 1, some .tagStart⟩ := by
    have hat : Template.atMark .tag ('\x7b' :: '%' :: ' ' :: cs) = .ok ⟨.tag 0, 1, some .tagStart⟩ := by
      have hinside : ('\x7b' :: '%' :: ' ' :: cs).drop (2 + 0) = ' ' :: cs := rfl
      have hcontrol : Template.control (('\x7b' :: '%' :: ' ' :: cs).drop 2) = (false, 0) := rfl
      unfold Template.atMark
      rw [hcontrol]
      dsimp only
      rw [hinside, h]
    cases trim <;> exact hat
  rw [scan_cons hmark]
  exact congrArg (Lexemes.behind _ line) (scan_blank line cs)

theorem scan_tagEnd (line : Nat) (cs : List Char) :
    scan (.tag 0) line ('%' :: '\x7d' :: cs) = (scan (.outside false) line cs).behind (some .tagEnd) line := by
  rw [scan_cons rfl]
  rfl

/-- A name with a blank behind it. -/
theorem scan_name (c : Char) (word cs : List Char) (name : String)
    (h : Template.step (.tag 0) c (word ++ ' ' :: cs) = .ok ⟨.tag 0, word.length, some (.name name)⟩)
    (hline : newlines (c :: word) = 0) (line : Nat) :
    scan (.tag 0) line (c :: (word ++ ' ' :: cs)) = (scan (.tag 0) line cs).behind (some (.name name)) line := by
  have htake : (c :: (word ++ ' ' :: cs)).take (word.length + 1) = c :: word := by simp
  rw [scan_cons h]
  dsimp only
  rw [htake, hline, List.drop_left, scan_blank]
  rfl

/-- **A name is read from its literal**, whatever it holds. -/
theorem scan_literal (line : Nat) (name cs : List Char) :
    scan (.tag 0) line ('"' :: (escape name ++ '"' :: cs)) =
      (scan (.tag 0) (line + newlines name) cs).behind (some (.text (String.ofList name))) line := by
  have hstep : Template.step (.tag 0) '"' (escape name ++ '"' :: cs) =
      .ok ⟨.tag 0, (escape name).length + 1, some (.text (String.ofList name))⟩ := by
    have hinside : Template.step (.tag 0) '"' (escape name ++ '"' :: cs) =
      Template.insideStep .tag 0 '"' (escape name ++ '"' :: cs) := rfl
    have hblank : Template.isSpace '"' = false := by decide
    have hlong : Template.longSigns.any (·.isPrefixOf ('"' :: (escape name ++ '"' :: cs))) = false := rfl
    have hshort : Template.shortSigns.contains '"' = false := by decide
    rw [hinside, Template.insideStep, hblank, hlong, hshort, quoted_escape]
    dsimp only
    rw [unescape_escape]
    rfl
  have hsplit : escape name ++ '"' :: cs = (escape name ++ ['"']) ++ cs := by simp
  have htake : ('"' :: (escape name ++ '"' :: cs)).take ((escape name).length + 1 + 1) = '"' :: (escape name ++ ['"']) := by
    rw [hsplit, List.take_succ_cons, List.take_left' (by simp)]
  have hdrop : (escape name ++ '"' :: cs).drop ((escape name).length + 1) = cs := by
    rw [hsplit, List.drop_left' (by simp)]
  have hlines : newlines ('"' :: (escape name ++ ['"'])) = newlines name := by
    unfold newlines
    rw [List.count_cons_of_ne (by decide), List.count_append]
    exact newlines_escape name
  rw [scan_cons hstep]
  dsimp only
  rw [htake, hlines, hdrop]

/-- The tokens of the tag that opens the content block. -/
def blockTokens (line : Nat) : List Lexeme :=
  [⟨.tagStart, line⟩, ⟨.name "block", line⟩, ⟨.name "content", line⟩, ⟨.tagEnd, line⟩]

theorem scan_blockTag (line : Nat) (cs : List Char) :
    scan (.outside false) line ("\x7b% block content %\x7d".toList ++ cs) =
      Lexemes.andThen ⟨blockTokens line, none⟩ (scan (.outside false) line cs) := by
  have hcontent := scan_name 'c' ['o', 'n', 't', 'e', 'n', 't'] ('%' :: '\x7d' :: cs) "content" rfl rfl line
  have hblock := scan_name 'b' ['l', 'o', 'c', 'k'] ('c' :: (['o', 'n', 't', 'e', 'n', 't'] ++ ' ' :: '%' :: '\x7d' :: cs))
    "block" rfl rfl line
  have hstart : scan (.outside false) line ("\x7b% block content %\x7d".toList ++ cs) = (scan (.tag 0) line
      ('b' :: (['l', 'o', 'c', 'k'] ++ ' ' :: 'c' :: (['o', 'n', 't', 'e', 'n', 't'] ++ ' ' :: '%' :: '\x7d' :: cs)))).behind
      (some .tagStart) line := scan_tagStart rfl false line
  rw [hstart, hblock, hcontent, scan_tagEnd]
  rfl

/-- The tokens in front of the body: the tag that names the layout, and the tag of the content block. -/
def front (name : String) (line : Nat) : List Lexeme :=
  [⟨.tagStart, 1⟩, ⟨.name "extends", 1⟩, ⟨.text name, 1⟩, ⟨.tagEnd, line⟩,
    ⟨.tagStart, line⟩, ⟨.name "block", line⟩, ⟨.name "content", line⟩, ⟨.tagEnd, line⟩]

theorem toList_wrap (body name : String) :
    (wrap body name).toList = opening ++ (escape name.toList ++ '"' :: (middle ++ (body.toList ++ closing))) := by
  rw [wrap, String.toList_ofList, wrapChars, List.append_assoc, List.append_assoc]

/-- **The scanner reads the layout's name and goes on with the body.** -/
theorem ofText_wrap (body name : String) :
    Lexemes.ofText (wrap body name) =
      Lexemes.andThen ⟨front name (1 + newlines name.toList), none⟩
        (scan (.outside false) (1 + newlines name.toList) (body.toList ++ closing)) := by
  have hopening : ∀ cs, scan (.outside false) 1 (opening ++ cs) =
      ((scan (.tag 0) 1 ('"' :: cs)).behind (some (.name "extends")) 1).behind (some .tagStart) 1 := fun cs => by
    have hword := scan_name 'e' ['x', 't', 'e', 'n', 'd', 's'] ('"' :: cs) "extends" rfl rfl 1
    rw [← hword]
    exact scan_tagStart rfl false 1
  have hmiddle : ∀ line cs, scan (.tag 0) line (middle ++ cs) =
      (Lexemes.andThen ⟨blockTokens line, none⟩ (scan (.outside false) line cs)).behind (some .tagEnd) line :=
    fun line cs => by
      rw [← scan_blockTag]
      exact (scan_blank line _).trans (scan_tagEnd line _)
  unfold Lexemes.ofText
  rw [toList_wrap, hopening, scan_literal, hmiddle, String.ofList_toList]
  rfl

theorem wrap_injective {body body' name name' : String} (h : wrap body name = wrap body' name') :
    body = body' ∧ name = name' := by
  have hchars := congrArg String.toList h
  rw [toList_wrap, toList_wrap, List.append_cancel_left_eq] at hchars
  -- Both literals end where reading ends, so the names agree there and what follows them agrees too.
  have hread := congrArg read hchars
  rw [read_escape, read_escape, Option.some.injEq, Prod.mk.injEq] at hread
  obtain ⟨hname, hrest⟩ := hread
  rw [List.append_cancel_left_eq, List.append_cancel_right_eq] at hrest
  exact ⟨String.toList_injective hrest, String.toList_injective hname⟩

/-- **The layout's name cannot leave its literal.**  Its two replacements are undone by the rule of quoted literals: what
stands behind the opening quote of a wrapped source reads as the name, and behind the closing quote follow the content
block's tag, the body as it stands, and the end of the block.  The scanner of templates finds the same end of the literal
and the same name in it, in a tag that extends, and goes on with the body outside of every tag.  So no two bodies and names
are wrapped alike. -/
theorem wrap_literal (body name : String) :
    (∃ rest, (wrap body name).toList = "\x7b% extends \"".toList ++ rest ∧
      read rest = some (name.toList,
        " %\x7d\x7b% block content %\x7d".toList ++ body.toList ++ "\x7b% endblock %\x7d".toList) ∧
      ∃ inside, inside = Text.replace ['"'] ['\\', '"'] (Text.replace ['\\'] ['\\', '\\'] name.toList) ∧
        quoted '"' rest = some inside ∧ unescape none inside = some name.toList) ∧
    Lexemes.ofText (wrap body name) =
      Lexemes.andThen ⟨front name (1 + newlines name.toList), none⟩
        (scan (.outside false) (1 + newlines name.toList) (body.toList ++ closing)) ∧
    ∀ body' name', wrap body name = wrap body' name' ↔ body = body' ∧ name = name' := by
  refine ⟨⟨escape name.toList ++ '"' :: (middle ++ (body.toList ++ closing)), toList_wrap body name, ?_,
    escape name.toList, escape_eq_replace _, quoted_escape _ _, unescape_escape _⟩, ofText_wrap body name, ?_⟩
  · rw [read_escape, ← List.append_assoc]
    rfl
  · intro body' name'
    constructor
    · exact wrap_injective
    · rintro ⟨rfl, rfl⟩
      rfl

end Folio.Layout
