import Folio.Proofs.Layout.Quoting
import Folio.Proofs.Template.Seam
/-!
# Reading wrapped bodies

A wrapped body is read as it is where it stands: in a block of a page that inherits from the layout (`read_wrap`).  But a
body that ends with an opening brace makes another mark of the mark behind it, so its block is never closed
(`read_wrap_brace`).
-/
namespace Folio.Template

/-! ## Sources in their places -/

/-- Where a source stands: the number of its first line, how deep it is nested, the templates that its page inherits from,
and how many levels are left below it. -/
structure Placement where
  line : Nat
  depth : Nat
  inherited : List String
  /-- The templates that are loaded there from the start. -/
  loaded : List String
  levels : Nat

/-- A source that stands alone. -/
def Placement.alone (tree : FileTree) : Placement := ⟨1, 0, [], [], Template.levels tree⟩

/-- A source in a block of a page that inherits from a layout: one deeper for the block, and two levels further in, as the
layout goes on with the page and the block with the layout. -/
def Placement.inside (tree : FileTree) (layout : String) : Placement :=
  ⟨1 + newlines layout.toList, 1, [layout], [layout], Template.levels tree - 2⟩

/-- Reads a source in its place. -/
def readAt (p : Placement) (name source : String) : Except Fault Template :=
  let lexemes := scan (.outside false) p.line source.toList
  let start : Cursor := ⟨lexemes.items, lexemes.fault, p.line, [], [], [], false, p.depth⟩
  match body (32 * (lexemes.items.length + 2)) [] [] start with
  | .ok (ss, c) => .ok ⟨name, ss, c.blocks.reverse⟩
  | .error (cause, line) => .error ⟨cause, some ⟨name, line⟩⟩

theorem readAt_alone (tree : FileTree) : readAt (.alone tree) = read := rfl

/-- A source whose last token ends in front of text ends outside of marked stretches. -/
theorem EndOutside.endsOutside {ls : List Lexeme} (h : EndOutside ls) {w : Where} (hw : w.isOutside = true) :
    endsOutside w (ls.getLast?.map (·.token)) = true := by
  cases hlast : ls.getLast? with
  | none => exact hw
  | some l => exact h l hlast

/-! ## Text without marks -/

/-- The statements that print a text. -/
def Stmt.ofText (source : String) : List Stmt :=
  match source.toList with
  | [] => []
  | _ :: _ => [.plain source]

/-- Text without marks is read as itself in every place. -/
theorem readAt_unmarked {source : String} (h : Unmarked source.toList) (p : Placement) (name : String) :
    readAt p name source = .ok ⟨name, Stmt.ofText source, []⟩ := by
  unfold readAt Stmt.ofText
  cases hsource : source.toList with
  | nil =>
    have hbody : body 64 [] [] ⟨[], none, p.line, [], [], [], false, p.depth⟩ = .ok ([], _) :=
      body_step.2 (.finished rfl rfl)
    rw [scan_nil]
    simp only [List.length_nil, Nat.zero_add, Nat.reduceMul, hbody]
    rfl
  | cons c cs =>
    rw [hsource] at h
    have hscan : scan (.outside false) p.line (c :: cs) = ⟨[⟨.plain source, p.line⟩], none⟩ := by
      rw [scan_unmarked h, ← hsource, String.ofList_toList]
    have hbody : body 96 [] [] ⟨[⟨.plain source, p.line⟩], none, p.line, [], [], [], false, p.depth⟩ =
        .ok ([.plain source], _) := body_step.2 (.plain rfl (body_step.2 (.finished rfl rfl)))
    rw [hscan]
    simp only [List.length_cons, List.length_nil, Nat.zero_add, Nat.reduceAdd, Nat.reduceMul, hbody]
    rfl

theorem Unmarked.without {source : String} (h : Unmarked source.toList) (words : List String) :
    Without words (Lexemes.ofText source).items := by
  unfold Lexemes.ofText
  cases hsource : source.toList with
  | nil =>
    rw [scan_nil]
    exact fun _ hw => nomatch hw
  | cons c cs =>
    rw [hsource] at h
    rw [scan_unmarked h]
    exact fun _ hw => nomatch hw

end Folio.Template

namespace Folio.Layout

open Template

/-! ## Reading a wrapped body -/

theorem closing_isTag : IsTag closing := ⟨"endblock %\x7d".toList, rfl⟩

/-- The tokens of the tag that closes the content block. -/
theorem scan_closing {w : Where} (hw : w.isOutside = true) (line : Nat) :
    scan w line closing = ⟨closingTag line [⟨.tagEnd, line⟩], none⟩ := by
  cases w with
  | outside trim =>
    have hword := scan_name 'e' ['n', 'd', 'b', 'l', 'o', 'c', 'k'] ['%', '\x7d'] "endblock" rfl rfl line
    have hstart : scan (.outside trim) line closing = (scan (.tag 0) line
        ('e' :: (['n', 'd', 'b', 'l', 'o', 'c', 'k'] ++ ' ' :: ['%', '\x7d']))).behind (some .tagStart) line :=
      scan_tagStart rfl trim line
    rw [hstart, hword, scan_tagEnd, scan_nil]
    rfl
  | emit depth => cases hw
  | tag depth => cases hw

/-- A tag at which reading goes on. -/
theorem body_tag {n : Nat} {ends : List String} {done ss : List Stmt} {c d e : Cursor} {s : Stmt} {line line' : Nat}
    {first : Lexeme} {rest after : List Lexeme} (hc : c.rest = ⟨.tagStart, line⟩ :: first :: rest)
    (hdepth : c.depth < deepest) (hfirst : anyWord ends (some first.token) = false)
    (hs : statement n { c with rest := first :: rest, line := line, depth := c.depth + 1 } = .ok (s, d))
    (hd : d.rest = ⟨.tagEnd, line'⟩ :: after)
    (hrest : body n ends (s :: done) { d with rest := after, line := line', depth := d.depth - 1 } = .ok (ss, e)) :
    body (n + 1) ends done c = .ok (ss, e) := by
  obtain ⟨_, fault, place, names, blocks, mentioned, inDefinition, depth⟩ := d
  cases hd
  exact body_step.2 (.tag hc hfirst (deeper_ok hdepth hs) rfl hrest)

/-- The statement of the tag that names a layout. -/
theorem statement_extends (n : Nat) (name : String) (line : Nat) (rest : List Lexeme) (fault : Option (Cause × Nat)) :
    statement (n + 21) ⟨⟨.name "extends", 1⟩ :: ⟨.text name, 1⟩ :: ⟨.tagEnd, line⟩ :: rest, fault, 1, [], [], [], false, 1⟩ =
      .ok (.inherit 1 (.constant 1 (.text name)), ⟨⟨.tagEnd, line⟩ :: rest, fault, 1, [], [], [], false, 1⟩) := by
  rw [statement]
  rfl

/-- The statement of the content block, whose body stands alone at the second place. -/
theorem statement_block {n n' : Nat} (hn : n ≤ n') {c d : Cursor} {ss : List Stmt} (hbody : body n [] [] c = .ok (ss, d))
    (hblocks : d.blocks = c.blocks) (hnames : c.blockNames = []) (hdefinition : c.inDefinition = false)
    (line line' place : Nat) (after : List Lexeme) :
    statement (n' + 3) { c with
        rest := ⟨.name "block", c.line⟩ :: ⟨.name contentBlock, c.line⟩ :: ⟨.tagEnd, c.line⟩ ::
          (c.rest ++ closingTag line (⟨.tagEnd, place⟩ :: after))
        line := line' } =
      .ok (.block c.line contentBlock, { d with
        rest := ⟨.tagEnd, place⟩ :: after
        blockNames := d.blockNames ++ [contentBlock]
        blocks := (contentBlock, ss) :: d.blocks
        line := line }) := by
  obtain ⟨-, -, -, -, hclosed⟩ := body_before line (⟨.tagEnd, place⟩ :: after) [contentBlock] hn hbody
  have hclosed := hclosed hblocks
  obtain ⟨rest, fault, start, names, blocks, mentioned, inDefinition, depth⟩ := c
  cases hnames
  cases hdefinition
  have hinside : closedBody (n' + 1) "endblock" ⟨⟨.tagEnd, start⟩ :: (rest ++ closingTag line (⟨.tagEnd, place⟩ :: after)),
      fault, start, [contentBlock], blocks, mentioned, false, depth⟩ =
      .ok (ss, { d with
        rest := ⟨.tagEnd, place⟩ :: after
        blockNames := d.blockNames ++ [contentBlock]
        line := line }) := by
    rw [closedBody]
    refine Reader.bind_eq_ok.2 ⟨(), _, rfl, ?_⟩
    exact Reader.bind_eq_ok.2 ⟨ss, _, hclosed, Reader.bind_eq_ok.2 ⟨_, _, rfl, rfl⟩⟩
  rw [statement]
  refine Reader.bind_eq_ok.2 ⟨_, _, rfl, Reader.bind_eq_ok.2 ⟨_, _, rfl, ?_⟩⟩
  dsimp only
  rw [blockTag]
  refine Reader.bind_eq_ok.2 ⟨_, _, rfl, Reader.bind_eq_ok.2 ⟨contentBlock, _, rfl, ?_⟩⟩
  refine Reader.bind_eq_ok.2 ⟨_, _, rfl, Reader.bind_eq_ok.2 ⟨(), _, rfl, ?_⟩⟩
  exact Reader.bind_eq_ok.2 ⟨ss, _, hinside, rfl⟩

/-- A source that ends with the content block, whose body stands alone at the second place. -/
theorem body_block {n n' : Nat} (hn : n ≤ n') {items : List Lexeme} {fault : Option (Cause × Nat)} {place : Nat}
    {d : Cursor} {ss : List Stmt}
    (hbody : body n [] [] ⟨items, fault, place, [], [], [], false, 1⟩ = .ok (ss, d)) (hblocks : d.blocks = [])
    (done : List Stmt) (line line' : Nat) :
    ∃ e, body (n' + 4) [] done
        ⟨blockTokens place ++ (items ++ closingTag line [⟨.tagEnd, line⟩]), fault, line', [], [], [], false, 0⟩ =
        .ok ((.block place contentBlock :: done).reverse, e) ∧ e.blocks = [(contentBlock, ss)] := by
  obtain ⟨-, -, hfault, -, -⟩ := body_before line [] [] (Nat.le_refl n) hbody
  have hstatement := statement_block hn hbody hblocks rfl rfl line place line []
  have hdepth : 0 < deepest := by decide
  refine ⟨_, body_tag rfl hdepth (anyWord_nil _) hstatement rfl (body_step.2 (.finished rfl hfault)), ?_⟩
  exact congrArg ((contentBlock, ss) :: ·) hblocks

/-- The layout that is nothing but its content block. -/
def passThrough : String := "\x7b% block content %\x7d\x7b% endblock %\x7d"

/-- What `read` makes of a source whose tokens have been read. -/
theorem read_eq_ok {name source : String} {items : List Lexeme} {n : Nat} {ss : List Stmt} {c : Cursor}
    {blocks : List (String × List Stmt)} (hitems : Lexemes.ofText source = ⟨items, none⟩)
    (hn : n = 32 * (items.length + 2)) (hbody : body n [] [] ⟨items, none, 1, [], [], [], false, 0⟩ = .ok (ss, c))
    (hblocks : c.blocks = blocks) : Template.read name source = .ok ⟨name, ss, blocks.reverse⟩ := by
  unfold Template.read
  rw [hitems]
  dsimp only
  rw [← hn, hbody]
  dsimp only
  rw [hblocks]

theorem read_passThrough (name : String) :
    Template.read name passThrough = .ok ⟨name, [.block 1 contentBlock], [(contentBlock, [])]⟩ := by
  have hitems : Lexemes.ofText passThrough = ⟨blockTokens 1 ++ ([] ++ closingTag 1 [⟨.tagEnd, 1⟩]), none⟩ := by
    have hsource : passThrough.toList = "\x7b% block content %\x7d".toList ++ closing := by decide
    unfold Lexemes.ofText
    rw [hsource, scan_blockTag, scan_closing rfl]
    rfl
  have hempty : body 1 [] [] ⟨[], none, 1, [], [], [], false, 1⟩ = .ok ([], _) := body_step.2 (.finished rfl rfl)
  obtain ⟨e, hbody, hblocks⟩ := body_block (Nat.le_add_left 1 283) hempty rfl [] 1 1
  exact read_eq_ok hitems rfl hbody hblocks

/-- **A wrapped body is read as it is read in its place**: as the content block of a page that inherits from the layout. -/
theorem read_wrap {tree : FileTree} {page source layout : String} {u : Template} (hlast : Apart source.toList)
    (hread : readAt (.inside tree layout) page source = .ok u) (hblocks : u.blocks = []) :
    Template.read page (wrap source layout) = .ok ⟨page, [.inherit 1 (.constant 1 (.text layout)),
      .block (1 + newlines layout.toList) contentBlock], [(contentBlock, u.body)]⟩ := by
  unfold readAt at hread
  dsimp only [Placement.inside] at hread
  generalize hlexemes : scan (.outside false) (1 + newlines layout.toList) source.toList = lexemes at hread
  obtain ⟨items, fault⟩ := lexemes
  dsimp only at hread
  split at hread
  · rename_i ss d hbody
    cases hread
    obtain ⟨honward, hrest, hdone, hends, -⟩ := body_before 1 [] [] (Nat.le_refl _) hbody
    have hfault : fault = none := honward.fault.symm.trans hdone
    subst hfault
    -- The body's last token ends in front of text, so the closing tag is one.
    have hscan := scan_append closing_isTag source.toList (.outside false) (1 + newlines layout.toList) hlast
    rw [hlexemes] at hscan
    obtain ⟨w, hscan, hw⟩ := hscan rfl
    rw [hends.endsOutside rfl] at hw
    rw [scan_closing hw] at hscan
    have hitems := ofText_wrap source layout
    rw [hscan] at hitems
    generalize 1 + newlines layout.toList = line at hitems hbody ⊢
    obtain ⟨e, hblock, hcontent⟩ := body_block (Nat.le_add_right _ 347) hbody (List.reverse_eq_nil_iff.1 hblocks)
      [.inherit 1 (.constant 1 (.text layout))] (line + newlines source.toList) line
    have hextends := statement_extends (32 * (items.length + 2) + 330) layout line
      (blockTokens line ++ (items ++ closingTag (line + newlines source.toList) [⟨.tagEnd, line + newlines source.toList⟩]))
      none
    have hdepth : 0 < deepest := by decide
    refine read_eq_ok hitems ?_ (body_tag rfl hdepth (anyWord_nil _) hextends rfl hblock) hcontent
    simp only [Lexemes.andThen, front, closingTag, List.length_append, List.length_cons, List.length_nil]
    omega
  · cases hread

/-! ## A brace at the end of a body -/

/-- A brace makes of the closing tag something that prints. -/
theorem inert_brace (trim : Bool) (line : Nat) : Inert (scan (.outside trim) line ('\x7b' :: closing)).items := by
  have htokens := tokens_scan ('\x7b' :: closing) (.outside trim) line 1
  constructor
  · rw [firstWord?_congr htokens]
    cases trim <;> decide +kernel
  · rw [tagWords_congr htokens]
    cases trim <;> decide +kernel

/-- A wrapped body cannot be read, if no tag closes the block. -/
theorem body_front {items : List Lexeme} (hitems : Without ["endblock"] items) (n line : Nat) (layout : String)
    (fault : Option (Cause × Nat)) (ss : List Stmt) (d : Cursor) :
    body (n + 22) [] [] ⟨front layout line ++ items, fault, 1, [], [], [], false, 0⟩ ≠ .ok (ss, d) := by
  intro h
  cases body_step.1 h with
  | finished hc _ => cases hc
  | closed hc hword =>
    rw [anyWord_nil] at hword
    cases hword
  | plain hc _ => cases hc
  | emit hc _ _ _ => cases hc
  | tag hc _ htag hend hbody =>
    cases hc
    obtain ⟨e, hstatement, rfl⟩ := deeper_eq_ok htag
    cases (statement_extends n layout line (blockTokens line ++ items) fault).symm.trans hstatement
    cases hend
    have hrest : Without ["endblock"] (⟨.name "content", line⟩ :: ⟨.tagEnd, line⟩ :: items) := hitems
    exact body_unclosed rfl (anyWord_nil _) hrest hbody

/-- **A wrapped body that ends with a brace cannot be read**: the brace takes the mark of the closing tag, and no other tag
closes the block. -/
theorem read_wrap_brace {page source : String} {u : Template} (hread : Template.read page source = .ok u)
    (htags : Without ["endblock"] (Lexemes.ofText source).items) (hlast : source.toList.getLast? = some '\x7b')
    (layout : String) : ∃ f, Template.read page (wrap source layout) = .error f := by
  -- Alone, the body is scanned to its end, and ends outside of marked stretches.
  have hunclosed : Without ["endblock"]
      (scan (.outside false) (1 + newlines layout.toList) (source.toList ++ closing)).items := by
    unfold Template.read at hread
    dsimp only at hread
    split at hread
    · rename_i ss d hbody
      obtain ⟨honward, -, hdone, hends, -⟩ := body_before 1 [] [] (Nat.le_refl _) hbody
      have hfault : (Lexemes.ofText source).fault = none := honward.fault.symm.trans hdone
      have hamong := scan_brace closing_isTag inert_brace source.toList (.outside false) 1 hlast hfault
        (hends.endsOutside rfl)
      unfold Without
      rw [tagWords_congr (tokens_scan _ (.outside false) _ 1)]
      exact fun w hw => htags w (hamong.words hw)
    · cases hread
  unfold Template.read
  rw [ofText_wrap]
  dsimp only [Lexemes.andThen]
  split
  · rename_i ss d hbody
    rw [List.length_append] at hbody
    have hfuel : 32 * ((front layout (1 + newlines layout.toList)).length +
        (scan (.outside false) (1 + newlines layout.toList) (source.toList ++ closing)).items.length + 2) =
        32 * (scan (.outside false) (1 + newlines layout.toList) (source.toList ++ closing)).items.length + 298 + 22 := by
      simp only [front, List.length_cons, List.length_nil]
      omega
    rw [hfuel] at hbody
    exact absurd hbody (body_front hunclosed _ _ _ _ _ _)
  · exact ⟨_, rfl⟩

end Folio.Layout
