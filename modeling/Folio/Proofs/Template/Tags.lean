import Folio.Proofs.Template.Evaluation
import Folio.Proofs.Template.Reading
/-!
# The tags of a source

A statement comes of a tag, and the word behind the mark of the tag says which.  So a source in which no tag begins with
`extends` or `block` (`Without`) is read as statements that stay in their template, and no block is completed
(`stmtYields`).
-/
namespace Folio.Template

variable {α β : Type} {P : α → Prop} {Q : β → Prop}

/-- The word in front. -/
def firstWord? : List Lexeme → Option String
  | ⟨.name word, _⟩ :: _ => some word
  | _ => none

/-- The words that tags begin with. -/
def tagWords : List Lexeme → List String
  | [] => []
  | ⟨.tagStart, _⟩ :: ls => (firstWord? ls).toList ++ tagWords ls
  | _ :: ls => tagWords ls

/-- No tag begins with one of the words. -/
def Without (words : List String) (ls : List Lexeme) : Prop := ∀ w ∈ tagWords ls, w ∉ words

instance (words : List String) (ls : List Lexeme) : Decidable (Without words ls) :=
  inferInstanceAs (Decidable (∀ w ∈ tagWords ls, w ∉ words))

/-- The words of tags that have to do with the blocks of other templates. -/
def layoutWords : List String := ["extends", "block"]

theorem tagWords_cons (l : Lexeme) (ls : List Lexeme) : tagWords ls <:+ tagWords (l :: ls) := by
  obtain ⟨token, line⟩ := l
  cases token with
  | tagStart => exact List.suffix_append _ _
  | _ => exact List.suffix_rfl

theorem tagWords_suffix {ls rest : List Lexeme} (h : rest <:+ ls) : tagWords rest <:+ tagWords ls := by
  obtain ⟨front, rfl⟩ := h
  induction front with
  | nil => exact List.suffix_rfl
  | cons l front ih => exact ih.trans (tagWords_cons l _)

theorem Without.suffix {words : List String} {ls rest : List Lexeme} (h : Without words ls) (hrest : rest <:+ ls) :
    Without words rest := fun w hw => h w ((tagWords_suffix hrest).subset hw)

theorem Without.mono {words words' : List String} {ls : List Lexeme} (h : Without words ls) (hwords : words' ⊆ words) :
    Without words' ls := fun w hw hmem => h w hw (hwords hmem)

theorem firstWord?_congr : ∀ {ls ls' : List Lexeme}, ls.map (·.token) = ls'.map (·.token) →
    firstWord? ls = firstWord? ls'
  | [], [], _ => rfl
  | ⟨token, line⟩ :: ls, ⟨token', line'⟩ :: ls', h => by
    obtain rfl : token = token' := (List.cons.inj h).1
    cases token <;> rfl

/-- The words of tags are those of the tokens, whatever their lines. -/
theorem tagWords_congr : ∀ {ls ls' : List Lexeme}, ls.map (·.token) = ls'.map (·.token) → tagWords ls = tagWords ls'
  | [], [], _ => rfl
  | ⟨token, line⟩ :: ls, ⟨token', line'⟩ :: ls', h => by
    obtain ⟨htoken, hrest⟩ := List.cons.inj h
    obtain rfl : token = token' := htoken
    have ih := tagWords_congr hrest
    cases token with
    | tagStart =>
      show (firstWord? ls).toList ++ tagWords ls = (firstWord? ls').toList ++ tagWords ls'
      rw [firstWord?_congr hrest, ih]
    | _ => exact ih

/-- The tokens of a source are the same from whatever line on. -/
theorem tokens_scan : ∀ (cs : List Char) (w : Where) (line line' : Nat),
    (scan w line cs).items.map (·.token) = (scan w line' cs).items.map (·.token)
  | [], w, line, line' => by rw [scan_nil, scan_nil]
  | c :: cs, w, line, line' => by
    cases hs : step w c cs with
    | error fault => rw [items_scan_cons_of_error hs, items_scan_cons_of_error hs]
    | ok s =>
      have ih := tokens_scan (cs.drop s.more) s.next (line + newlines ((c :: cs).take (s.more + 1)))
        (line' + newlines ((c :: cs).take (s.more + 1)))
      rw [scan_cons hs, scan_cons hs]
      cases s.token with
      | none => exact ih
      | some t => exact congrArg (t :: ·) ih
termination_by cs => cs.length
decreasing_by
  rw [List.length_drop, List.length_cons]
  omega

/-! ## Statements -/

theorem Stmt.stayAll_iff {ss : List Stmt} : Stmt.StayAll ss ↔ ∀ s ∈ ss, s.Stays := by
  induction ss with
  | nil => simp [Stmt.StayAll]
  | cons s ss ih => simp [Stmt.StayAll, ih]

theorem Stmt.StayAll.reverse {ss : List Stmt} (h : Stmt.StayAll ss) : Stmt.StayAll ss.reverse :=
  Stmt.stayAll_iff.2 fun s hs => Stmt.stayAll_iff.1 h s (List.mem_reverse.1 hs)

/-- From a place, what a reader reads is in order, and no block is completed. -/
def YieldsAt (c : Cursor) (m : Reader α) (P : α → Prop) : Prop :=
  ∀ a d, m c = .ok (a, d) → d.rest <:+ c.rest ∧ d.blocks = c.blocks ∧ P a

/-- Where no tag has to do with blocks, what a reader reads is in order. -/
def Yields (m : Reader α) (P : α → Prop) : Prop := ∀ c, Without layoutWords c.rest → YieldsAt c m P

namespace Yields

protected theorem pure {a : α} (h : P a) : Yields (pure a) P := by
  intro c _ b d hd
  cases hd
  exact ⟨List.suffix_rfl, rfl, h⟩

protected theorem raise (cause : Cause) : Yields (raise cause) P := fun _ _ _ _ h => nomatch h

protected theorem bind {m : Reader α} {f : α → Reader β} (hm : Yields m P) (hf : ∀ a, P a → Yields (f a) Q) :
    Yields (m >>= f) Q := by
  intro c hc b e h
  obtain ⟨a, d, ha, hb⟩ := Reader.bind_eq_ok.1 h
  obtain ⟨hrest, hblocks, hp⟩ := hm c hc a d ha
  obtain ⟨hrest', hblocks', hq⟩ := hf a hp d (hc.suffix hrest) b e hb
  exact ⟨hrest'.trans hrest, hblocks'.trans hblocks, hq⟩

theorem get_bind {f : Cursor → Reader α} (hf : ∀ c, Yields (f c) P) : Yields (get >>= f) P := fun c => hf c c

/-- A change of the place that leaves alone what is left and which blocks are complete. -/
theorem change {f : Cursor → Cursor} {m : Reader β} (hrest : ∀ c, (f c).rest = c.rest)
    (hblocks : ∀ c, (f c).blocks = c.blocks) (hm : Yields m Q) : Yields (modify f >>= fun _ => m) Q := by
  intro c hc b d h
  obtain ⟨_, _, hf, h⟩ := Reader.bind_eq_ok.1 h
  cases hf
  have hfc : Without layoutWords (f c).rest := by
    rw [hrest]
    exact hc
  obtain ⟨hsuffix, hsame, hq⟩ := hm (f c) hfc b d h
  rw [hrest] at hsuffix
  exact ⟨hsuffix, hsame.trans (hblocks c), hq⟩

/-- Readers that complete no block, and then something that keeps in order. -/
theorem after {m : Reader α} {f : α → Reader β} (hm : Reads True [] [] m m) (hf : ∀ a, Yields (f a) Q) :
    Yields (m >>= f) Q := by
  have hquiet : Yields m fun _ => True := fun c _ a d h => by
    obtain ⟨honward, -⟩ := hm c a d h
    exact ⟨honward.rest, honward.same trivial, trivial⟩
  exact hquiet.bind fun a _ => hf a

theorem includeTag (n line : Nat) : Yields (includeTag n line) Stmt.Stays := by
  refine .after (exprReads (Nat.le_refl n)).expr fun name => .after .contextWords fun _ => .after (.skip _) fun ignore => ?_
  split
  · exact .after (.expect _ _) fun _ => .after .contextWords fun _ => .pure trivial
  · exact .pure trivial

end Yields

/-- Where no tag has to do with blocks, statements stay. -/
structure StmtYields (n : Nat) : Prop where
  body : ∀ ends {done}, Stmt.StayAll done → Yields (body n ends done) Stmt.StayAll
  closedBody : ∀ close, Yields (closedBody n close) Stmt.StayAll
  statement : ∀ c line, Without layoutWords (⟨.tagStart, line⟩ :: c.rest) → YieldsAt c (statement n) Stmt.Stays
  loopTag : ∀ line, Yields (loopTag n line) Stmt.Stays
  chooseTag : Yields (chooseTag n) Stmt.Stays
  assignTag : ∀ line, Yields (assignTag n line) Stmt.Stays
  defineTag : ∀ line, Yields (defineTag n line) Stmt.Stays

namespace StmtYields

theorem zero : StmtYields 0 where
  body _ _ _ := by
    rw [Folio.Template.body]
    exact .raise _
  closedBody _ := by
    rw [Template.closedBody]
    exact .raise _
  statement c _ _ := by
    rw [Template.statement]
    intro s d h
    cases h
  loopTag _ := by
    rw [Template.loopTag]
    exact .raise _
  chooseTag := by
    rw [Template.chooseTag]
    exact .raise _
  assignTag _ := by
    rw [Template.assignTag]
    exact .raise _
  defineTag _ := by
    rw [Template.defineTag]
    exact .raise _

variable {n : Nat} (h : StmtYields n)
include h

theorem closedBody_succ (close : String) : Yields (Template.closedBody (n + 1) close) Stmt.StayAll := by
  simp only [Template.closedBody]
  exact .after .expectTagEnd fun _ => .bind (h.body _ trivial) fun ss hss => .after .next fun _ => .pure hss

theorem loopTag_succ (line : Nat) : Yields (Template.loopTag (n + 1) line) Stmt.Stays := by
  simp only [Template.loopTag]
  have hn := Nat.le_refl n
  refine .after (targetReads hn).target fun t => .after (.expect _ _) fun _ => ?_
  refine .after ((exprReads hn).binary .or) fun source => .after (.skip _) fun conditional => ?_
  split
  on_goal 1 => refine .after (exprReads hn).expr fun e => ?_
  all_goals
    refine .after (.pure _) fun condition => .after (.skip _) fun recursive => .after .expectTagEnd fun _ => ?_
    refine .bind (h.body _ trivial) fun ss hss => .after (.skip _) fun other => ?_
    split
    · exact .after .expectTagEnd fun _ => .bind (h.body _ trivial) fun otherwise hother =>
        .after .next fun _ => .pure ⟨hss, hother⟩
    · exact .bind (.pure trivial) fun otherwise hother => .after .next fun _ => .pure ⟨hss, hother⟩

theorem chooseTag_succ : Yields (Template.chooseTag (n + 1)) Stmt.Stays := by
  simp only [Template.chooseTag]
  have hn := Nat.le_refl n
  refine .after (exprReads hn).expr fun condition => .after .expectTagEnd fun _ => ?_
  refine .bind (h.body _ trivial) fun yes hyes => .after .next fun t => ?_
  split
  · exact .after .expectTagEnd fun _ => .bind (h.body _ trivial) fun no hno => .after .next fun _ => .pure ⟨hyes, hno⟩
  · exact .bind h.chooseTag fun s hs => .pure ⟨hyes, hs, trivial⟩
  · exact .pure ⟨hyes, trivial⟩

theorem assignTag_succ (line : Nat) : Yields (Template.assignTag (n + 1) line) Stmt.Stays := by
  simp only [Template.assignTag]
  have hn := Nat.le_refl n
  refine .after .peek fun bracket => .after (targetReads hn).singleTarget fun t => .after .peek fun front => ?_
  split
  · refine .after (.skip _) fun filtered => ?_
    split
    · exact .after (.filterChain hn) fun filters => .bind (h.closedBody _) fun _ hss => .pure hss
    · exact .after (.pure _) fun filters => .bind (h.closedBody _) fun _ hss => .pure hss
  · exact .after (.expect _ _) fun _ => .after (exprReads hn).expr fun _ => .pure trivial

theorem defineTag_succ (line : Nat) : Yields (Template.defineTag (n + 1) line) Stmt.Stays := by
  simp only [Template.defineTag]
  have hn := Nat.le_refl n
  refine .get_bind fun around => .after .expectName fun name => .change (fun _ => rfl) (fun _ => rfl) ?_
  refine .after (.expectSign _) fun _ => .after (.parameters hn _) fun ps => .bind (h.closedBody _) fun ss hss => ?_
  refine .get_bind fun inside => .change (fun _ => rfl) (fun _ => rfl) (.pure ?_)
  -- A default is an assignment under a condition.
  refine Stmt.stayAll_iff.2 fun s hs => ?_
  obtain hs | hs := List.mem_append.1 hs
  · obtain ⟨⟨parameter, value⟩, -, hdefault⟩ := List.mem_filterMap.1 hs
    cases value with
    | none => cases hdefault
    | some e =>
      cases hdefault
      exact ⟨⟨trivial, trivial⟩, trivial⟩
  · exact Stmt.stayAll_iff.1 hss s hs

theorem statement_succ (c : Cursor) (line : Nat) (hc : Without layoutWords (⟨.tagStart, line⟩ :: c.rest)) :
    YieldsAt c (Template.statement (n + 1)) Stmt.Stays := by
  have hn := Nat.le_refl n
  intro s d hs
  rw [Template.statement] at hs
  obtain ⟨t, c₁, hnext, hs⟩ := Reader.bind_eq_ok.1 hs
  obtain ⟨rest, fault, place, names, blocks, mentioned, inDefinition, depth⟩ := c
  cases rest with
  | nil =>
    cases fault with
    | none =>
      cases hnext
      cases hs
    | some fault => cases hnext
  | cons l rest =>
    cases hnext
    have hrest : Without layoutWords rest := hc.suffix ((List.suffix_cons l rest).trans (List.suffix_cons _ _))
    have hword : ∀ word, l.token = .name word → word ∉ layoutWords := fun word hl => by
      obtain ⟨token, _⟩ := l
      cases hl
      exact hc word (List.mem_cons_self ..)
    -- What is read behind the word keeps in order.
    have hbehind : ∀ {m : Reader Stmt}, Yields m Stmt.Stays →
        m ⟨rest, fault, l.line, names, blocks, mentioned, inDefinition, depth⟩ = .ok (s, d) →
        d.rest <:+ l :: rest ∧ d.blocks = blocks ∧ s.Stays := fun hm hs => by
      obtain ⟨hsuffix, hblocks, hstays⟩ := hm ⟨rest, _, _, _, _, _, _, _⟩ hrest s d hs
      exact ⟨hsuffix.trans (List.suffix_cons l rest), hblocks, hstays⟩
    refine hbehind (.get_bind fun c => ?_) hs
    split
    · exact h.loopTag _
    · exact h.chooseTag
    · exact .after (.assignments hn _) fun _ => .bind (h.closedBody _) fun ss hss => .pure hss
    · exact h.assignTag _
    · exact .after (exprReads hn).expr fun _ => .bind (h.closedBody _) fun ss hss => .pure hss
    · exact .after (.filterChain hn) fun _ => .bind (h.closedBody _) fun ss hss => .pure hss
    · rename_i hl
      exact absurd (by decide) (hword "block" (Option.some.inj hl))
    · rename_i hl
      exact absurd (by decide) (hword "extends" (Option.some.inj hl))
    · exact .includeTag n _
    · exact .after (exprReads hn).expr fun _ => .after (.expect _ _) fun _ =>
        .after .assignedName fun _ => .after .contextWords fun _ => .pure trivial
    · exact .after (exprReads hn).expr fun _ => .after (.expect _ _) fun _ =>
        .after (.importedNames hn _) fun _ => .pure trivial
    · exact h.defineTag _
    · exact .after (exprReads hn).expr fun _ => .pure trivial
    · exact .raise _
    · exact .raise _

/-- One statement or piece of text, and what is read behind it. -/
theorem body_succ (ends : List String) {done : List Stmt} (hdone : Stmt.StayAll done) :
    Yields (Folio.Template.body (n + 1) ends done) Stmt.StayAll := by
  have hn := Nat.le_refl n
  intro c hc ss d hbody
  -- What is read from a later place, where the same blocks are complete.
  have hbehind : ∀ {m : Reader (List Stmt)} (e : Cursor), Yields m Stmt.StayAll → e.rest <:+ c.rest →
      e.blocks = c.blocks → m e = .ok (ss, d) → d.rest <:+ c.rest ∧ d.blocks = c.blocks ∧ Stmt.StayAll ss :=
    fun e hm he hblocks hs => by
      obtain ⟨hsuffix, hsame, hstays⟩ := hm e (hc.suffix he) ss d hs
      exact ⟨hsuffix.trans he, hsame.trans hblocks, hstays⟩
  have hmore : ∀ {s : Stmt}, s.Stays → Stmt.StayAll (s :: done) := fun hs => ⟨hs, hdone⟩
  cases body_step.1 hbody with
  | finished => exact ⟨List.suffix_rfl, rfl, hdone.reverse⟩
  | closed hrest =>
    rw [hrest]
    exact ⟨List.suffix_cons _ _, rfl, hdone.reverse⟩
  | plain hrest hplain =>
    rename_i line text rest
    refine hbehind { c with rest := rest, line := line } (h.body ends (hmore ?_)) ?_ rfl hplain
    · exact trivial
    · rw [hrest]
      exact List.suffix_cons _ _
  | emit hrest hexpr hend hemit =>
    rename_i line e rest
    have hread : Yields (Template.expr n >>= fun e => Template.expect isEmitEnd "end of variable block" >>= fun _ =>
        Folio.Template.body n ends (.emit line e :: done)) Stmt.StayAll :=
      .after (exprReads hn).expr fun e => .after (.expect _ _) fun _ => h.body ends (hmore trivial)
    refine hbehind { c with rest := rest, line := line } hread ?_ rfl
      (Reader.bind_eq_ok.2 ⟨_, _, hexpr, Reader.bind_eq_ok.2 ⟨(), _, hend, hemit⟩⟩)
    rw [hrest]
    exact List.suffix_cons _ _
  | tag hrest hword htag hend hbody =>
    rename_i line first s rest
    obtain ⟨e, hstatement, rfl⟩ := deeper_eq_ok htag
    rw [hrest] at hc
    obtain ⟨hsuffix, hsame, hs⟩ := h.statement _ line hc s e hstatement
    have hread : Yields (Template.expectTagEnd >>= fun _ => Folio.Template.body n ends (s :: done)) Stmt.StayAll :=
      .after .expectTagEnd fun _ => h.body ends (hmore hs)
    refine hbehind { e with depth := e.depth - 1 } hread ?_ hsame (Reader.bind_eq_ok.2 ⟨(), _, hend, hbody⟩)
    rw [hrest]
    exact hsuffix.trans (List.suffix_cons _ _)

/-- One more call in hand. -/
theorem succ : StmtYields (n + 1) where
  body := h.body_succ
  closedBody := h.closedBody_succ
  statement := h.statement_succ
  loopTag := h.loopTag_succ
  chooseTag := h.chooseTag_succ
  assignTag := h.assignTag_succ
  defineTag := h.defineTag_succ

end StmtYields

/-- **A source without tags that have to do with blocks is read as statements that stay, and no block.** -/
theorem stmtYields : ∀ n : Nat, StmtYields n
  | 0 => .zero
  | n + 1 => (stmtYields n).succ

/-! ## Where a body ends -/

/-- What is left behind what a reader reads. -/
theorem Reads.suffix {m : Reader α} (hm : Reads False [] [] m m) {c d : Cursor} {a : α} (h : m c = .ok (a, d)) :
    d.rest <:+ c.rest := by
  obtain ⟨honward, -⟩ := hm c a d h
  exact honward.rest

/-- **A body that ends before the source does ends at a tag with one of its words.** -/
theorem body_ends : ∀ {n : Nat} {ends : List String} {done ss : List Stmt} {c d : Cursor},
    body n ends done c = .ok (ss, d) → d.rest ≠ [] → ∃ w ∈ ends, w ∈ tagWords c.rest
  | 0, _, _, _, _, _, h, _ => by
    rw [body] at h
    cases h
  | n + 1, ends, done, ss, c, d, h, hrest => by
    -- Words of tags that are further on are words of tags of the source.
    have hfurther : ∀ {done : List Stmt} {e : Cursor}, e.rest <:+ c.rest → body n ends done e = .ok (ss, d) →
        ∃ w ∈ ends, w ∈ tagWords c.rest := fun he hbody => by
      obtain ⟨w, hw, hmem⟩ := body_ends hbody hrest
      exact ⟨w, hw, (tagWords_suffix he).subset hmem⟩
    have hn := Nat.le_refl n
    cases body_step.1 h with
    | finished hc => exact absurd hc hrest
    | closed hc hword =>
      rename_i line first rest
      obtain ⟨token, place⟩ := first
      cases token with
      | name w =>
        refine ⟨w, List.contains_iff_mem.1 hword, ?_⟩
        rw [hc]
        exact List.mem_cons_self
      | _ => cases hword
    | plain hc hplain =>
      refine hfurther ?_ hplain
      rw [hc]
      exact List.suffix_cons _ _
    | emit hc hexpr hend hmore =>
      have hexpr := (exprReads hn).expr.suffix hexpr
      have hend := (Reads.expect _ _).suffix hend
      refine hfurther (hend.trans (hexpr.trans ?_)) hmore
      rw [hc]
      exact List.suffix_cons _ _
    | tag hc hword htag hend hmore =>
      have htag := (Reads.deeper (stmtReads hn).statement).suffix htag
      have hend := Reads.expectTagEnd.suffix hend
      refine hfurther (hend.trans (htag.trans ?_)) hmore
      rw [hc]
      exact List.suffix_cons _ _

/-! ## Blocks that nothing closes -/

/-- What no tag closes takes all there is. -/
theorem closedBody_unclosed {n : Nat} {close : String} {c d : Cursor} {ss : List Stmt} (hc : Without [close] c.rest)
    (h : closedBody n close c = .ok (ss, d)) : d.rest = [] := by
  cases n with
  | zero =>
    rw [closedBody] at h
    cases h
  | succ n =>
    rw [closedBody] at h
    obtain ⟨_, c₁, hend, h⟩ := Reader.bind_eq_ok.1 h
    obtain ⟨_, c₂, hbody, h⟩ := Reader.bind_eq_ok.1 h
    obtain ⟨_, c₃, hnext, h⟩ := Reader.bind_eq_ok.1 h
    cases h
    have hend := Reads.expectTagEnd.suffix hend
    have hrest : c₂.rest = [] := by
      by_contra hne
      obtain ⟨w, hw, hmem⟩ := body_ends hbody hne
      exact hc.suffix hend w hmem hw
    have hnext := Reads.next.suffix hnext
    rw [hrest] at hnext
    exact List.suffix_nil.1 hnext

/-- The tag of a block that no tag closes takes all there is. -/
theorem statement_unclosed {n line : Nat} {rest : List Lexeme} {c d : Cursor} {s : Stmt}
    (hc : c.rest = ⟨.name "block", line⟩ :: rest) (hrest : Without ["endblock"] rest)
    (h : statement n c = .ok (s, d)) : d.rest = [] := by
  obtain ⟨_, fault, place, names, blocks, mentioned, inDefinition, depth⟩ := c
  cases hc
  cases n with
  | zero =>
    rw [statement] at h
    cases h
  | succ n =>
    rw [statement] at h
    obtain ⟨_, c₁, hnext, h⟩ := Reader.bind_eq_ok.1 h
    cases hnext
    obtain ⟨_, c₂, hget, h⟩ := Reader.bind_eq_ok.1 h
    cases hget
    dsimp only at h
    cases n with
    | zero =>
      rw [blockTag] at h
      cases h
    | succ n =>
      rw [blockTag] at h
      obtain ⟨_, c₃, hget, h⟩ := Reader.bind_eq_ok.1 h
      cases hget
      split at h
      · cases h
      obtain ⟨name, c₄, hname, h⟩ := Reader.bind_eq_ok.1 h
      obtain ⟨_, c₅, hget, h⟩ := Reader.bind_eq_ok.1 h
      cases hget
      split at h
      · cases h
      obtain ⟨_, c₅, hmodify, h⟩ := Reader.bind_eq_ok.1 h
      cases hmodify
      obtain ⟨ss, c₆, hclosed, h⟩ := Reader.bind_eq_ok.1 h
      have hname := Reads.expectName.suffix hname
      have hinside : Without ["endblock"] { c₄ with blockNames := name :: c₄.blockNames }.rest := hrest.suffix hname
      have hnil : c₆.rest = [] := closedBody_unclosed hinside hclosed
      obtain ⟨_, fault, line, names, blocks, mentioned, inDefinition, depth⟩ := c₆
      cases hnil
      cases fault with
      | some fault => cases h
      | none =>
        cases h
        rfl

/-- **Where a block is begun that no tag closes, no body can be read.** -/
theorem body_unclosed {n line line' : Nat} {ends : List String} {done ss : List Stmt} {rest : List Lexeme} {c d : Cursor}
    (hc : c.rest = ⟨.tagStart, line⟩ :: ⟨.name "block", line'⟩ :: rest)
    (hends : anyWord ends (some (.name "block")) = false) (hrest : Without ["endblock"] rest) :
    body n ends done c ≠ .ok (ss, d) := by
  intro h
  cases n with
  | zero =>
    rw [body] at h
    cases h
  | succ n =>
    cases body_step.1 h with
    | finished hc' => cases hc.symm.trans hc'
    | closed hc' hword =>
      cases hc.symm.trans hc'
      rw [hends] at hword
      cases hword
    | plain hc' _ => cases hc.symm.trans hc'
    | emit hc' _ _ _ => cases hc.symm.trans hc'
    | tag hc' _ htag hend _ =>
      cases hc.symm.trans hc'
      obtain ⟨e, hstatement, rfl⟩ := deeper_eq_ok htag
      have hnil : e.rest = [] := statement_unclosed rfl hrest hstatement
      obtain ⟨_, fault, place, names, blocks, mentioned, inDefinition, depth⟩ := e
      cases hnil
      cases fault <;> cases hend

end Folio.Template
