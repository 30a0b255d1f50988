import Folio.Template.Reading
import Folio.Proofs.Template.Scanning
import Mathlib.Tactic.Common
/-!
# Reading tokens in front of others

What is read from tokens does not change when other tokens follow them, with names of blocks begun further out, and
with more calls in hand: every function of the reader looks no further than the token behind what it takes (`Reads`).
At the end of the tokens this says nothing, since a reader sees there that nothing follows, and it says nothing of
blocks, whose names must not be taken already.  From this a template's statements are the same in front of the tag that
closes a block around them (`body_before`).
-/
namespace Folio.Template

variable {α β : Type} {still : Prop} {tail : List Lexeme} {outer : List String}

/-- The same place with tokens behind those that are left, and names of blocks begun further out. -/
def Cursor.before (c : Cursor) (tail : List Lexeme) (outer : List String) : Cursor :=
  { c with rest := c.rest ++ tail, blockNames := c.blockNames ++ outer }

/-- A later place: fewer tokens are left, and blocks may have been completed, unless nothing is to be completed. -/
structure Cursor.Onward (still : Prop) (c d : Cursor) : Prop where
  rest : d.rest <:+ c.rest
  blocks : c.blocks <:+ d.blocks
  fault : d.fault = c.fault
  same : still → d.blocks = c.blocks

namespace Cursor.Onward

variable {c d e : Cursor}

theorem refl (c : Cursor) : c.Onward still c := ⟨List.suffix_rfl, List.suffix_rfl, rfl, fun _ => rfl⟩

theorem trans (h : c.Onward still d) (h' : d.Onward still e) : c.Onward still e :=
  ⟨h'.rest.trans h.rest, h.blocks.trans h'.blocks, h'.fault.trans h.fault, fun hs => (h'.same hs).trans (h.same hs)⟩

theorem rest_ne (h : c.Onward still d) (hd : d.rest ≠ []) : c.rest ≠ [] := fun hc => by
  have hrest := h.rest
  rw [hc] at hrest
  exact hd (List.suffix_nil.1 hrest)

/-- Where no block was completed in two stretches, none was completed in either. -/
theorem blocks_eq (h : c.Onward still d) (h' : d.Onward still e) (he : e.blocks = c.blocks) :
    d.blocks = c.blocks ∧ e.blocks = d.blocks := by
  have hlength := h'.blocks.length_le
  rw [he] at hlength
  have hd : c.blocks = d.blocks := h.blocks.eq_of_length_le hlength
  exact ⟨hd.symm, he.trans hd⟩

end Cursor.Onward

/-- From a place, what the first reader reads the second one reads in front of other tokens, unless nothing is left behind
it or a block was completed. -/
def ReadsAt (still : Prop) (tail : List Lexeme) (outer : List String) (c : Cursor) (m m' : Reader α) : Prop :=
  ∀ a d, m c = .ok (a, d) →
    c.Onward still d ∧ (d.rest ≠ [] → d.blocks = c.blocks → m' (c.before tail outer) = .ok (a, d.before tail outer))

/-- What the first reader reads the second one reads in front of other tokens. -/
def Reads (still : Prop) (tail : List Lexeme) (outer : List String) (m m' : Reader α) : Prop := ∀ c, ReadsAt still tail outer c m m'

/-! ## Steps in sequence -/

theorem Reader.bind_apply (m : Reader α) (f : α → Reader β) (c : Cursor) :
    (m >>= f) c = match m c with
      | .ok (a, d) => f a d
      | .error e => .error e := by
  show Except.bind _ _ = _
  cases m c with
  | ok p => rfl
  | error e => rfl

theorem Reader.bind_eq_ok {m : Reader α} {f : α → Reader β} {c e : Cursor} {b : β} :
    (m >>= f) c = .ok (b, e) ↔ ∃ a d, m c = .ok (a, d) ∧ f a d = .ok (b, e) := by
  rw [Reader.bind_apply]
  constructor
  · intro h
    rcases hm : m c with fault | ⟨a, d⟩
    · rw [hm] at h
      cases h
    · rw [hm] at h
      exact ⟨a, d, rfl, h⟩
  · rintro ⟨a, d, hm, hf⟩
    rw [hm]
    exact hf

namespace Reads

protected theorem pure (a : α) : Reads still tail outer (pure a) (pure a) := by
  intro c b d h
  cases h
  exact ⟨.refl c, fun _ _ => rfl⟩

/-- A reader that fails. -/
protected theorem raise (cause : Cause) (m' : Reader α) : Reads still tail outer (raise cause) m' := by
  intro c b d h
  cases h

protected theorem bind {m m' : Reader α} {f f' : α → Reader β} (hm : Reads still tail outer m m')
    (hf : ∀ a, Reads still tail outer (f a) (f' a)) : Reads still tail outer (m >>= f) (m' >>= f') := by
  intro c b e h
  obtain ⟨a, d, ha, hb⟩ := Reader.bind_eq_ok.1 h
  obtain ⟨hcd, hm'⟩ := hm c a d ha
  obtain ⟨hde, hf'⟩ := hf a d b e hb
  refine ⟨hcd.trans hde, fun hrest hblocks => ?_⟩
  obtain ⟨hd, he⟩ := hcd.blocks_eq hde hblocks
  exact Reader.bind_eq_ok.2 ⟨a, _, hm' (hde.rest_ne hrest) hd, hf' hrest he⟩

/-- A reader that looks at the place where it starts. -/
theorem get_bind {f f' : Cursor → Reader α} (hf : ∀ c, ReadsAt still tail outer c (f c) (f' (c.before tail outer))) :
    Reads still tail outer (get >>= f) (get >>= f') := hf

/-- A change of the place that leaves alone what was read and what is left. -/
protected theorem modify {f : Cursor → Cursor} (honward : ∀ c : Cursor, c.Onward still (f c))
    (hbefore : ∀ c, f (c.before tail outer) = (f c).before tail outer) :
    Reads still tail outer (modify f) (modify f) := by
  intro c a d h
  cases h
  exact ⟨honward c, fun _ _ => congrArg (fun d => Except.ok ((), d)) (hbefore c)⟩

/-! ## Tokens -/

theorem peek : Reads still tail outer peek peek := by
  rintro ⟨rest, fault, line, names, blocks, mentioned, inDefinition, depth⟩ a d h
  cases rest with
  | cons l rest =>
    cases h
    exact ⟨.refl _, fun _ _ => rfl⟩
  | nil =>
    cases fault with
    | none =>
      cases h
      exact ⟨.refl _, fun hrest _ => absurd rfl hrest⟩
    | some fault => cases h

theorem next : Reads still tail outer next next := by
  rintro ⟨rest, fault, line, names, blocks, mentioned, inDefinition, depth⟩ a d h
  cases rest with
  | cons l rest =>
    cases h
    exact ⟨⟨List.suffix_cons l rest, List.suffix_rfl, rfl, fun _ => rfl⟩, fun _ _ => rfl⟩
  | nil =>
    cases fault with
    | none =>
      cases h
      exact ⟨.refl _, fun hrest _ => absurd rfl hrest⟩
    | some fault => cases h

theorem currentLine : Reads still tail outer currentLine currentLine := by
  rintro ⟨rest, fault, line, names, blocks, mentioned, inDefinition, depth⟩ a d h
  cases h
  refine ⟨.refl _, fun hrest _ => ?_⟩
  cases rest with
  | cons l rest => rfl
  | nil => exact absurd rfl hrest

theorem skip (wanted : Option Token → Bool) : Reads still tail outer (skip wanted) (skip wanted) := by
  refine .bind peek fun t => ?_
  split
  · exact .bind next fun _ => .pure true
  · exact .pure false

theorem expect (wanted : Option Token → Bool) (expected : String) :
    Reads still tail outer (expect wanted expected) (expect wanted expected) := by
  refine .bind next fun t => ?_
  split
  · exact .pure ()
  · exact .raise _ _

theorem expectSign (s : String) : Reads still tail outer (expectSign s) (expectSign s) := expect _ _

theorem expectTagEnd : Reads still tail outer expectTagEnd expectTagEnd := expect _ _

theorem expectName : Reads still tail outer expectName expectName := by
  refine .bind next fun t => ?_
  split
  · exact .pure _
  · exact .raise _ _

theorem takeOperator (level : Level) : Reads still tail outer (takeOperator level) (takeOperator level) := by
  refine .bind peek fun t => ?_
  split
  · exact .pure none
  · refine .bind next fun _ => ?_
    split
    · exact .bind (expect _ _) fun _ => .pure _
    · exact .bind (.pure ()) fun _ => .pure _

theorem deeper {m m' : Reader α} (hm : Reads still tail outer m m') : Reads still tail outer (deeper m) (deeper m') := by
  have hmove : ∀ f : Nat → Nat, Reads still tail outer (modify fun c => { c with depth := f c.depth })
      (modify fun c => { c with depth := f c.depth }) :=
    fun f => .modify (fun _ => ⟨List.suffix_rfl, List.suffix_rfl, rfl, fun _ => rfl⟩) fun _ => rfl
  refine .bind (hmove (· + 1)) fun _ => get_bind fun c => ?_
  show ReadsAt still tail outer c (if c.depth > deepest then _ else _) (if c.depth > deepest then _ else _)
  split
  · exact Reads.raise _ _ c
  · exact Reads.bind hm (fun a => .bind (hmove (· - 1)) fun _ => .pure a) c

theorem mention (name : String) : Reads still tail outer (mention name) (mention name) :=
  .modify (fun _ => ⟨List.suffix_rfl, List.suffix_rfl, rfl, fun _ => rfl⟩) fun _ => rfl

/-- What follows when a comma has to stand in front of everything but the first. -/
theorem afterComma {m m' : Reader α} (isFirst : Bool) (hm : Reads still tail outer m m') :
    Reads still tail outer (if (!isFirst) = true then Template.expectSign "," >>= fun _ => m else m)
      (if (!isFirst) = true then Template.expectSign "," >>= fun _ => m' else m') := by
  split
  · exact .bind (.expectSign _) fun _ => hm
  · exact hm

theorem adjacentTexts_suffix (s : String) : ∀ rest : List Lexeme, (adjacentTexts s rest).2 <:+ rest
  | [] => List.suffix_rfl
  | ⟨token, line⟩ :: rest => by
    cases token with
    | text t => exact (adjacentTexts_suffix (s ++ t) rest).trans (List.suffix_cons _ _)
    | _ => exact List.suffix_rfl

theorem adjacentTexts_append (tail : List Lexeme) (s : String) : ∀ {rest : List Lexeme}, (adjacentTexts s rest).2 ≠ [] →
    adjacentTexts s (rest ++ tail) = ((adjacentTexts s rest).1, (adjacentTexts s rest).2 ++ tail)
  | [], h => absurd rfl h
  | ⟨token, line⟩ :: rest, h => by
    cases token with
    | text t => exact adjacentTexts_append tail (s ++ t) h
    | _ => rfl

/-- A text with those beside it. -/
theorem texts (line : Nat) (s : String) : Reads still tail outer
    (get >>= fun c => set { c with rest := (adjacentTexts s c.rest).2 } >>= fun _ =>
      pure (Expr.constant line (.text (adjacentTexts s c.rest).1)))
    (get >>= fun c => set { c with rest := (adjacentTexts s c.rest).2 } >>= fun _ =>
      pure (Expr.constant line (.text (adjacentTexts s c.rest).1))) := by
  intro c a d h
  cases h
  refine ⟨⟨adjacentTexts_suffix s c.rest, List.suffix_rfl, rfl, fun _ => rfl⟩, fun hrest _ => ?_⟩
  have hmore := adjacentTexts_append tail s hrest
  show Except.ok (Expr.constant line (.text (adjacentTexts s (c.rest ++ tail)).1),
    { c.before tail outer with rest := (adjacentTexts s (c.rest ++ tail)).2 }) = _
  rw [hmore]
  rfl

end Reads

/-! ## Expressions -/

/-- What the readers of expressions read with some calls in hand they read with others. -/
structure ExprReads (still : Prop) (tail : List Lexeme) (outer : List String) (n n' : Nat) : Prop where
  expr : Reads still tail outer (expr n) (expr n')
  conditions : ∀ e, Reads still tail outer (conditions n e) (conditions n' e)
  binary : ∀ level, Reads still tail outer (binary n level) (binary n' level)
  operations : ∀ level e, Reads still tail outer (operations n level e) (operations n' level e)
  operand : ∀ level, Reads still tail outer (operand n level) (operand n' level)
  negation : Reads still tail outer (negation n) (negation n')
  signed : Reads still tail outer (signed n) (signed n')
  primary : Reads still tail outer (primary n) (primary n')
  group : ∀ line, Reads still tail outer (group n line) (group n' line)
  items : ∀ close done, Reads still tail outer (items n close done) (items n' close done)
  entries : ∀ done, Reads still tail outer (entries n done) (entries n' done)
  trailers : ∀ e, Reads still tail outer (trailers n e) (trailers n' e)
  subscript : ∀ e, Reads still tail outer (subscript n e) (subscript n' e)
  args : Reads still tail outer (args n) (args n')
  arguments : ∀ named done, Reads still tail outer (arguments n named done) (arguments n' named done)
  applications : ∀ e, Reads still tail outer (applications n e) (applications n' e)

namespace ExprReads

theorem zero (n' : Nat) : ExprReads still tail outer 0 n' where
  expr := .raise _ _
  conditions _ := .raise _ _
  binary _ := .raise _ _
  operations _ _ := .raise _ _
  operand _ := .raise _ _
  negation := .raise _ _
  signed := .raise _ _
  primary := .raise _ _
  group _ := .raise _ _
  items _ _ := .raise _ _
  entries _ := .raise _ _
  trailers _ := .raise _ _
  subscript _ := .raise _ _
  args := .raise _ _
  arguments _ _ := .raise _ _
  applications _ := .raise _ _

variable {n n' : Nat} (h : ExprReads still tail outer n n')
include h

theorem conditions_succ (e : Expr) :
    Reads still tail outer (Template.conditions (n + 1) e) (Template.conditions (n' + 1) e) := by
  simp only [Template.conditions]
  refine .bind (.skip _) fun found => ?_
  split
  · refine .bind (h.binary .or) fun condition => .bind (.skip _) fun other => ?_
    split
    · exact .bind (h.binary .or) fun e => .bind (h.conditions e) fun _ => .bind (.pure _) fun _ => h.conditions _
    · exact .bind (.pure _) fun _ => h.conditions _
  · exact .pure e

theorem operations_succ (level : Level) (left : Expr) :
    Reads still tail outer (Template.operations (n + 1) level left) (Template.operations (n' + 1) level left) := by
  simp only [Template.operations]
  refine .bind (.takeOperator level) fun build => ?_
  split
  · exact .pure left
  · exact .bind (h.operand level) fun _ => h.operations level _

theorem operand_succ (level : Level) :
    Reads still tail outer (Template.operand (n + 1) level) (Template.operand (n' + 1) level) := by
  simp only [Template.operand]
  cases level with
  | or => exact h.binary .and
  | and => exact h.negation
  | compare => exact h.binary .sum
  | sum => exact h.binary .join
  | join => exact h.binary .product
  | product => exact h.binary .power
  | power => exact .bind h.signed fun e => .bind (h.trailers e) fun e => h.applications e

theorem negation_succ : Reads still tail outer (Template.negation (n + 1)) (Template.negation (n' + 1)) := by
  simp only [Template.negation]
  refine .bind (.skip _) fun found => ?_
  split
  · exact .bind h.negation fun _ => .pure _
  · exact h.binary .compare

theorem signed_succ : Reads still tail outer (Template.signed (n + 1)) (Template.signed (n' + 1)) := by
  simp only [Template.signed]
  refine .bind .currentLine fun line => .bind (.skip _) fun found => ?_
  split
  · exact .bind h.signed fun _ => .pure _
  · exact h.primary

theorem primary_succ : Reads still tail outer (Template.primary (n + 1)) (Template.primary (n' + 1)) := by
  simp only [Template.primary]
  refine .deeper (.bind .currentLine fun line => .bind .next fun t => ?_)
  split
  · exact .pure _
  · exact .pure _
  · exact .pure _
  · exact .pure _
  · exact .pure _
  · exact .pure _
  · exact .bind (.mention _) fun _ => .pure _
  · exact .texts line _
  · exact .pure _
  · exact .pure _
  · exact h.group line
  · exact .bind (h.items _ _) fun _ => .pure _
  · exact .bind (h.entries _) fun _ => .pure _
  · exact .raise _ _

theorem group_succ (line : Nat) :
    Reads still tail outer (Template.group (n + 1) line) (Template.group (n' + 1) line) := by
  simp only [Template.group]
  refine .bind (.skip _) fun empty => ?_
  split
  · exact .pure _
  · refine .bind h.expr fun e => .bind .peek fun t => ?_
    split
    · exact .bind (h.items _ _) fun _ => .pure _
    · exact .bind (.expectSign _) fun _ => .pure e

theorem items_succ (close : String) (done : List Expr) :
    Reads still tail outer (Template.items (n + 1) close done) (Template.items (n' + 1) close done) := by
  simp only [Template.items]
  refine .bind (.skip _) fun closed => ?_
  split
  · exact .pure _
  · refine .afterComma _ (.bind (.skip _) fun closed => ?_)
    split
    · exact .pure _
    · exact .bind h.expr fun e => h.items close _

theorem entries_succ (done : List (Expr × Expr)) :
    Reads still tail outer (Template.entries (n + 1) done) (Template.entries (n' + 1) done) := by
  simp only [Template.entries]
  refine .bind (.skip _) fun closed => ?_
  split
  · exact .pure _
  · refine .afterComma _ (.bind (.skip _) fun closed => ?_)
    split
    · exact .pure _
    · exact .bind h.expr fun _ => .bind (.expectSign _) fun _ => .bind h.expr fun _ => h.entries _

theorem trailers_succ (e : Expr) :
    Reads still tail outer (Template.trailers (n + 1) e) (Template.trailers (n' + 1) e) := by
  simp only [Template.trailers]
  refine .bind .peek fun t => ?_
  split
  · refine .bind .next fun _ => .bind .next fun t => ?_
    split
    · exact h.trailers _
    · exact h.trailers _
    · exact .raise _ _
  · split
    · exact .bind .next fun _ => .bind (h.subscript e) fun e => h.trailers e
    · split
      · exact .bind h.args fun _ => h.trailers _
      · exact .pure e

theorem args_succ : Reads still tail outer (Template.args (n + 1)) (Template.args (n' + 1)) := by
  simp only [Template.args]
  exact .bind (.expectSign _) fun _ => h.arguments _ _

theorem arguments_succ (named : Bool) (done : List Arg) :
    Reads still tail outer (Template.arguments (n + 1) named done) (Template.arguments (n' + 1) named done) := by
  simp only [Template.arguments]
  -- A positional argument may not stand behind a named one.
  have hpositional : ∀ e : Expr, Reads still tail outer
      (if named = true then raise .positionalAfterNamed else Template.arguments n named (.positional e :: done))
      (if named = true then raise .positionalAfterNamed else Template.arguments n' named (.positional e :: done)) := by
    intro e
    split
    · exact .raise _ _
    · exact h.arguments _ _
  refine .bind (.skip _) fun closed => ?_
  split
  · exact .pure _
  · refine .afterComma _ (.bind (.skip _) fun closed => ?_)
    split
    · exact .pure _
    · refine .bind h.expr fun e => ?_
      split
      · refine .bind (.skip _) fun isNamed => ?_
        split
        · exact .bind (h.binary .or) fun _ => h.arguments _ _
        · exact hpositional _
      · exact hpositional _

theorem subscript_succ (e : Expr) :
    Reads still tail outer (Template.subscript (n + 1) e) (Template.subscript (n' + 1) e) := by
  simp only [Template.subscript]
  refine .bind .peek fun t => .bind .peek fun t' => ?_
  split
  on_goal 2 => split
  on_goal 3 => refine .bind h.expr fun e => ?_
  -- With and without a start the same follows, and so with and without a stop.
  all_goals
    refine .bind (.pure _) fun start => .bind (.skip _) fun colon => ?_
    split
    on_goal 2 =>
      refine .bind (.expectSign _) fun _ => ?_
      split
      · exact .pure _
      · exact .raise _ _
    refine .bind .peek fun t => .bind .peek fun t' => ?_
    split
    on_goal 2 => refine .bind h.expr fun e => ?_
    all_goals
      refine .bind (.pure _) fun stop => .bind (.skip _) fun colon => ?_
      split
      on_goal 2 => exact .bind (.pure _) fun step => .bind (.expectSign _) fun _ => .pure _
      refine .bind .peek fun t => ?_
      split
      · exact .bind (.pure _) fun step => .bind (.expectSign _) fun _ => .pure _
      · exact .bind h.expr fun e => .bind (.pure _) fun step => .bind (.expectSign _) fun _ => .pure _

theorem applications_succ (e : Expr) :
    Reads still tail outer (Template.applications (n + 1) e) (Template.applications (n' + 1) e) := by
  simp only [Template.applications]
  refine .bind .peek fun t => ?_
  split
  · refine .bind .next fun _ => .bind .expectName fun name => .bind .peek fun t => ?_
    split
    · exact .bind h.args fun args => h.applications _
    · exact .bind (.pure _) fun args => h.applications _
  · split
    · refine .bind .next fun _ => .bind (.skip _) fun negated => .bind .expectName fun name => .bind .peek fun t => ?_
      split
      · exact .bind h.args fun args => h.applications _
      · split
        · exact .bind h.signed fun a => .bind (h.trailers a) fun a => .bind (.pure _) fun args => h.applications _
        · exact .bind (.pure _) fun args => h.applications _
    · exact .pure e

/-- One more call in hand. -/
theorem succ : ExprReads still tail outer (n + 1) (n' + 1) where
  expr := .deeper (.bind (h.binary .or) fun e => h.conditions e)
  conditions := h.conditions_succ
  binary level := .bind (h.operand level) fun e => h.operations level e
  operations := h.operations_succ
  operand := h.operand_succ
  negation := h.negation_succ
  signed := h.signed_succ
  primary := h.primary_succ
  group := h.group_succ
  items := h.items_succ
  entries := h.entries_succ
  trailers := h.trailers_succ
  subscript := h.subscript_succ
  args := h.args_succ
  arguments := h.arguments_succ
  applications := h.applications_succ

end ExprReads

/-- **Expressions are the same in front of other tokens**, with at least as many calls in hand. -/
theorem exprReads : ∀ {n n' : Nat}, n ≤ n' → ExprReads still tail outer n n'
  | 0, n', _ => .zero n'
  | _ + 1, _ + 1, h => (exprReads (Nat.le_of_succ_le_succ h)).succ

/-! ## Parts of tags -/

namespace Reads

theorem assignedName : Reads still tail outer assignedName assignedName := by
  refine .bind .expectName fun name => ?_
  split
  · exact .raise _ _
  · exact .pure name

theorem contextWords : Reads still tail outer contextWords contextWords := by
  refine .bind (.skip _) fun found => ?_
  split
  · exact .expect _ _
  · exact .pure ()

end Reads

/-- What the readers of targets read with some calls in hand they read with others. -/
structure TargetReads (still : Prop) (tail : List Lexeme) (outer : List String) (n n' : Nat) : Prop where
  target : Reads still tail outer (target n) (target n')
  targets : ∀ several done, Reads still tail outer (targets n several done) (targets n' several done)
  singleTarget : Reads still tail outer (singleTarget n) (singleTarget n')

theorem TargetReads.succ {n n' : Nat} (h : TargetReads still tail outer n n') : TargetReads still tail outer (n + 1) (n' + 1) where
  target := by
    simp only [Template.target]
    refine .bind (h.targets _ _) fun found => ?_
    split
    · exact .pure _
    · exact .pure _
  targets several done := by
    simp only [Template.targets]
    refine .afterComma _ (.bind .peek fun t => ?_)
    split
    · exact .pure _
    · refine .bind h.singleTarget fun t => .bind .peek fun front => ?_
      split
      · exact h.targets _ _
      · exact .pure _
  singleTarget := by
    simp only [Template.singleTarget]
    refine .bind (.skip _) fun bracket => ?_
    split
    · exact .bind h.target fun t => .bind (.expectSign _) fun _ => .pure t
    · exact .bind .assignedName fun _ => .pure _

theorem targetReads : ∀ {n n' : Nat}, n ≤ n' → TargetReads still tail outer n n'
  | 0, _, _ => ⟨.raise _ _, fun _ _ => .raise _ _, .raise _ _⟩
  | _ + 1, _ + 1, h => (targetReads (Nat.le_of_succ_le_succ h)).succ

namespace Reads

variable {n n' : Nat}

theorem filterCall (hn : n ≤ n') : Reads still tail outer (filterCall n) (filterCall n') := by
  refine .bind .currentLine fun line => .bind .expectName fun name => .bind .peek fun t => ?_
  split
  · exact .bind (exprReads hn).args fun _ => .pure _
  · exact .bind (.pure _) fun _ => .pure _

theorem filterChain : ∀ {n n' : Nat}, n ≤ n' → Reads still tail outer (filterChain n) (filterChain n')
  | 0, _, _ => .raise _ _
  | n + 1, n' + 1, h => by
    have hn := Nat.le_of_succ_le_succ h
    refine .bind (filterCall hn) fun f => .bind (.skip _) fun more => ?_
    split
    · exact .bind (filterChain hn) fun _ => .pure _
    · exact .pure _

theorem assignments : ∀ {n n' : Nat}, n ≤ n' → ∀ done,
    Reads still tail outer (assignments n done) (assignments n' done)
  | 0, _, _, _ => .raise _ _
  | n + 1, n' + 1, h, done => by
    have hn := Nat.le_of_succ_le_succ h
    have hone : ∀ done, Reads still tail outer
        (Template.singleTarget n >>= fun t => Template.expect (isSign "=") "assignment operator" >>= fun _ =>
          Template.expr n >>= fun e => Template.assignments n ((t, e) :: done))
        (Template.singleTarget n' >>= fun t => Template.expect (isSign "=") "assignment operator" >>= fun _ =>
          Template.expr n' >>= fun e => Template.assignments n' ((t, e) :: done)) := fun done =>
      .bind (targetReads hn).singleTarget fun t => .bind (.expect _ _) fun _ =>
        .bind (exprReads hn).expr fun e => assignments hn _
    simp only [Template.assignments]
    refine .bind .peek fun t => ?_
    split
    · exact .pure _
    · split
      · exact .bind (.expect _ _) fun _ => hone done
      · exact hone done

theorem parameters : ∀ {n n' : Nat}, n ≤ n' → ∀ done,
    Reads still tail outer (parameters n done) (parameters n' done)
  | 0, _, _, _ => .raise _ _
  | n + 1, n' + 1, h, done => by
    have hn := Nat.le_of_succ_le_succ h
    simp only [Template.parameters]
    refine .bind (.skip _) fun closed => ?_
    split
    · exact .pure _
    · refine .afterComma _ (.bind (.skip _) fun closed => ?_)
      split
      · exact .pure _
      · refine .bind .assignedName fun name => .bind (.skip _) fun found => ?_
        split
        · exact .bind (exprReads hn).expr fun e => parameters hn _
        · split
          · exact .bind (.expectSign _) fun _ => .pure _
          · exact parameters hn _

theorem importedNames : ∀ {n n' : Nat}, n ≤ n' → ∀ done,
    Reads still tail outer (importedNames n done) (importedNames n' done)
  | 0, _, _, _ => .raise _ _
  | n + 1, n' + 1, h, done => by
    have hn := Nat.le_of_succ_le_succ h
    simp only [Template.importedNames]
    refine .bind .peek fun t => ?_
    split
    · exact .pure _
    · refine .afterComma _ (.bind .peek fun t => ?_)
      split
      · exact .pure _
      · refine .bind .assignedName fun name => .bind (.skip _) fun found => ?_
        split
        · exact .bind .assignedName fun _ => importedNames hn _
        · exact .bind (.pure _) fun _ => importedNames hn _

theorem includeTag (hn : n ≤ n') (line : Nat) : Reads still tail outer (includeTag n line) (includeTag n' line) := by
  refine .bind (exprReads hn).expr fun name => .bind .contextWords fun _ => .bind (.skip _) fun ignore => ?_
  split
  · exact .bind (.expect _ _) fun _ => .bind .contextWords fun _ => .pure _
  · exact .pure _

end Reads

/-! ## Statements -/

/-- What a reader reads leads to a later place. -/
def Advances (m : Reader α) : Prop := ∀ c a d, m c = .ok (a, d) → c.Onward False d

/-- What a reader reads leads to a later place and completes a block. -/
def Completes (m : Reader α) : Prop := ∀ c a d, m c = .ok (a, d) → c.Onward False d ∧ c.blocks.length < d.blocks.length

theorem Reads.advances {m m' : Reader α} (h : Reads False tail outer m m') : Advances m := fun c a d hm => (h c a d hm).1

/-- Nothing is said of readers that complete a block. -/
theorem Completes.reads {m : Reader α} (h : Completes m) (m' : Reader α) : Reads False tail outer m m' := fun c a d hm => by
  obtain ⟨honward, hlength⟩ := h c a d hm
  exact ⟨honward, fun _ hblocks => absurd hlength (by rw [hblocks]; exact Nat.lt_irrefl _)⟩

namespace Completes

protected theorem raise (cause : Cause) : Completes (raise cause : Reader α) := fun _ _ _ h => nomatch h

protected theorem bind {m : Reader α} {f : α → Reader β} (hm : Advances m) (hf : ∀ a, Completes (f a)) :
    Completes (m >>= f) := by
  intro c b e h
  obtain ⟨a, d, ha, hb⟩ := Reader.bind_eq_ok.1 h
  have hcd := hm c a d ha
  obtain ⟨hde, hlength⟩ := hf a d b e hb
  exact ⟨hcd.trans hde, Nat.lt_of_le_of_lt hcd.blocks.length_le hlength⟩

theorem get_bind {f : Cursor → Reader α} (hf : ∀ c, Completes (f c)) : Completes (get >>= f) := fun c => hf c c

theorem done (line : Nat) (name : String) (ss : List Stmt) :
    Completes (modify (fun c => { c with blocks := (name, ss) :: c.blocks }) >>= fun _ => pure (Stmt.block line name)) := by
  intro c s d h
  cases h
  exact ⟨⟨List.suffix_rfl, List.suffix_cons _ _, rfl, False.elim⟩, Nat.lt_succ_self _⟩

end Completes

/-- What the readers of statements read with some calls in hand they read with others. -/
structure StmtReads (tail : List Lexeme) (outer : List String) (n n' : Nat) : Prop where
  body : ∀ ends done, Reads False tail outer (body n ends done) (body n' ends done)
  closedBody : ∀ close, Reads False tail outer (closedBody n close) (closedBody n' close)
  statement : Reads False tail outer (statement n) (statement n')
  loopTag : ∀ line, Reads False tail outer (loopTag n line) (loopTag n' line)
  chooseTag : Reads False tail outer (chooseTag n) (chooseTag n')
  assignTag : ∀ line, Reads False tail outer (assignTag n line) (assignTag n' line)
  blockTag : ∀ line, Reads False tail outer (blockTag n line) (blockTag n' line)
  defineTag : ∀ line, Reads False tail outer (defineTag n line) (defineTag n' line)

namespace StmtReads

theorem zero (n' : Nat) : StmtReads tail outer 0 n' where
  body _ _ := by
    rw [Folio.Template.body]
    exact .raise _ _
  closedBody _ := by
    rw [Template.closedBody]
    exact .raise _ _
  statement := by
    rw [Template.statement]
    exact .raise _ _
  loopTag _ := by
    rw [Template.loopTag]
    exact .raise _ _
  chooseTag := by
    rw [Template.chooseTag]
    exact .raise _ _
  assignTag _ := by
    rw [Template.assignTag]
    exact .raise _ _
  blockTag _ := by
    rw [Template.blockTag]
    exact .raise _ _
  defineTag _ := by
    rw [Template.defineTag]
    exact .raise _ _

variable {n n' : Nat} (hn : n ≤ n') (h : StmtReads tail outer n n')
include hn h

omit hn in
theorem closedBody_succ (close : String) :
    Reads False tail outer (Template.closedBody (n + 1) close) (Template.closedBody (n' + 1) close) := by
  simp only [Template.closedBody]
  exact .bind .expectTagEnd fun _ => .bind (h.body _ _) fun ss => .bind .next fun _ => .pure ss

theorem body_succ (ends : List String) (done : List Stmt) :
    Reads False tail outer (Folio.Template.body (n + 1) ends done) (Folio.Template.body (n' + 1) ends done) := by
  simp only [Folio.Template.body]
  refine .bind .currentLine fun start => .bind .next fun t => ?_
  split
  · exact .pure _
  · exact h.body _ _
  · exact .bind (exprReads hn).expr fun e => .bind (.expect _ _) fun _ => h.body _ _
  · refine .bind .peek fun t => ?_
    split
    · exact .raise _ _
    · split
      · exact .pure _
      · exact .bind (.deeper h.statement) fun s => .bind .expectTagEnd fun _ => h.body _ _
  · exact .raise _ _

theorem statement_succ : Reads False tail outer (Template.statement (n + 1)) (Template.statement (n' + 1)) := by
  simp only [Template.statement]
  refine .bind .next fun t => .get_bind fun c => ?_
  have hline : (c.before tail outer).line = c.line := rfl
  rw [hline]
  split
  · exact h.loopTag _ c
  · exact h.chooseTag c
  · exact Reads.bind (.assignments hn _) (fun _ => .bind (h.closedBody _) fun _ => .pure _) c
  · exact h.assignTag _ c
  · exact Reads.bind (exprReads hn).expr (fun _ => .bind (h.closedBody _) fun _ => .pure _) c
  · exact Reads.bind (.filterChain hn) (fun _ => .bind (h.closedBody _) fun _ => .pure _) c
  · exact h.blockTag _ c
  · exact Reads.bind (exprReads hn).expr (fun _ => .pure _) c
  · exact Reads.includeTag hn _ c
  · exact Reads.bind (exprReads hn).expr (fun _ => .bind (.expect _ _) fun _ =>
      .bind .assignedName fun _ => .bind .contextWords fun _ => .pure _) c
  · exact Reads.bind (exprReads hn).expr (fun _ => .bind (.expect _ _) fun _ =>
      .bind (.importedNames hn _) fun _ => .pure _) c
  · exact h.defineTag _ c
  · exact Reads.bind (exprReads hn).expr (fun _ => .pure _) c
  · exact Reads.raise _ _ c
  · exact Reads.raise _ _ c

theorem loopTag_succ (line : Nat) :
    Reads False tail outer (Template.loopTag (n + 1) line) (Template.loopTag (n' + 1) line) := by
  simp only [Template.loopTag]
  refine .bind (targetReads hn).target fun t => .bind (.expect _ _) fun _ => ?_
  refine .bind ((exprReads hn).binary .or) fun source => .bind (.skip _) fun conditional => ?_
  split
  on_goal 1 => refine .bind (exprReads hn).expr fun e => ?_
  -- The same follows with and without a condition, and so with and without another branch.
  all_goals
    refine .bind (.pure _) fun condition => .bind (.skip _) fun recursive => .bind .expectTagEnd fun _ => ?_
    refine .bind (h.body _ _) fun ss => .bind (.skip _) fun other => ?_
    split
    · exact .bind .expectTagEnd fun _ => .bind (h.body _ _) fun otherwise => .bind .next fun _ => .pure _
    · exact .bind (.pure _) fun otherwise => .bind .next fun _ => .pure _

theorem chooseTag_succ : Reads False tail outer (Template.chooseTag (n + 1)) (Template.chooseTag (n' + 1)) := by
  simp only [Template.chooseTag]
  refine .bind (exprReads hn).expr fun condition => .bind .expectTagEnd fun _ => .bind (h.body _ _) fun yes => ?_
  refine .bind .next fun t => ?_
  split
  · exact .bind .expectTagEnd fun _ => .bind (h.body _ _) fun no => .bind .next fun _ => .pure _
  · exact .bind h.chooseTag fun _ => .pure _
  · exact .pure _

theorem assignTag_succ (line : Nat) :
    Reads False tail outer (Template.assignTag (n + 1) line) (Template.assignTag (n' + 1) line) := by
  simp only [Template.assignTag]
  refine .bind .peek fun bracket => .bind (targetReads hn).singleTarget fun t => .bind .peek fun front => ?_
  split
  · refine .bind (.skip _) fun filtered => ?_
    split
    · exact .bind (.filterChain hn) fun filters => .bind (h.closedBody _) fun _ => .pure _
    · exact .bind (.pure _) fun filters => .bind (h.closedBody _) fun _ => .pure _
  · exact .bind (.expect _ _) fun _ => .bind (exprReads hn).expr fun _ => .pure _

omit hn in
theorem blockTag_succ (line : Nat) :
    Reads False tail outer (Template.blockTag (n + 1) line) (Template.blockTag (n' + 1) line) := by
  have hname : Reads False tail outer expectName expectName := .expectName
  have hpeek : Reads False tail outer peek peek := .peek
  have hnext : Reads False tail outer next next := .next
  refine Completes.reads ?_ _
  simp only [Template.blockTag]
  refine .get_bind fun c => ?_
  split
  · exact .raise _
  · refine .bind hname.advances fun name => .get_bind fun c => ?_
    split
    · exact .raise _
    · have hbegin : Advances (modify fun c => { c with blockNames := name :: c.blockNames } : Reader PUnit) := by
        intro c a d hd
        cases hd
        exact ⟨List.suffix_rfl, List.suffix_rfl, rfl, fun _ => rfl⟩
      refine .bind hbegin fun _ => .bind (h.closedBody _).advances fun ss => ?_
      refine .bind hpeek.advances fun t => ?_
      split
      · split
        · exact .bind hnext.advances fun _ => .done line name ss
        · refine .bind ?_ fun _ => .done line name ss
          intro _ _ _ he
          cases he
      · exact .done line name ss

theorem defineTag_succ (line : Nat) :
    Reads False tail outer (Template.defineTag (n + 1) line) (Template.defineTag (n' + 1) line) := by
  simp only [Template.defineTag]
  refine .get_bind fun around => Reads.bind .expectName (fun name => ?_) around
  refine .bind (.modify (fun _ => ⟨List.suffix_rfl, List.suffix_rfl, rfl, fun _ => rfl⟩) fun _ => rfl) fun _ => ?_
  refine .bind (.expectSign _) fun _ => .bind (.parameters hn _) fun ps => .bind (h.closedBody _) fun ss => ?_
  refine .get_bind fun inside => Reads.bind ?_ (fun _ => .pure _) inside
  exact .modify (fun _ => ⟨List.suffix_rfl, List.suffix_rfl, rfl, fun _ => rfl⟩) fun _ => rfl

/-- One more call in hand. -/
theorem succ : StmtReads tail outer (n + 1) (n' + 1) where
  body := h.body_succ hn
  closedBody := h.closedBody_succ
  statement := h.statement_succ hn
  loopTag := h.loopTag_succ hn
  chooseTag := h.chooseTag_succ hn
  assignTag := h.assignTag_succ hn
  blockTag := h.blockTag_succ
  defineTag := h.defineTag_succ hn

end StmtReads

/-- **Statements are the same in front of other tokens**, with at least as many calls in hand. -/
theorem stmtReads : ∀ {n n' : Nat}, n ≤ n' → StmtReads tail outer n n'
  | 0, n', _ => .zero n'
  | _ + 1, _ + 1, h =>
    have hn := Nat.le_of_succ_le_succ h
    (stmtReads hn).succ hn

/-! ## The steps of a body -/

/-- How a body is read: it ends with the source or at a tag with one of its words, or a piece of it is read and then the
rest. -/
inductive BodyStep (n : Nat) (ends : List String) (done : List Stmt) : Cursor → List Stmt → Cursor → Prop where
  | finished {c : Cursor} (hc : c.rest = []) (hfault : c.fault = none) : BodyStep n ends done c done.reverse c
  | closed {c : Cursor} {line : Nat} {first : Lexeme} {rest : List Lexeme}
    (hc : c.rest = ⟨.tagStart, line⟩ :: first :: rest) (hword : anyWord ends (some first.token) = true) :
    BodyStep n ends done c done.reverse { c with rest := first :: rest, line := line }
  | plain {c d : Cursor} {line : Nat} {text : String} {rest : List Lexeme} {ss : List Stmt}
    (hc : c.rest = ⟨.plain text, line⟩ :: rest)
    (hrest : body n ends (.plain text :: done) { c with rest := rest, line := line } = .ok (ss, d)) :
    BodyStep n ends done c ss d
  | emit {c c₂ c₃ d : Cursor} {line : Nat} {e : Expr} {rest : List Lexeme} {ss : List Stmt}
    (hc : c.rest = ⟨.emitStart, line⟩ :: rest)
    (hexpr : expr n { c with rest := rest, line := line } = .ok (e, c₂))
    (hend : expect isEmitEnd "end of variable block" c₂ = .ok ((), c₃))
    (hrest : body n ends (.emit line e :: done) c₃ = .ok (ss, d)) : BodyStep n ends done c ss d
  | tag {c c₂ c₃ d : Cursor} {line : Nat} {first : Lexeme} {s : Stmt} {rest : List Lexeme} {ss : List Stmt}
    (hc : c.rest = ⟨.tagStart, line⟩ :: first :: rest) (hword : anyWord ends (some first.token) = false)
    (htag : deeper (statement n) { c with rest := first :: rest, line := line } = .ok (s, c₂))
    (hend : expectTagEnd c₂ = .ok ((), c₃)) (hrest : body n ends (s :: done) c₃ = .ok (ss, d)) :
    BodyStep n ends done c ss d

theorem body_step {n : Nat} {ends : List String} {done ss : List Stmt} {c d : Cursor} :
    body (n + 1) ends done c = .ok (ss, d) ↔ BodyStep n ends done c ss d := by
  obtain ⟨rest, fault, place, names, blocks, mentioned, inDefinition, depth⟩ := c
  constructor
  · intro h
    rw [body] at h
    obtain ⟨start, _, hstart, h⟩ := Reader.bind_eq_ok.1 h
    obtain ⟨t, c₁, hnext, h⟩ := Reader.bind_eq_ok.1 h
    cases hstart
    cases rest with
    | nil =>
      cases fault with
      | none =>
        cases hnext
        cases h
        exact .finished rfl rfl
      | some fault => cases hnext
    | cons l rest =>
      cases hnext
      obtain ⟨token, line⟩ := l
      cases token with
      | plain text => exact .plain rfl h
      | emitStart =>
        obtain ⟨e, c₂, hexpr, h⟩ := Reader.bind_eq_ok.1 h
        obtain ⟨_, c₃, hend, h⟩ := Reader.bind_eq_ok.1 h
        exact .emit rfl hexpr hend h
      | tagStart =>
        obtain ⟨t, c₂, hpeek, h⟩ := Reader.bind_eq_ok.1 h
        cases rest with
        | nil =>
          cases fault with
          | none =>
            cases hpeek
            cases h
          | some fault => cases hpeek
        | cons first rest =>
          cases hpeek
          dsimp only at h
          split at h
          · rename_i hword
            cases h
            exact .closed rfl hword
          · rename_i hword
            obtain ⟨s, c₃, htag, h⟩ := Reader.bind_eq_ok.1 h
            obtain ⟨_, c₄, hend, h⟩ := Reader.bind_eq_ok.1 h
            exact .tag rfl (Bool.eq_false_iff.2 hword) htag hend h
      | _ => cases h
  · intro h
    rw [body]
    cases h with
    | finished hc hfault =>
      cases hc
      cases hfault
      rfl
    | closed hc hword =>
      cases hc
      refine Reader.bind_eq_ok.2 ⟨_, _, rfl, Reader.bind_eq_ok.2 ⟨_, _, rfl, Reader.bind_eq_ok.2 ⟨_, _, rfl, ?_⟩⟩⟩
      dsimp only
      rw [if_pos hword]
      rfl
    | plain hc hrest =>
      cases hc
      exact hrest
    | emit hc hexpr hend hrest =>
      cases hc
      refine Reader.bind_eq_ok.2 ⟨_, _, rfl, Reader.bind_eq_ok.2 ⟨_, _, rfl, ?_⟩⟩
      exact Reader.bind_eq_ok.2 ⟨_, _, hexpr, Reader.bind_eq_ok.2 ⟨(), _, hend, hrest⟩⟩
    | tag hc hword htag hend hrest =>
      cases hc
      refine Reader.bind_eq_ok.2 ⟨_, _, rfl, Reader.bind_eq_ok.2 ⟨_, _, rfl, Reader.bind_eq_ok.2 ⟨_, _, rfl, ?_⟩⟩⟩
      dsimp only
      rw [hword, if_neg Bool.false_ne_true]
      exact Reader.bind_eq_ok.2 ⟨_, _, htag, Reader.bind_eq_ok.2 ⟨(), _, hend, hrest⟩⟩

/-! ## The body of a block -/

/-- A token that has to be there is there also in front of others. -/
theorem expect_before {wanted : Option Token → Bool} (hwanted : wanted none = false) {expected : String} {c d : Cursor}
    (h : expect wanted expected c = .ok ((), d)) :
    (∃ l, c.rest = l :: d.rest ∧ wanted (some l.token) = true) ∧ c.Onward False d ∧
      expect wanted expected (c.before tail outer) = .ok ((), d.before tail outer) := by
  obtain ⟨t, e, hnext, hfound⟩ := Reader.bind_eq_ok.1 h
  obtain ⟨rest, fault, line, names, blocks, mentioned, inDefinition, depth⟩ := c
  cases rest with
  | nil =>
    cases fault with
    | none =>
      cases hnext
      rw [hwanted] at hfound
      cases hfound
    | some fault => cases hnext
  | cons l rest =>
    cases hnext
    cases hw : wanted (some l.token) with
    | false =>
      rw [hw] at hfound
      cases hfound
    | true =>
      rw [hw] at hfound
      cases hfound
      refine ⟨⟨l, rfl, hw⟩, ⟨List.suffix_cons l rest, List.suffix_rfl, rfl, fun _ => rfl⟩, ?_⟩
      refine Reader.bind_eq_ok.2 ⟨some l.token, _, rfl, ?_⟩
      rw [hw]
      rfl

theorem anyWord_nil (t : Option Token) : anyWord [] t = false := by
  unfold anyWord
  split
  · rfl
  · rfl

theorem anyWord_endblock {t : Token} (h : t ≠ .name "endblock") : anyWord ["endblock"] (some t) = false := by
  cases t with
  | name s =>
    have hs : s ≠ "endblock" := fun hs => h (congrArg Token.name hs)
    show ["endblock"].contains s = false
    simp [hs]
  | _ => rfl

theorem deeper_eq_ok {m : Reader α} {c d : Cursor} {a : α} (h : deeper m c = .ok (a, d)) :
    ∃ e, m { c with depth := c.depth + 1 } = .ok (a, e) ∧ d = { e with depth := e.depth - 1 } := by
  obtain ⟨_, c', hdepth, h⟩ := Reader.bind_eq_ok.1 h
  cases hdepth
  obtain ⟨_, c', hget, h⟩ := Reader.bind_eq_ok.1 h
  cases hget
  split at h
  · cases h
  · obtain ⟨b, e, hm, h⟩ := Reader.bind_eq_ok.1 h
    obtain ⟨_, e', hback, h⟩ := Reader.bind_eq_ok.1 h
    cases hback
    cases h
    exact ⟨e, hm, rfl⟩

theorem deeper_ok {m : Reader α} {c d : Cursor} {a : α} (hdepth : c.depth < deepest)
    (h : m { c with depth := c.depth + 1 } = .ok (a, d)) : deeper m c = .ok (a, { d with depth := d.depth - 1 }) := by
  refine Reader.bind_eq_ok.2 ⟨(), _, rfl, Reader.bind_eq_ok.2 ⟨_, _, rfl, ?_⟩⟩
  rw [if_neg (Nat.not_lt.2 hdepth)]
  exact Reader.bind_eq_ok.2 ⟨a, _, h, rfl⟩

/-- The word that closes a block begins no statement. -/
theorem statement_ne_endblock {n line : Nat} {rest : List Lexeme} {c d : Cursor} {s : Stmt}
    (hc : c.rest = ⟨.name "endblock", line⟩ :: rest) : statement n c ≠ .ok (s, d) := by
  intro h
  obtain ⟨_, fault, line, names, blocks, mentioned, inDefinition, depth⟩ := c
  cases hc
  cases n with
  | zero =>
    rw [statement] at h
    cases h
  | succ n =>
    rw [statement] at h
    obtain ⟨t, e, hnext, hget⟩ := Reader.bind_eq_ok.1 h
    cases hnext
    cases hget

/-- The last token, if there is one, ends in front of text. -/
def EndOutside (ls : List Lexeme) : Prop := ∀ l, ls.getLast? = some l → l.token.ends = true

theorem EndOutside.nil : EndOutside [] := fun _ h => nomatch h

/-- The tokens behind one that ends in front of text decide. -/
theorem EndOutside.of_suffix {l : Lexeme} {rest ls : List Lexeme} (h : EndOutside rest) (hl : l.token.ends = true)
    (hsuffix : l :: rest <:+ ls) : EndOutside ls := by
  obtain ⟨front, rfl⟩ := hsuffix
  intro last hlast
  rw [List.getLast?_append, List.getLast?_cons, Option.some_or] at hlast
  cases hrest : rest.getLast? with
  | none =>
    rw [hrest] at hlast
    cases hlast
    exact hl
  | some l' =>
    rw [hrest] at hlast
    cases hlast
    exact h l' hrest

theorem ends_of_isEmitEnd {t : Token} (h : isEmitEnd (some t) = true) : t.ends = true := by
  cases t with
  | emitEnd => rfl
  | _ => cases h

theorem ends_of_isTagEnd {t : Token} (h : isTagEnd (some t) = true) : t.ends = true := by
  cases t with
  | tagEnd => rfl
  | _ => cases h

/-- The front of the tag that closes a block. -/
def closingTag (line : Nat) (after : List Lexeme) : List Lexeme :=
  ⟨.tagStart, line⟩ :: ⟨.name "endblock", line⟩ :: after

/-- **The statements of a template are those of a block around it**: in front of the tag that closes the block they are
read to the same end, unless the template has blocks of its own. -/
theorem body_before (line : Nat) (after : List Lexeme) (outer : List String) :
    ∀ {n n' : Nat}, n ≤ n' → ∀ {done ss : List Stmt} {c d : Cursor}, body n [] done c = .ok (ss, d) →
      c.Onward False d ∧ d.rest = [] ∧ d.fault = none ∧ EndOutside c.rest ∧
      (d.blocks = c.blocks → body n' ["endblock"] done (c.before (closingTag line after) outer) =
        .ok (ss, { d.before after outer with rest := ⟨.name "endblock", line⟩ :: after, line := line }))
  | 0, _, _, _, _, _, _, h => by
    rw [body] at h
    cases h
  | n + 1, n' + 1, hn, done, ss, c, d, h => by
    have hn := Nat.le_of_succ_le_succ hn
    obtain ⟨rest, fault, here, names, blocks, mentioned, inDefinition, depth⟩ := c
    -- The place behind the first token.
    have hfirst : ∀ {l : Lexeme} {tokens : List Lexeme}, rest = l :: tokens →
        (⟨rest, fault, here, names, blocks, mentioned, inDefinition, depth⟩ : Cursor).Onward False
          ⟨tokens, fault, l.line, names, blocks, mentioned, inDefinition, depth⟩ := fun hl =>
      ⟨hl ▸ List.suffix_cons _ _, List.suffix_rfl, rfl, fun _ => rfl⟩
    cases body_step.1 h with
    | finished hc hfault =>
      cases hc
      cases hfault
      exact ⟨.refl _, rfl, rfl, .nil, fun _ => body_step.2 (.closed rfl rfl)⟩
    | closed hc hword =>
      rw [anyWord_nil] at hword
      cases hword
    | plain hc hrest =>
      obtain ⟨honward, hnil, hfault, hends, hbody⟩ := body_before line after outer hn hrest
      cases hc
      exact ⟨(hfirst rfl).trans honward, hnil, hfault, hends.of_suffix rfl List.suffix_rfl, fun hblocks =>
        body_step.2 (.plain rfl (hbody hblocks))⟩
    | emit hc hexpr hend hrest =>
      obtain ⟨hc₂, hexpr'⟩ := (exprReads hn).expr _ _ _ hexpr
      obtain ⟨⟨l, hl, hemit⟩, hc₃, hend'⟩ := expect_before rfl hend
      obtain ⟨honward, hnil, hfault, hends, hbody⟩ := body_before line after outer hn hrest
      cases hc
      have hne := List.ne_nil_of_mem (hl ▸ List.mem_cons_self (a := l))
      have hsuffix := ((hfirst rfl).trans hc₂).rest
      rw [hl] at hsuffix
      refine ⟨(hfirst rfl).trans (hc₂.trans (hc₃.trans honward)), hnil, hfault,
        hends.of_suffix (ends_of_isEmitEnd hemit) hsuffix, fun hblocks => ?_⟩
      obtain ⟨hblocks₂, hblocks⟩ := hc₂.blocks_eq (hc₃.trans honward) hblocks
      exact body_step.2 (.emit rfl (hexpr' hne hblocks₂) hend' (hbody (hc₃.blocks_eq honward hblocks).2))
    | tag hc hword htag hend hrest =>
      obtain ⟨hc₃, htag'⟩ := Reads.deeper (stmtReads hn).statement _ _ _ htag
      obtain ⟨⟨l, hl, htagEnd⟩, hc₄, hend'⟩ := expect_before rfl hend
      obtain ⟨honward, hnil, hfault, hends, hbody⟩ := body_before line after outer hn hrest
      cases hc
      have hne := List.ne_nil_of_mem (hl ▸ List.mem_cons_self (a := l))
      have hsuffix := ((hfirst rfl).trans hc₃).rest
      rw [hl] at hsuffix
      refine ⟨(hfirst rfl).trans (hc₃.trans (hc₄.trans honward)), hnil, hfault,
        hends.of_suffix (ends_of_isTagEnd htagEnd) hsuffix, fun hblocks => ?_⟩
      obtain ⟨hblocks₃, hblocks⟩ := hc₃.blocks_eq (hc₄.trans honward) hblocks
      have hother : anyWord ["endblock"] (some _) = false := anyWord_endblock fun hfirst => by
        obtain ⟨e, hstatement, -⟩ := deeper_eq_ok htag
        exact statement_ne_endblock (by rw [← hfirst]) hstatement
      exact body_step.2 (.tag rfl hother (htag' hne hblocks₃) hend' (hbody (hc₄.blocks_eq honward hblocks).2))

end Folio.Template
