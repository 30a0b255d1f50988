import Folio.Proofs.Layout.PassThrough
/-!
# A template that prints a variable

The tokens of `{{ name }}` are its two marks and the name between them (`ofText_variableSource`), and no operator, filter
or bracket stands beside the name, so the source is read as one statement that prints the variable
(`read_variableSource`).
-/
namespace Folio.Template

/-- A name that stands for a variable. -/
structure IsVariable (name : String) : Prop where
  spelled : ∃ c cs, name.toList = c :: cs ∧ isNameStart c = true ∧ cs.all isNamePart = true
  /-- None of the words that mean something else in the place of a value. -/
  free : name ∉ ["true", "True", "false", "False", "none", "None", "not"]

/-- A source that is nothing but a variable to print. -/
def variableSource (name : String) : String := "\x7b\x7b " ++ name ++ " \x7d\x7d"

/-! ## Tokens -/

section
variable {c : Char} (hc : isNameStart c = true)
include hc

theorem ne_of_isNameStart {d : Char} (hd : isNameStart d = false) : c ≠ d := by
  rintro rfl
  rw [hc] at hd
  cases hd

theorem isSpace_of_isNameStart : isSpace c = false := by
  have hne : c ≠ ' ' ∧ c ≠ '\t' ∧ c ≠ '\n' ∧ c ≠ '\x0c' ∧ c ≠ '\r' :=
    ⟨ne_of_isNameStart hc rfl, ne_of_isNameStart hc rfl, ne_of_isNameStart hc rfl, ne_of_isNameStart hc rfl,
      ne_of_isNameStart hc rfl⟩
  simp [isSpace, hne]

theorem shortSigns_of_isNameStart : shortSigns.contains c = false := by
  have hsigns : ∀ d ∈ shortSigns, (!isNameStart d) = true := List.all_eq_true.1 (by decide)
  rw [Bool.eq_false_iff]
  intro hmem
  have hname := hsigns c (List.contains_iff_mem.1 hmem)
  rw [hc] at hname
  cases hname

theorem longSigns_of_isNameStart (cs : List Char) : longSigns.any (·.isPrefixOf (c :: cs)) = false := by
  have hsigns : ∀ sign ∈ longSigns, isNameStart (sign.headD ' ') = false ∧ sign ≠ [] := by decide
  rw [List.any_eq_false]
  intro sign hsign hprefix
  obtain ⟨hhead, hne⟩ := hsigns sign hsign
  obtain ⟨d, ds, rfl⟩ := List.exists_cons_of_ne_nil hne
  obtain ⟨hd, -⟩ := List.cons_prefix_cons.1 (List.isPrefixOf_iff_prefix.1 hprefix)
  exact ne_of_isNameStart hc hhead hd.symm

theorem isDigit_of_isNameStart : c.isDigit = false := by
  have hrange : c = '_' ∨ 65 ≤ c.toNat := by
    rcases Bool.or_eq_true_iff.1 hc with hc | hc
    · exact .inl (beq_iff_eq.1 hc)
    have hletter : (c.isUpper || c.isLower) = true := hc
    rcases Bool.or_eq_true_iff.1 hletter with hupper | hlower
    · exact .inr (UInt32.le_iff_toNat_le.1 (of_decide_eq_true hupper).1)
    · have hge := of_decide_eq_true (Bool.and_eq_true_iff.1 hlower).1
      exact .inr (Nat.le_trans (by decide) (UInt32.le_iff_toNat_le.1 hge))
  rcases hrange with rfl | hge
  · rfl
  · have hnot : ¬ c.toNat ≤ 57 := by omega
    have hbound : ¬ c.val ≤ 57 := fun h => hnot (UInt32.le_iff_toNat_le.1 h)
    simp [Char.isDigit, hbound]

theorem closing?_of_isNameStart (cs : List Char) : closing? '\x7d' (c :: cs) = none := by
  have hcontrol : control (c :: cs) = (false, 0) := by
    have hminus : c ≠ '-' := ne_of_isNameStart hc rfl
    have hplus : c ≠ '+' := ne_of_isNameStart hc rfl
    unfold control
    split
    · rename_i heq
      exact absurd (List.cons.inj heq).1 hminus
    · rename_i heq
      exact absurd (List.cons.inj heq).1 hplus
    · rfl
  have hbrace : '\x7d' ≠ c := (ne_of_isNameStart hc rfl).symm
  unfold closing?
  rw [hcontrol]
  simp [List.isPrefixOf, hbrace]

theorem newlines_of_isNameStart {cs : List Char} (hcs : cs.all isNamePart = true) : newlines (c :: cs) = 0 := by
  refine List.count_eq_zero.2 fun hmem => ?_
  rcases List.mem_cons.1 hmem with heq | hmem
  · exact ne_of_isNameStart hc rfl heq.symm
  · exact absurd (List.all_eq_true.1 hcs _ hmem) (by decide)

/-- A name that ends where its characters do, in a stretch that prints. -/
theorem step_emit_name {word : List Char} (hword : word.all isNamePart = true) {rest : List Char}
    (hrest : rest.head?.any isNamePart = false) :
    step (.emit 0) c (word ++ rest) = .ok ⟨.emit 0, word.length, some (.name (String.ofList (c :: word)))⟩ := by
  have hquote : (c == '"' || c == '\'') = false := by
    have hne : c ≠ '"' ∧ c ≠ '\'' := ⟨ne_of_isNameStart hc rfl, ne_of_isNameStart hc rfl⟩
    simp [hne]
  have hend : rest.takeWhile isNamePart = [] := by
    cases rest with
    | nil => rfl
    | cons d rest => exact List.takeWhile_cons_of_neg (Bool.eq_false_iff.1 hrest)
  have htake : (word ++ rest).takeWhile isNamePart = word := by
    rw [List.takeWhile_append_of_pos (List.all_eq_true.1 hword), hend, List.append_nil]
  have hstep : step (.emit 0) c (word ++ rest) = insideStep .emit 0 c (word ++ rest) := by
    unfold step
    rw [closing?_of_isNameStart hc]
    rfl
  rw [hstep, insideStep, isSpace_of_isNameStart hc, longSigns_of_isNameStart hc, shortSigns_of_isNameStart hc, hquote,
    isDigit_of_isNameStart hc, hc, htake]
  rfl

end

theorem scan_emit_blank (line : Nat) (cs : List Char) : scan (.emit 0) line (' ' :: cs) = scan (.emit 0) line cs := by
  rw [scan_cons rfl]
  rfl

theorem scan_emitStart (line : Nat) (cs : List Char) : scan (.outside false) line ('\x7b' :: '\x7b' :: ' ' :: cs) =
    (scan (.emit 0) line cs).behind (some .emitStart) line := by
  rw [scan_cons rfl]
  exact congrArg (Lexemes.behind _ line) (scan_emit_blank line cs)

theorem scan_emitEnd (line : Nat) (cs : List Char) :
    scan (.emit 0) line ('\x7d' :: '\x7d' :: cs) = (scan (.outside false) line cs).behind (some .emitEnd) line := by
  rw [scan_cons rfl]
  rfl

theorem scan_emit_name {c : Char} {word : List Char} (hc : isNameStart c = true) (hword : word.all isNamePart = true)
    (line : Nat) {rest : List Char} (hrest : rest.head?.any isNamePart = false) :
    scan (.emit 0) line (c :: (word ++ rest)) =
      (scan (.emit 0) line rest).behind (some (.name (String.ofList (c :: word)))) line := by
  have htake : (c :: (word ++ rest)).take (word.length + 1) = c :: word := by simp
  rw [scan_cons (step_emit_name hc hword hrest)]
  dsimp only
  rw [htake, newlines_of_isNameStart hc hword, List.drop_left]
  rfl

/-- **The tokens of a source that prints a variable.** -/
theorem ofText_variableSource {name : String} (hname : IsVariable name) :
    Lexemes.ofText (variableSource name) = ⟨[⟨.emitStart, 1⟩, ⟨.name name, 1⟩, ⟨.emitEnd, 1⟩], none⟩ := by
  obtain ⟨c, word, hspelled, hc, hword⟩ := hname.spelled
  have hsource : (variableSource name).toList = '\x7b' :: '\x7b' :: ' ' :: c :: (word ++ ' ' :: ['\x7d', '\x7d']) := by
    rw [variableSource, String.toList_append, String.toList_append, hspelled]
    rfl
  have hnamed : String.ofList (c :: word) = name := by rw [← hspelled, String.ofList_toList]
  unfold Lexemes.ofText
  rw [hsource, scan_emitStart, scan_emit_name hc hword _ rfl, scan_emit_blank, scan_emitEnd, scan_nil, hnamed]
  rfl

/-! ## Expressions -/

/-- In front of a token that goes on no expression. -/
def Ended (c : Cursor) : Prop := ∃ t line rest, c.rest = ⟨t, line⟩ :: rest ∧
  (∀ level : Level, level.operator? (some t) = none) ∧ isKeyword "if" (some t) = false

/-- In front of the end of a stretch that prints. -/
def AtEnd (c : Cursor) : Prop := ∃ line rest, c.rest = ⟨.emitEnd, line⟩ :: rest

theorem AtEnd.ended {c : Cursor} : AtEnd c → Ended c
  | ⟨line, rest, hc⟩ => ⟨.emitEnd, line, rest, hc, fun level => by cases level <;> rfl, rfl⟩

theorem peek_eq {t : Token} {line : Nat} {rest : List Lexeme} {c : Cursor} (hc : c.rest = ⟨t, line⟩ :: rest) :
    peek c = .ok (some t, c) := by
  unfold peek
  rw [hc]

theorem skip_eq_false {wanted : Option Token → Bool} {t : Token} {line : Nat} {rest : List Lexeme} {c : Cursor}
    (hc : c.rest = ⟨t, line⟩ :: rest) (h : wanted (some t) = false) : skip wanted c = .ok (false, c) := by
  refine Reader.bind_eq_ok.2 ⟨some t, c, peek_eq hc, ?_⟩
  rw [h]
  rfl

section
variable (n : Nat) (level : Level) {e : Expr} {c d : Cursor}

theorem operations_ended (hd : Ended d) : operations (n + 1) level e d = .ok (e, d) := by
  obtain ⟨t, line, rest, hrest, hoperator, -⟩ := hd
  rw [operations]
  refine Reader.bind_eq_ok.2 ⟨none, d, Reader.bind_eq_ok.2 ⟨some t, d, peek_eq hrest, ?_⟩, rfl⟩
  rw [hoperator level]
  rfl

/-- An operand in front of a token that goes on no expression is all there is on its level. -/
theorem binary_ended (h : operand (n + 1) level c = .ok (e, d)) (hd : Ended d) : binary (n + 2) level c = .ok (e, d) := by
  rw [binary]
  exact Reader.bind_eq_ok.2 ⟨e, d, h, operations_ended n level hd⟩

omit level in
/-- An operand of the tightest level is then an expression of every level. -/
theorem binary_or (h : operand (n + 3) .power c = .ok (e, d)) (hc : skip (isKeyword "not") c = .ok (false, c))
    (hd : Ended d) : binary (n + 17) .or c = .ok (e, d) := by
  have hpower := binary_ended (n + 2) .power h hd
  have hproduct := binary_ended (n + 4) .product (by rw [operand]; exact hpower) hd
  have hjoin := binary_ended (n + 6) .join (by rw [operand]; exact hproduct) hd
  have hsum := binary_ended (n + 8) .sum (by rw [operand]; exact hjoin) hd
  have hcompare := binary_ended (n + 10) .compare (by rw [operand]; exact hsum) hd
  have hnegation : negation (n + 13) c = .ok (e, d) := by
    rw [negation]
    exact Reader.bind_eq_ok.2 ⟨false, c, hc, hcompare⟩
  have hand := binary_ended (n + 13) .and (by rw [operand]; exact hnegation) hd
  exact binary_ended (n + 15) .or (by rw [operand]; exact hand) hd

omit level in
theorem expr_eq (hdepth : c.depth < deepest) (h : operand (n + 3) .power { c with depth := c.depth + 1 } = .ok (e, d))
    (hc : skip (isKeyword "not") { c with depth := c.depth + 1 } = .ok (false, { c with depth := c.depth + 1 }))
    (hd : Ended d) : expr (n + 18) c = .ok (e, { d with depth := d.depth - 1 }) := by
  have hbinary := binary_or n h hc hd
  obtain ⟨t, line, rest, hrest, -, hcondition⟩ := hd
  rw [expr]
  refine deeper_ok hdepth (Reader.bind_eq_ok.2 ⟨e, d, hbinary, ?_⟩)
  rw [conditions]
  exact Reader.bind_eq_ok.2 ⟨false, d, skip_eq_false hrest hcondition, rfl⟩

end

section
variable {name : String} {line : Nat} {rest : List Lexeme} {c : Cursor} (hname : IsVariable name) (n : Nat)
  (hc : c.rest = ⟨.name name, line⟩ :: rest) (hdepth : c.depth < deepest)
include hname hc hdepth

theorem primary_name : primary (n + 1) c =
    .ok (.variable line name, { c with rest := rest, line := line, mentioned := name :: c.mentioned }) := by
  have hfree := hname.free
  simp only [List.mem_cons, List.not_mem_nil, or_false, not_or] at hfree
  obtain ⟨_, fault, place, names, blocks, mentioned, inDefinition, depth⟩ := c
  cases hc
  rw [primary]
  refine deeper_ok (d := ⟨rest, fault, line, names, blocks, name :: mentioned, inDefinition, depth + 1⟩) hdepth ?_
  refine Reader.bind_eq_ok.2 ⟨line, _, rfl, Reader.bind_eq_ok.2 ⟨some (.name name), _, rfl, ?_⟩⟩
  -- The words with a meaning of their own are passed over one by one.
  obtain ⟨htrue, hTrue, hfalse, hFalse, hnone, hNone, -⟩ := hfree
  simp only
  rfl

omit hdepth in
/-- A variable does not begin with a negation. -/
theorem skip_not_name : skip (isKeyword "not") c = .ok (false, c) := by
  have hne : "not" ≠ name := fun h => hname.free (by simp [← h])
  exact skip_eq_false hc (beq_eq_false_iff_ne.2 hne)

theorem operand_name (hrest : AtEnd { c with rest := rest, line := line, mentioned := name :: c.mentioned }) :
    operand (n + 3) .power c =
      .ok (.variable line name, { c with rest := rest, line := line, mentioned := name :: c.mentioned }) := by
  have hsigned : signed (n + 2) c =
      .ok (.variable line name, { c with rest := rest, line := line, mentioned := name :: c.mentioned }) := by
    rw [signed]
    refine Reader.bind_eq_ok.2 ⟨_, c, rfl, ?_⟩
    exact Reader.bind_eq_ok.2 ⟨false, c, skip_eq_false hc rfl, primary_name hname n hc hdepth⟩
  obtain ⟨place, after, hplace⟩ := hrest
  obtain rfl : rest = ⟨.emitEnd, place⟩ :: after := hplace
  rw [operand]
  exact Reader.bind_eq_ok.2 ⟨_, _, hsigned, Reader.bind_eq_ok.2 ⟨.variable line name, _, rfl, rfl⟩⟩

end

/-! ## Templates -/

/-- **A source that prints a variable is read as the statement that does so.** -/
theorem read_variableSource {name : String} (hname : IsVariable name) (page : String) :
    read page (variableSource name) = .ok ⟨page, [.emit 1 (.variable 1 name)], []⟩ := by
  let after : Cursor := ⟨[⟨.emitEnd, 1⟩], none, 1, [], [], [name], false, 1⟩
  have hafter : AtEnd after := ⟨1, [], rfl⟩
  have hexpr : expr 159 ⟨[⟨.name name, 1⟩, ⟨.emitEnd, 1⟩], none, 1, [], [], [], false, 0⟩ =
      .ok (.variable 1 name, { after with depth := 0 }) :=
    expr_eq 141 (show 0 < deepest by decide) (operand_name hname 141 rfl (show 1 < deepest by decide) hafter)
      (skip_not_name hname rfl) hafter.ended
  have hbody : body 160 [] [] ⟨[⟨.emitStart, 1⟩, ⟨.name name, 1⟩, ⟨.emitEnd, 1⟩], none, 1, [], [], [], false, 0⟩ =
      .ok ([.emit 1 (.variable 1 name)], { after with rest := [], depth := 0 }) :=
    body_step.2 (.emit rfl hexpr rfl (body_step.2 (.finished rfl rfl)))
  exact Layout.read_eq_ok (ofText_variableSource hname) rfl hbody rfl

theorem lookup_eq {here : Here} {r : Run} {name : String} {v : Value} (hv : r.get? here.env name = some v) :
    lookup here name r = .ok v r := by
  show EStateM.Result.ok ((r.get? here.env name).getD .undefined) r = .ok v r
  rw [hv]
  rfl

/-- A variable of the page is printed, escaped where HTML is. -/
theorem runner_variable (n : Nat) (here : Here) {r : Run} {name : String} {v : Value}
    (hv : r.get? here.env name = some v) (hempty : r.sink = .empty) (hparent : r.parent = none) :
    ∃ s, runner (n + 1) here [.emit 1 (.variable 1 name)] r = .ok () s ∧
      s.sink.text = (if here.escaping then v.escaped else v.display) ∧ s.session = r.session := by
  let text := if here.escaping then v.escaped else v.display
  have hprints : Stmt.execAll (runner n) here [.emit 1 (.variable 1 name)] r =
      .ok () { r with sink := r.sink.print text } := by
    simp only [Stmt.execAll, Stmt.exec, Expr.eval]
    exact Eval.bind_eq_ok.2 ⟨(), _, Eval.bind_eq_ok.2 ⟨v, r, lookup_eq hv, rfl⟩, rfl⟩
  obtain ⟨session, frames, scopes, sink, blocks, inherited, parent, outerDepth, origins⟩ := r
  cases hempty
  cases hparent
  refine ⟨⟨session, frames, scopes, Sink.empty.print text, blocks, inherited, none, outerDepth, origins⟩, ?_, ?_, rfl⟩
  · rw [runner]
    refine Eval.bind_eq_ok.2 ⟨_, _, rfl, Eval.bind_eq_ok.2 ⟨(), _, rfl, Eval.bind_eq_ok.2 ⟨(), _, hprints, ?_⟩⟩⟩
    exact Eval.bind_eq_ok.2 ⟨_, _, rfl, rfl⟩
  · show String.join [text] = text
    simp

end Folio.Template
