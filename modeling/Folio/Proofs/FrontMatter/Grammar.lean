import Folio.FrontMatter
/-!
# The grammar of front matter

A text with a metadata block is made of five parts: a byte order mark or nothing, an opening line, lines that do not close
the fence, a line that closes it, and the rest (`Parts.WellFormed`).  A text can be cut into lines in one way only
(`lines_append_line`, `lines_eq_append`), so it has such parts in at most one way.  The places that splitting counts are
the ends of these parts (`locate_eq`), so it finds them whenever they are there, and never cuts inside of a character.
-/
namespace Folio.FrontMatter

/-! ## Lines -/

/-- A complete line: its only newline ends it. -/
def IsLine (l : List Char) : Prop := ∃ cs, '\n' ∉ cs ∧ l = cs ++ ['\n']

theorem IsLine.ne_nil {l : List Char} (h : IsLine l) : l ≠ [] := by
  obtain ⟨cs, -, rfl⟩ := h
  simp

theorem IsLine.getLast? {l : List Char} (h : IsLine l) : l.getLast? = some '\n' := by
  obtain ⟨cs, -, rfl⟩ := h
  simp

theorem IsLine.cons {l : List Char} {c : Char} (hc : c ≠ '\n') (h : IsLine l) : IsLine (c :: l) := by
  obtain ⟨cs, hcs, rfl⟩ := h
  exact ⟨c :: cs, by simp [hcs, Ne.symm hc], rfl⟩

theorem lines_cons_of_ne {c : Char} (h : c ≠ '\n') (cs : List Char) :
    lines (c :: cs) = match lines cs with
      | [] => [[c]]
      | l :: ls => (c :: l) :: ls :=
  lines.eq_3 c cs h

/-- A complete line is the first one of whatever it starts. -/
theorem lines_append_line {l : List Char} (h : IsLine l) (rest : List Char) : lines (l ++ rest) = l :: lines rest := by
  obtain ⟨cs, hcs, rfl⟩ := h
  induction cs with
  | nil => rfl
  | cons c cs ih =>
    have hc : c ≠ '\n' := fun e => hcs (e ▸ List.mem_cons_self)
    have ih' := ih (fun m => hcs (List.mem_cons_of_mem _ m))
    rw [List.cons_append, List.cons_append, lines_cons_of_ne hc, ih']

theorem lines_append_lines : ∀ {ls : List (List Char)} (_ : ∀ l ∈ ls, IsLine l) (rest : List Char),
    lines (ls.flatten ++ rest) = ls ++ lines rest
  | [], _, _ => rfl
  | l :: ls, h, rest => by
    rw [List.flatten_cons, List.append_assoc, lines_append_line (h l List.mem_cons_self),
      lines_append_lines (fun x hx => h x (List.mem_cons_of_mem _ hx)) rest]
    rfl

/-- The last line of a text may be without a newline. -/
theorem lines_of_not_mem {l : List Char} (h : '\n' ∉ l) (hne : l ≠ []) : lines l = [l] := by
  induction l with
  | nil => exact absurd rfl hne
  | cons c cs ih =>
    have hc : c ≠ '\n' := fun e => h (e ▸ List.mem_cons_self)
    rw [lines_cons_of_ne hc]
    cases cs with
    | nil => rfl
    | cons d ds => rw [ih (fun m => h (List.mem_cons_of_mem _ m)) (List.cons_ne_nil _ _)]

/-- The first line is complete unless it is all there is, and the lines after it are those of their own text. -/
theorem lines_eq_cons {cs l : List Char} {ls : List (List Char)} (h : lines cs = l :: ls) :
    (IsLine l ∨ '\n' ∉ l ∧ ls = []) ∧ lines ls.flatten = ls := by
  induction cs generalizing l ls with
  | nil => cases h
  | cons c cs ih =>
    by_cases hc : c = '\n'
    · subst hc
      obtain ⟨rfl, rfl⟩ := List.cons.inj (h : ['\n'] :: lines cs = l :: ls)
      exact ⟨Or.inl ⟨[], by simp, rfl⟩, by rw [flatten_lines]⟩
    · rw [lines_cons_of_ne hc] at h
      cases hcs : lines cs with
      | nil =>
        rw [hcs] at h
        obtain ⟨rfl, rfl⟩ := List.cons.inj h
        exact ⟨Or.inr ⟨by simp [Ne.symm hc], rfl⟩, rfl⟩
      | cons l' ls' =>
        rw [hcs] at h
        obtain ⟨rfl, rfl⟩ := List.cons.inj h
        obtain ⟨hl, hls⟩ := ih hcs
        refine ⟨?_, hls⟩
        rcases hl with hl | ⟨hl, rfl⟩
        · exact Or.inl (hl.cons hc)
        · exact Or.inr ⟨by simp [hl, Ne.symm hc], rfl⟩

/-- **Every line before another one is complete**, and the lines after any line are those of their own text. -/
theorem lines_eq_append : ∀ {pre : List (List Char)} {cs l : List Char} {post : List (List Char)},
    lines cs = pre ++ l :: post →
      (∀ x ∈ pre, IsLine x) ∧ (IsLine l ∨ '\n' ∉ l ∧ post = []) ∧ lines post.flatten = post
  | [], _, _, _, h => by
    obtain ⟨hl, hpost⟩ := lines_eq_cons h
    exact ⟨by simp, hl, hpost⟩
  | x :: pre, _, l, post, h => by
    obtain ⟨hx, hrest⟩ := lines_eq_cons h
    obtain ⟨hpre, hl, hpost⟩ := lines_eq_append hrest
    have hx' : IsLine x := hx.resolve_right fun ⟨_, hn⟩ => by simp at hn
    refine ⟨?_, hl, hpost⟩
    intro y hy
    rcases List.mem_cons.1 hy with rfl | hy
    · exact hx'
    · exact hpre y hy

/-! ## Fences -/

namespace Fence

/-- The lines that open a fence, without the blanks at their ends. -/
def openings : Fence → List (List Char)
  | dashes => ["---".toList, "---yaml".toList]
  | marker => ["= yaml =".toList]

/-- The lines that close a fence, without the blanks at their ends. -/
def closings : Fence → List (List Char)
  | dashes => ["...".toList, "---".toList]
  | marker => ["...".toList, "= yaml =".toList]

theorem opened?_eq_some_iff {line : List Char} {f : Fence} :
    opened? line = some f ↔ Text.trimEnd line ∈ f.openings := by
  have hd : dashLine ≠ markerLine := by decide
  have hy : dashYamlLine ≠ markerLine := by decide
  show (if Text.trimEnd line = dashLine ∨ Text.trimEnd line = dashYamlLine then some dashes
    else if Text.trimEnd line = markerLine then some marker else none) = some f ↔ _
  cases f with
  | dashes =>
    show _ ↔ Text.trimEnd line ∈ [dashLine, dashYamlLine]
    split <;> simp_all
  | marker =>
    show _ ↔ Text.trimEnd line ∈ [markerLine]
    split <;> grind

theorem closes_iff {f : Fence} {line : List Char} : f.closes line = true ↔ Text.trimEnd line ∈ f.closings := by
  simp only [closes, Bool.or_eq_true, decide_eq_true_eq]
  cases f
  · show _ ↔ Text.trimEnd line ∈ [dotsLine, dashLine]
    simp [closer]
  · show _ ↔ Text.trimEnd line ∈ [dotsLine, markerLine]
    simp [closer]

/-- The byte order mark starts no opening line. -/
theorem head_ne_bom {f : Fence} {line : List Char} (h : Text.trimEnd line ∈ f.openings) (cs : List Char) :
    line ≠ bom :: cs := by
  rintro rfl
  obtain ⟨t, ht⟩ := Text.trimEnd_prefix (bom :: cs)
  cases f <;> simp only [openings, List.mem_cons, List.not_mem_nil, or_false] at h
  · rcases h with h | h <;> rw [h] at ht <;> exact absurd (List.cons.inj ht).1 (by decide)
  · rw [h] at ht
    exact absurd (List.cons.inj ht).1 (by decide)

end Fence

/-! ## Blocks by their lines -/

/-- The lines of a metadata block and the lines after them. -/
structure Cut where
  opening : List Char
  inner : List (List Char)
  closing : List Char
  after : List (List Char)

/-- The lines up to the first one that closes a fence, that line, and the lines after it. -/
def upToClosing (f : Fence) : List (List Char) → Option (List (List Char) × List Char × List (List Char))
  | [] => none
  | l :: ls =>
    if f.closes l then some ([], l, ls)
    else (upToClosing f ls).map fun (inner, closing, after) => (l :: inner, closing, after)

def withoutBom : List Char → List Char
  | [] => []
  | c :: cs => if c = bom then cs else c :: cs

/-- The block at the start of a text, cut out by lines and not at places. -/
def cut? (text : List Char) : Option Cut :=
  match lines (withoutBom text) with
  | [] => none
  | first :: rest =>
    if first.getLast? = some '\n' then
      (Fence.opened? first).bind fun f =>
        (upToClosing f rest).map fun (inner, closing, after) => ⟨first, inner, closing, after⟩
    else none

/-- The place where the lines of a text start. -/
theorem exists_mark (raw : List Char) :
    ∃ mark, (mark = [] ∨ mark = [bom]) ∧ mark ++ withoutBom raw = raw ∧ textStart raw = Text.size mark := by
  cases raw with
  | nil => exact ⟨[], Or.inl rfl, rfl, rfl⟩
  | cons c cs =>
    by_cases hc : c = bom
    · exact ⟨[bom], Or.inr rfl, by simp [withoutBom, hc], by simp [textStart, hc]⟩
    · exact ⟨[], Or.inl rfl, by simp [withoutBom, hc], by simp [textStart, hc]⟩

/-- **Places follow the lines**: those of the YAML and of the body are where the lines before them end. -/
theorem locateFrom_eq (f : Fence) (front : List Char) :
    ∀ (ls : List (List Char)) (done : List Char) (number : Nat),
      locateFrom f (front ++ (done ++ ls.flatten)) (Text.size front) (Text.size front + Text.size done) number ls =
        (upToClosing f ls).map fun (inner, closing, _) =>
          ⟨done ++ inner.flatten, Text.size (front ++ (done ++ inner.flatten) ++ closing), number + inner.length + 2⟩
  | [], _, _ => rfl
  | l :: ls, done, number => by
    unfold locateFrom upToClosing
    by_cases hl : f.closes l = true
    · rw [if_pos hl, if_pos hl, Text.slice?_size]
      simp [Nat.add_assoc]
    · have hrec := locateFrom_eq f front ls (done ++ l) (number + 1)
      rw [List.append_assoc, Text.size_append, ← Nat.add_assoc] at hrec
      rw [if_neg hl, if_neg hl, List.flatten_cons, hrec]
      cases upToClosing f ls with
      | none => rfl
      | some found =>
        simp only [Option.map_some, List.flatten_cons, List.append_assoc, List.length_cons, Option.some.injEq,
          Block.mk.injEq, true_and]
        omega

theorem locate_eq {raw mark : List Char} (hraw : mark ++ withoutBom raw = raw) (hmark : textStart raw = Text.size mark) :
    locate raw = (cut? raw).map fun c =>
      ⟨c.inner.flatten, Text.size (mark ++ c.opening ++ c.inner.flatten ++ c.closing), c.inner.length + 3⟩ := by
  have htext : Text.from? (textStart raw) raw = some (withoutBom raw) := by
    have hfrom := Text.from?_size mark (withoutBom raw)
    rwa [hraw, ← hmark] at hfrom
  unfold locate cut?
  rw [htext, Option.bind_some]
  cases hl : lines (withoutBom raw) with
  | nil => rfl
  | cons first rest =>
    have hfirst : (mark ++ first) ++ ([] ++ rest.flatten) = raw := by
      rw [List.nil_append, List.append_assoc, ← List.flatten_cons, ← hl, flatten_lines, hraw]
    dsimp only
    split
    · cases Fence.opened? first with
      | none => rfl
      | some f =>
        have hfrom := locateFrom_eq f (mark ++ first) rest [] 1
        rw [hfirst, Text.size_append, Text.size_nil, Nat.add_zero, ← hmark] at hfrom
        rw [Option.bind_some, Option.bind_some, hfrom, Option.map_map]
        congr 1
        funext found
        simp [Nat.add_comm]
    · rfl

theorem isSome_locate (raw : List Char) : (locate raw).isSome = (cut? raw).isSome := by
  obtain ⟨mark, -, hraw, hmark⟩ := exists_mark raw
  rw [locate_eq hraw hmark, Option.isSome_map]

theorem upToClosing_eq_some_iff {f : Fence} {closing : List Char} {after : List (List Char)} :
    ∀ {ls inner : List (List Char)}, upToClosing f ls = some (inner, closing, after) ↔
      ls = inner ++ closing :: after ∧ (∀ l ∈ inner, f.closes l = false) ∧ f.closes closing = true
  | [], inner => by simp [upToClosing]
  | l :: ls, inner => by
    unfold upToClosing
    by_cases hl : f.closes l = true
    · rw [if_pos hl]
      constructor
      · intro h
        obtain ⟨rfl, rfl, rfl⟩ : [] = inner ∧ l = closing ∧ ls = after := by simpa using h
        exact ⟨rfl, by simp, hl⟩
      · rintro ⟨hs, hinner, -⟩
        cases inner with
        | nil =>
          obtain ⟨rfl, rfl⟩ := List.cons.inj hs
          rfl
        | cons x inner =>
          rw [(List.cons.inj hs).1, hinner x List.mem_cons_self] at hl
          cases hl
    · rw [if_neg hl]
      constructor
      · intro h
        obtain ⟨⟨i, c, a⟩, hr, he⟩ := Option.map_eq_some_iff.1 h
        obtain ⟨rfl, rfl, rfl⟩ : l :: i = inner ∧ c = closing ∧ a = after := by simpa using he
        obtain ⟨rfl, hi, hc⟩ := upToClosing_eq_some_iff.1 hr
        exact ⟨rfl, by simpa [hl] using hi, hc⟩
      · rintro ⟨hs, hinner, hc⟩
        cases inner with
        | nil => exact absurd ((List.cons.inj hs).1 ▸ hc) hl
        | cons x inner =>
          obtain ⟨rfl, hls⟩ := List.cons.inj hs
          have hrec : upToClosing f ls = some (inner, closing, after) :=
            upToClosing_eq_some_iff.2 ⟨hls, fun y hy => hinner y (List.mem_cons_of_mem _ hy), hc⟩
          rw [hrec]
          rfl

/-! ## Parts -/

/-- What a text with a metadata block is made of, in order. -/
structure Parts where
  mark : List Char
  opening : List Char
  yaml : List Char
  closing : List Char
  rest : List Char

namespace Parts

def text (p : Parts) : List Char := p.mark ++ (p.opening ++ (p.yaml ++ (p.closing ++ p.rest)))

/-- The grammar.  A closing line at the end of the text need not be complete. -/
structure WellFormed (p : Parts) (f : Fence) : Prop where
  mark : p.mark = [] ∨ p.mark = ['\ufeff']
  opening : IsLine p.opening
  opens : Text.trimEnd p.opening ∈ f.openings
  yaml : ∃ ls : List (List Char), p.yaml = ls.flatten ∧ ∀ l ∈ ls, IsLine l ∧ Text.trimEnd l ∉ f.closings
  closing : IsLine p.closing ∨ '\n' ∉ p.closing ∧ p.rest = []
  closes : Text.trimEnd p.closing ∈ f.closings

/-- The parts of a text, by the grammar. -/
def IsCut (p : Parts) (raw : List Char) : Prop := p.text = raw ∧ ∃ f, p.WellFormed f

variable {p : Parts} {f : Fence}

theorem WellFormed.withoutBom_text (h : p.WellFormed f) :
    withoutBom p.text = p.opening ++ (p.yaml ++ (p.closing ++ p.rest)) := by
  unfold text
  rcases h.mark with hm | hm
  · rw [hm, List.nil_append]
    cases ho : p.opening with
    | nil => exact absurd ho h.opening.ne_nil
    | cons c cs =>
      have hc : c ≠ bom := fun e => Fence.head_ne_bom h.opens cs (e ▸ ho)
      rw [List.cons_append, withoutBom, if_neg hc]
  · rw [hm]
    rfl

theorem WellFormed.closing_ne_nil (h : p.WellFormed f) : p.closing ≠ [] := by
  intro hn
  have hc := h.closes
  rw [hn, Text.trimEnd_nil] at hc
  revert hc
  cases f <;> decide

theorem WellFormed.lines_closing (h : p.WellFormed f) : lines (p.closing ++ p.rest) = p.closing :: lines p.rest := by
  rcases h.closing with hc | ⟨hc, hr⟩
  · exact lines_append_line hc p.rest
  · rw [hr, List.append_nil, lines_of_not_mem hc h.closing_ne_nil]
    rfl

theorem WellFormed.lines_yaml (h : p.WellFormed f) :
    ∀ l ∈ lines p.yaml, IsLine l ∧ Text.trimEnd l ∉ f.closings := by
  obtain ⟨ls, hy, hls⟩ := h.yaml
  have happend := lines_append_lines (fun l hl => (hls l hl).1) []
  rw [List.append_nil, ← hy, lines, List.append_nil] at happend
  rwa [happend]

/-- The lines of a block and of its rest, behind any line. -/
theorem WellFormed.lines_front (h : p.WellFormed f) {first : List Char} (hfirst : IsLine first) :
    lines (first ++ (p.yaml ++ (p.closing ++ p.rest))) = first :: (lines p.yaml ++ p.closing :: lines p.rest) := by
  have hyaml := lines_append_lines (fun l hl => (h.lines_yaml l hl).1) (p.closing ++ p.rest)
  rw [flatten_lines] at hyaml
  rw [lines_append_line hfirst, hyaml, h.lines_closing]

/-- **Splitting finds the parts of the grammar.** -/
theorem WellFormed.cut?_text (h : p.WellFormed f) :
    cut? p.text = some ⟨p.opening, lines p.yaml, p.closing, lines p.rest⟩ := by
  have hup : upToClosing f (lines p.yaml ++ p.closing :: lines p.rest) = some (lines p.yaml, p.closing, lines p.rest) := by
    refine upToClosing_eq_some_iff.2 ⟨rfl, fun l hl => ?_, Fence.closes_iff.2 h.closes⟩
    rw [Bool.eq_false_iff, ne_eq, Fence.closes_iff]
    exact (h.lines_yaml l hl).2
  unfold cut?
  rw [h.withoutBom_text, h.lines_front h.opening]
  simp only [if_pos h.opening.getLast?, Fence.opened?_eq_some_iff.2 h.opens, Option.bind_some, hup, Option.map_some]

end Parts

/-- **What splitting finds are parts of the grammar.** -/
theorem isCut_of_cut? {raw : List Char} {c : Cut} (h : cut? raw = some c) :
    ∃ mark, Parts.IsCut ⟨mark, c.opening, c.inner.flatten, c.closing, c.after.flatten⟩ raw := by
  unfold cut? at h
  cases hl : lines (withoutBom raw) with
  | nil => rw [hl] at h; cases h
  | cons first rest =>
    rw [hl] at h
    dsimp only at h
    split at h
    case isFalse => cases h
    case isTrue hend =>
      obtain ⟨f, hf, hb⟩ := Option.bind_eq_some_iff.1 h
      obtain ⟨⟨inner, closing, after⟩, hup, rfl⟩ := Option.map_eq_some_iff.1 hb
      obtain ⟨rfl, hinner, hclosing⟩ := upToClosing_eq_some_iff.1 hup
      have hl' : lines (withoutBom raw) = (first :: inner) ++ closing :: after := hl
      obtain ⟨hpre, hc, -⟩ := lines_eq_append hl'
      have htext : withoutBom raw = first ++ (inner.flatten ++ (closing ++ after.flatten)) := by
        rw [← flatten_lines (withoutBom raw), hl]
        simp
      obtain ⟨mark, hmark, hraw, -⟩ := exists_mark raw
      refine ⟨mark, ?_, f, hmark, hpre first List.mem_cons_self, Fence.opened?_eq_some_iff.1 hf,
        ⟨inner, rfl, fun l hl => ⟨hpre l (List.mem_cons_of_mem _ hl), ?_⟩⟩, ?_, Fence.closes_iff.1 hclosing⟩
      · rw [Parts.text, ← hraw, htext]
      · rw [← Fence.closes_iff, hinner l hl]
        exact Bool.false_ne_true
      · rcases hc with hc | ⟨hc, rfl⟩
        · exact Or.inl hc
        · exact Or.inr ⟨hc, rfl⟩

/-- The parts of a text are found, so there is one way to cut it. -/
theorem Parts.IsCut.eq {p q : Parts} {raw : List Char} (hp : p.IsCut raw) (hq : q.IsCut raw) : p = q := by
  obtain ⟨hpt, f, hp⟩ := hp
  obtain ⟨hqt, g, hq⟩ := hq
  have hpc := hp.cut?_text
  have hqc := hq.cut?_text
  rw [hpt] at hpc
  rw [hqt, hpc] at hqc
  obtain ⟨ho, hl, hc, hr⟩ := Cut.mk.inj (Option.some.inj hqc)
  have hy : p.yaml = q.yaml := by rw [← flatten_lines p.yaml, hl, flatten_lines]
  have hrest : p.rest = q.rest := by rw [← flatten_lines p.rest, hr, flatten_lines]
  have hm : p.mark = q.mark := by
    have ht := hpt.trans hqt.symm
    unfold Parts.text at ht
    rw [ho, hy, hc, hrest] at ht
    exact List.append_cancel_right ht
  cases p
  cases q
  simp_all

/-- The rest can be any text once the closing line is complete. -/
theorem Parts.IsCut.withRest {p : Parts} {raw : List Char} (hp : p.IsCut raw) (hc : IsLine p.closing)
    (rest : List Char) : Parts.IsCut { p with rest := rest } { p with rest := rest }.text := by
  obtain ⟨-, f, h⟩ := hp
  exact ⟨rfl, f, h.mark, h.opening, h.opens, h.yaml, Or.inl hc, h.closes⟩

/-- The block of a text with parts: its YAML is one of them, its body stands behind all but the rest, and the line of the
body is the one after the lines of the block. -/
theorem Parts.IsCut.exists_block {p : Parts} {raw : List Char} (hp : p.IsCut raw) :
    ∃ b, locate raw = some b ∧ b.yaml = p.yaml ∧ Text.from? b.bodyStart raw = some p.rest ∧
      b.bodyLine = (lines p.yaml).length + 3 := by
  obtain ⟨rfl, f, h⟩ := hp
  obtain ⟨mark, -, hraw, hmark⟩ := exists_mark p.text
  obtain rfl : mark = p.mark := by
    have ht := hraw
    rw [h.withoutBom_text] at ht
    exact List.append_cancel_right ht
  have hlocate := FrontMatter.locate_eq hraw hmark
  rw [h.cut?_text, Option.map_some, flatten_lines] at hlocate
  refine ⟨_, hlocate, rfl, ?_, rfl⟩
  have hfrom := Text.from?_size (p.mark ++ p.opening ++ p.yaml ++ p.closing) p.rest
  have htext : p.mark ++ p.opening ++ p.yaml ++ p.closing ++ p.rest = p.text := by
    simp only [Parts.text, List.append_assoc]
  rwa [htext] at hfrom

theorem Parts.IsCut.locate_eq {p : Parts} {raw : List Char} (hp : p.IsCut raw) :
    ∃ b, locate raw = some b ∧ b.yaml = p.yaml ∧ Text.from? b.bodyStart raw = some p.rest := by
  obtain ⟨b, hb, hy, hr, -⟩ := hp.exists_block
  exact ⟨b, hb, hy, hr⟩

/-- **A text with parts is split into them.** -/
theorem Parts.IsCut.split_eq {p : Parts} {raw : List Char} (hp : p.IsCut raw) :
    split raw = ⟨attributes p.yaml, String.ofList p.rest, some (String.ofList p.yaml), (lines p.yaml).length + 3⟩ := by
  obtain ⟨b, hb, hy, hr, hl⟩ := hp.exists_block
  unfold split
  rw [hb]
  dsimp only
  rw [hr, hy, hl, Option.getD_some]

theorem split_of_isCut {p : Parts} {raw : List Char} (hp : p.IsCut raw) :
    (split raw).block = some (String.ofList p.yaml) ∧ (split raw).body = String.ofList p.rest ∧
      (split raw).attributes = attributes p.yaml := by
  rw [hp.split_eq]
  exact ⟨rfl, rfl, rfl⟩

theorem hasFrontMatter_iff {raw : List Char} : hasFrontMatter raw = true ↔ ∃ p : Parts, p.IsCut raw := by
  unfold hasFrontMatter
  rw [isSome_locate]
  constructor
  · intro h
    obtain ⟨c, hc⟩ := Option.isSome_iff_exists.1 h
    obtain ⟨mark, hcut⟩ := isCut_of_cut? hc
    exact ⟨_, hcut⟩
  · rintro ⟨p, rfl, f, h⟩
    rw [h.cut?_text]
    rfl

theorem hasBlock_split (raw : List Char) : (split raw).hasBlock = hasFrontMatter raw := by
  unfold split Split.hasBlock hasFrontMatter
  cases locate raw <;> rfl

/-- Without parts a text is all body, its byte order mark included. -/
theorem split_eq_of_no_cut {raw : List Char} (h : ¬ ∃ p : Parts, p.IsCut raw) :
    split raw = ⟨[], String.ofList raw, none, 1⟩ := by
  have hnone : locate raw = none := by
    rw [← hasFrontMatter_iff] at h
    exact Option.not_isSome_iff_eq_none.1 h
  unfold split
  rw [hnone]

theorem split_of_no_cut {raw : List Char} (h : ¬ ∃ p : Parts, p.IsCut raw) :
    (split raw).block = none ∧ (split raw).attributes = [] ∧ (split raw).body = String.ofList raw := by
  rw [split_eq_of_no_cut h]
  exact ⟨rfl, rfl, rfl⟩

/-- **Splitting accepts exactly the grammar and loses nothing.**  A block is found exactly in the texts that have the
parts of the grammar, these are unique, and splitting hands them out; the rest has no say in the block and the
attributes.  Any other text comes back whole. -/
theorem split_grammar (raw : List Char) :
    (hasFrontMatter raw = true ↔ ∃ p : Parts, p.IsCut raw) ∧
    ((split raw).hasBlock = true ↔ ∃ p : Parts, p.IsCut raw) ∧
    (∀ p q : Parts, p.IsCut raw → q.IsCut raw → p = q) ∧
    (∀ p : Parts, p.IsCut raw →
      (∃ b, locate raw = some b ∧ b.yaml = p.yaml ∧ Text.from? b.bodyStart raw = some p.rest) ∧
      (split raw).block = some (String.ofList p.yaml) ∧ (split raw).body = String.ofList p.rest ∧
      (split raw).attributes = attributes p.yaml ∧
      (IsLine p.closing → ∀ rest,
        (split { p with rest := rest }.text).block = (split raw).block ∧
        (split { p with rest := rest }.text).attributes = (split raw).attributes)) ∧
    ((¬ ∃ p : Parts, p.IsCut raw) →
      (split raw).block = none ∧ (split raw).attributes = [] ∧ (split raw).body = String.ofList raw) := by
  refine ⟨hasFrontMatter_iff, ?_, fun p q hp hq => hp.eq hq, fun p hp => ?_, split_of_no_cut⟩
  · rw [hasBlock_split]
    exact hasFrontMatter_iff
  · obtain ⟨hb, hr, ha⟩ := split_of_isCut hp
    refine ⟨hp.locate_eq, hb, hr, ha, fun hc rest => ?_⟩
    obtain ⟨hb', -, ha'⟩ := split_of_isCut (hp.withRest hc rest)
    exact ⟨hb'.trans hb.symm, ha'.trans ha.symm⟩

/-- A byte order mark, trailing blanks, and a line of dashes that does not close this fence. -/
theorem split_grammar_marker :
    (split "\ufeff= yaml =\r\n---\n... \n---\n".toList).block = some "---\n" ∧
    (split "\ufeff= yaml =\r\n---\n... \n---\n".toList).body = "---\n" := by
  have hcut : Parts.IsCut ⟨['\ufeff'], "= yaml =\r\n".toList, "---\n".toList, "... \n".toList, "---\n".toList⟩
      "\ufeff= yaml =\r\n---\n... \n---\n".toList :=
    ⟨by decide, .marker, Or.inr rfl, ⟨"= yaml =\r".toList, by decide, by decide⟩, by decide,
      ⟨["---\n".toList], by decide, fun l hl => by
        rw [List.mem_singleton.1 hl]
        exact ⟨⟨"---".toList, by decide, by decide⟩, by decide⟩⟩,
      Or.inl ⟨"... ".toList, by decide, by decide⟩, by decide⟩
  obtain ⟨-, hb, hr, -⟩ := (split_grammar _).2.2.2.1 _ hcut
  exact ⟨hb, hr⟩

end Folio.FrontMatter
