import Folio.Proofs.Template.Agreement
import Folio.Proofs.Template.Variable
/-!
# Lines of text with expressions in them

A phrase is a line of text in which expressions `{{ 'text' | filter('argument') }}` stand.  Its tokens are those of its pieces
one after the other (`scan_parts`), it is read as statements that print the pieces (`Phrase.read_source`), and where the
filters come to values it prints its texts and these values (`renderNamed_phrase`).  If a quote of an expression is written
as the character reference `&quot;`, the phrase is no template any more: no token begins with its `&`
(`Phrase.read_broken`).
-/
namespace Folio.Template

/-! ## Phrases -/

/-- Letters and digits, and whatever stands beyond ASCII, but for the mark of the byte order. -/
def IsLetter (c : Char) : Prop := c.isAlphanum = true ∨ 0x80 ≤ c.toNat ∧ c ≠ '\uFEFF'

instance : DecidablePred IsLetter := fun c =>
  inferInstanceAs (Decidable (c.isAlphanum = true ∨ 0x80 ≤ c.toNat ∧ c ≠ '\uFEFF'))

theorem IsLetter.ne {c d : Char} (hc : IsLetter c) (hd : ¬ IsLetter d) : c ≠ d := fun h => hd (h ▸ hc)

/-- A text between quotes in which nothing has to be escaped. -/
structure Literal where
  quote : Char
  text : String
  isQuote : quote = '\'' ∨ quote = '"'
  letters : ∀ c ∈ text.toList, IsLetter c

def Literal.source (l : Literal) : List Char := l.quote :: (l.text.toList ++ [l.quote])

def Literal.expr (l : Literal) : Expr := .constant 1 (.text l.text)

/-- A name that begins with a letter and ends with a letter or a digit. -/
def IsFilterName (name : String) : Prop :=
  name.toList.head?.any Char.isAlpha = true ∧ name.toList.all isNamePart = true ∧ name.toList.getLast? ≠ some '_'

instance : DecidablePred IsFilterName := fun _ => inferInstanceAs (Decidable (_ ∧ _ ∧ _))

/-- An expression that puts a text through a filter with at most one argument. -/
structure Interpolation where
  subject : Literal
  filter : String
  argument : Option Literal
  named : IsFilterName filter

namespace Interpolation

def brackets : Option Literal → List Char
  | some a => '(' :: (a.source ++ [')'])
  | none => []

def source (i : Interpolation) : List Char :=
  '{' :: '{' :: ' ' :: (i.subject.source ++ ' ' :: '|' :: ' ' ::
    (i.filter.toList ++ (brackets i.argument ++ [' ', '}', '}'])))

def args (i : Interpolation) : List Value := i.argument.toList.map fun a => .plain a.text

def expr (i : Interpolation) : Expr :=
  .filter 1 i.filter i.subject.expr (i.argument.toList.map fun a => .positional a.expr)

end Interpolation

theorem Literal.of_mem {l : Literal} {c : Char} (h : c ∈ l.source) : IsLetter c ∨ c = l.quote := by
  rcases List.mem_cons.1 h with rfl | h
  · exact .inr rfl
  rcases List.mem_append.1 h with h | h
  · exact .inl (l.letters c h)
  · exact .inr (List.mem_singleton.1 h)

theorem Literal.not_mem (l : Literal) {c : Char} (hc : ¬ (IsLetter c ∨ c = '\'' ∨ c = '"')) : c ∉ l.source := by
  intro h
  refine hc ((Literal.of_mem h).imp_right ?_)
  rintro rfl
  exact l.isQuote

theorem IsFilterName.of_mem {name : String} (h : IsFilterName name) {c : Char} (hc : c ∈ name.toList) :
    IsLetter c ∨ c = '_' := by
  have hpart := List.all_eq_true.1 h.2.1 c hc
  rcases Bool.or_eq_true_iff.1 hpart with hline | hletter
  · exact .inr (beq_iff_eq.1 hline)
  · exact .inl (.inl hletter)

namespace Interpolation

/-- The signs of an expression, but for quotes and what stands in names. -/
def signs : List Char := ['{', '}', ' ', '|', '(', ')']

variable {i : Interpolation} {c : Char}

theorem of_mem (h : c ∈ i.source) : c ∈ i.subject.source ∨ c ∈ i.filter.toList ∨
    (∃ a, i.argument = some a ∧ c ∈ a.source) ∨ c ∈ signs := by
  have hbrackets : ∀ {argument}, c ∈ brackets argument → (∃ a, argument = some a ∧ c ∈ a.source) ∨ c ∈ signs := by
    rintro (_ | a) hc
    · cases hc
    · rcases List.mem_cons.1 hc with rfl | hc
      · exact .inr (by decide)
      rcases List.mem_append.1 hc with hc | hc
      · exact .inl ⟨a, rfl, hc⟩
      · obtain rfl := List.mem_singleton.1 hc
        exact .inr (by decide)
  simp only [source, List.mem_cons, List.mem_append, List.not_mem_nil, or_false] at h
  rcases h with rfl | rfl | rfl | h | rfl | rfl | rfl | h | h | rfl | rfl | rfl
  all_goals first
    | exact .inl h
    | exact .inr (.inl h)
    | exact .inr (.inr (hbrackets h))
    | exact .inr (.inr (.inr (by decide)))

/-- What is in front of the first double quote of an expression that has one. -/
def front (i : Interpolation) : List Char :=
  '{' :: '{' :: ' ' :: if i.subject.quote = '"' then []
    else i.subject.source ++ ' ' :: '|' :: ' ' :: (i.filter.toList ++ ['('])

theorem front_of_mem (h : '"' ∈ i.source) :
    ∃ back, i.source = i.front ++ '"' :: back ∧ ∀ c ∈ i.front, (c != '"') = true := by
  unfold front
  split
  · rename_i hquote
    refine ⟨i.subject.text.toList ++ '"' :: ' ' :: '|' :: ' ' ::
      (i.filter.toList ++ (brackets i.argument ++ [' ', '}', '}'])), ?_, List.all_eq_true.1 (by decide)⟩
    simp [source, Literal.source, hquote]
  · rename_i hquote
    have hsubject : '"' ∉ i.subject.source := fun hmem => by
      rcases Literal.of_mem hmem with hletter | heq
      · exact absurd hletter (by decide)
      · exact hquote heq.symm
    have hfilter : '"' ∉ i.filter.toList := fun hmem => absurd (i.named.of_mem hmem) (by decide)
    -- So the quote is one of the argument, and the first that there is.
    obtain ⟨a, ha, hmem⟩ : ∃ a, i.argument = some a ∧ '"' ∈ a.source :=
      (((of_mem h).resolve_left hsubject).resolve_left hfilter).resolve_right (by decide)
    have haquote : a.quote = '"' := ((Literal.of_mem hmem).resolve_left (by decide)).symm
    refine ⟨a.text.toList ++ '"' :: [')', ' ', '}', '}'], ?_, fun c hc => bne_iff_ne.2 ?_⟩
    · simp [source, brackets, ha, Literal.source, haquote]
    · rintro rfl
      simp [hsubject, hfilter] at hc

end Interpolation

/-- Texts with an expression behind each, and a last text. -/
structure Phrase where
  parts : List (List Char × Interpolation)
  last : List Char

/-- The pieces one after the other, with something in the place of each expression. -/
def spell (f : Interpolation → List Char) (parts : List (List Char × Interpolation)) : List Char :=
  parts.flatMap fun part => part.1 ++ f part.2

namespace Phrase

def interpolations (p : Phrase) : List Interpolation := p.parts.map (·.2)

def source (p : Phrase) : List Char := spell Interpolation.source p.parts ++ p.last

/-- What the phrase prints when its expressions print this. -/
def output (p : Phrase) (shown : Interpolation → String) : String :=
  String.ofList (spell (fun i => (shown i).toList) p.parts ++ p.last)

/-- The phrase between two texts. -/
def enclose (front back : List Char) : Phrase → Phrase
  | ⟨[], last⟩ => ⟨[], front ++ (last ++ back)⟩
  | ⟨(text, i) :: parts, last⟩ => ⟨(front ++ text, i) :: parts, last ++ back⟩

theorem interpolations_enclose (front back : List Char) : ∀ p : Phrase,
    (p.enclose front back).interpolations = p.interpolations
  | ⟨[], _⟩ => rfl
  | ⟨_ :: _, _⟩ => rfl

theorem spell_enclose (f : Interpolation → List Char) (front back : List Char) : ∀ p : Phrase,
    spell f (p.enclose front back).parts ++ (p.enclose front back).last =
      front ++ ((spell f p.parts ++ p.last) ++ back)
  | ⟨[], last⟩ => rfl
  | ⟨(text, i) :: parts, last⟩ => by simp [enclose, spell]

end Phrase

/-- Texts that the engine takes as they are: in one line, with no mark and no quote. -/
def Quiet (text : List Char) : Prop := '{' ∉ text ∧ '\n' ∉ text ∧ '"' ∉ text

/-- The texts mean nothing to the engine; the last one may end the line. -/
structure Phrase.Quiet (p : Phrase) : Prop where
  texts : ∀ part ∈ p.parts, Template.Quiet part.1
  last : '{' ∉ p.last ∧ '"' ∉ p.last

/-! ## Tokens -/

def textLexemes (text : List Char) : List Lexeme := if text.isEmpty then [] else [⟨.plain (String.ofList text), 1⟩]

namespace Interpolation

def bracketLexemes : Option Literal → List Lexeme
  | some a => [⟨.sign "(", 1⟩, ⟨.text a.text, 1⟩, ⟨.sign ")", 1⟩]
  | none => []

/-- The tokens behind the text. -/
def application (i : Interpolation) : List Lexeme :=
  ⟨.sign "|", 1⟩ :: ⟨.name i.filter, 1⟩ :: (bracketLexemes i.argument ++ [⟨.emitEnd, 1⟩])

def lexemes (i : Interpolation) : List Lexeme := ⟨.emitStart, 1⟩ :: ⟨.text i.subject.text, 1⟩ :: i.application

/-- The tokens in front of the first double quote. -/
def begun (i : Interpolation) : List Lexeme :=
  ⟨.emitStart, 1⟩ :: if i.subject.quote = '"' then []
    else [⟨.text i.subject.text, 1⟩, ⟨.sign "|", 1⟩, ⟨.name i.filter, 1⟩, ⟨.sign "(", 1⟩]

end Interpolation

def partLexemes (parts : List (List Char × Interpolation)) : List Lexeme :=
  parts.flatMap fun part => textLexemes part.1 ++ part.2.lexemes

/-- A literal ends at its second quote, and stands for what is between them. -/
theorem quoted_letters {quote : Char} (hquote : quote = '\'' ∨ quote = '"') (cs : List Char) : ∀ {text : List Char},
    (∀ c ∈ text, IsLetter c) → quoted quote (text ++ quote :: cs) = some text ∧ unescape none text = some text
  | [], _ => by
    obtain rfl | rfl := hquote
    · exact ⟨rfl, rfl⟩
    · exact ⟨rfl, rfl⟩
  | c :: text, h => by
    have hc := h c List.mem_cons_self
    obtain ⟨hquoted, hplain⟩ := quoted_letters hquote cs fun d hd => h d (List.mem_cons_of_mem c hd)
    have hslash : c ≠ '\\' := hc.ne (by decide)
    have hother : c ≠ quote := by
      obtain rfl | rfl := hquote
      · exact hc.ne (by decide)
      · exact hc.ne (by decide)
    refine ⟨?_, ?_⟩
    · rw [List.cons_append, quoted_cons hslash, if_neg hother, hquoted]
      rfl
    · rw [unescape]
      · simp [hslash, hplain]
      · exact fun _ _ _ _ _ he => absurd he hslash
      · exact fun _ _ he => absurd he hslash

/-- **A literal is one token**, at any depth of brackets. -/
theorem scan_emit_literal (l : Literal) (depth line : Nat) (cs : List Char) :
    scan (.emit depth) line (l.source ++ cs) = (scan (.emit depth) line cs).behind (some (.text l.text)) line := by
  obtain ⟨quote, text, hquote, hletters⟩ := l
  obtain ⟨hquoted, hplain⟩ := quoted_letters hquote cs hletters
  have hinside : step (.emit depth) quote (text.toList ++ quote :: cs) =
      insideStep .emit depth quote (text.toList ++ quote :: cs) := by
    obtain rfl | rfl := hquote
    · cases depth <;> rfl
    · cases depth <;> rfl
  have hstep : step (.emit depth) quote (text.toList ++ quote :: cs) =
      .ok ⟨.emit depth, text.toList.length + 1, some (.text (String.ofList text.toList))⟩ := by
    have hsign : isSpace quote = false ∧ longSigns.any (·.isPrefixOf (quote :: (text.toList ++ quote :: cs))) = false ∧
        shortSigns.contains quote = false ∧ (quote == '"' || quote == '\'') = true := by
      obtain rfl | rfl := hquote
      · exact ⟨rfl, rfl, rfl, rfl⟩
      · exact ⟨rfl, rfl, rfl, rfl⟩
    obtain ⟨hspace, hlong, hshort, hmark⟩ := hsign
    rw [hinside, insideStep, hspace, hlong, hshort, hmark, hquoted]
    dsimp only
    rw [hplain]
    rfl
  have hsource : text.toList ++ quote :: cs = (text.toList ++ [quote]) ++ cs := by simp
  have hlines : newlines (quote :: (text.toList ++ [quote])) = 0 :=
    List.count_eq_zero.2 (Literal.not_mem ⟨quote, text, hquote, hletters⟩ (by decide))
  rw [Literal.source, List.cons_append, List.append_assoc, List.singleton_append, scan_cons hstep]
  dsimp only
  rw [hsource, List.take_succ_cons, List.take_left' (by simp), List.drop_left' (by simp), hlines,
    String.ofList_toList]
  rfl

theorem scan_emit_bar (line : Nat) (cs : List Char) :
    scan (.emit 0) line ('|' :: ' ' :: cs) = (scan (.emit 0) line cs).behind (some (.sign "|")) line := by
  rw [scan_cons rfl]
  exact congrArg (Lexemes.behind _ line) (scan_emit_blank line cs)

theorem scan_emit_open (line : Nat) (cs : List Char) :
    scan (.emit 0) line ('(' :: cs) = (scan (.emit 1) line cs).behind (some (.sign "(")) line := by
  rw [scan_cons rfl]
  rfl

theorem scan_emit_close (line : Nat) (cs : List Char) :
    scan (.emit 1) line (')' :: cs) = (scan (.emit 0) line cs).behind (some (.sign ")")) line := by
  rw [scan_cons rfl]
  rfl

/-- No token begins with the sign of a character reference. -/
theorem scan_emit_ampersand (depth line : Nat) (cs : List Char) :
    scan (.emit depth) line ('&' :: cs) = ⟨[], some (.unexpected "character" none, line)⟩ := by
  have hstep : step (.emit depth) '&' cs = .error (.unexpected "character" none, 0) := by
    cases depth <;> rfl
  rw [scan, hstep]
  rfl

theorem isNameStart_of_isAlpha {c : Char} (h : c.isAlpha = true) : isNameStart c = true := by
  rw [isNameStart, h, Bool.or_true]

theorem IsFilterName.spelled {name : String} (h : IsFilterName name) : ∃ c cs, name.toList = c :: cs ∧
    c.isAlpha = true ∧ cs.all isNamePart = true := by
  obtain ⟨hfirst, hall, -⟩ := h
  cases hname : name.toList with
  | nil =>
    rw [hname] at hfirst
    cases hfirst
  | cons c cs =>
    rw [hname] at hfirst hall
    rw [List.all_cons, Bool.and_eq_true] at hall
    exact ⟨c, cs, rfl, hfirst, hall.2⟩

theorem scan_emit_filter {name : String} (hname : IsFilterName name) (line : Nat) {rest : List Char}
    (hrest : rest.head?.any isNamePart = false) :
    scan (.emit 0) line (name.toList ++ rest) = (scan (.emit 0) line rest).behind (some (.name name)) line := by
  obtain ⟨c, cs, hspelled, hc, hcs⟩ := hname.spelled
  have hscan := scan_emit_name (isNameStart_of_isAlpha hc) hcs line hrest
  rw [← List.cons_append, ← hspelled, String.ofList_toList] at hscan
  exact hscan

namespace Interpolation

theorem scan_brackets (argument : Option Literal) (cs : List Char) :
    scan (.emit 0) 1 (brackets argument ++ [' ', '}', '}'] ++ cs) =
      Lexemes.andThen ⟨bracketLexemes argument ++ [⟨.emitEnd, 1⟩], none⟩ (scan (.outside false) 1 cs) := by
  have hend : scan (.emit 0) 1 (' ' :: '}' :: '}' :: cs) = (scan (.outside false) 1 cs).behind (some .emitEnd) 1 :=
    (scan_emit_blank 1 _).trans (scan_emitEnd 1 cs)
  cases argument with
  | none => exact hend
  | some a =>
    have hsource : brackets (some a) ++ [' ', '}', '}'] ++ cs = '(' :: (a.source ++ ')' :: ' ' :: '}' :: '}' :: cs) := by
      simp [brackets]
    rw [hsource, scan_emit_open, scan_emit_literal, scan_emit_close, hend]
    rfl

/-- **The tokens of an expression.** -/
theorem scan_source (i : Interpolation) (cs : List Char) :
    scan (.outside false) 1 (i.source ++ cs) = Lexemes.andThen ⟨i.lexemes, none⟩ (scan (.outside false) 1 cs) := by
  have hsource : i.source ++ cs = '{' :: '{' :: ' ' :: (i.subject.source ++ ' ' :: '|' :: ' ' ::
      (i.filter.toList ++ (brackets i.argument ++ [' ', '}', '}'] ++ cs))) := by
    simp [source]
  have hbehind : (brackets i.argument ++ [' ', '}', '}'] ++ cs).head?.any isNamePart = false := by
    cases i.argument <;> rfl
  rw [hsource, scan_emitStart, scan_emit_literal, scan_emit_blank, scan_emit_bar, scan_emit_filter i.named 1 hbehind,
    scan_brackets]
  rfl

/-- In front of its first double quote, an expression ends with the sign of a character reference. -/
theorem scan_front (i : Interpolation) (rest : List Char) :
    scan (.outside false) 1 (i.front ++ '&' :: rest) = ⟨i.begun, some (.unexpected "character" none, 1)⟩ := by
  unfold front begun
  split
  · exact (scan_emitStart 1 _).trans (congrArg (Lexemes.behind _ 1) (scan_emit_ampersand 0 1 rest))
  · have hsource :
        '{' :: '{' :: ' ' :: (i.subject.source ++ ' ' :: '|' :: ' ' :: (i.filter.toList ++ ['('])) ++ '&' :: rest =
          '{' :: '{' :: ' ' :: (i.subject.source ++ ' ' :: '|' :: ' ' :: (i.filter.toList ++ '(' :: '&' :: rest)) := by
      simp
    rw [hsource, scan_emitStart, scan_emit_literal, scan_emit_blank, scan_emit_bar, scan_emit_filter i.named 1 rfl,
      scan_emit_open, scan_emit_ampersand]
    rfl

end Interpolation

section
variable {text : List Char} (htext : Quiet text)
include htext

theorem untilMark_text (cs : List Char) : untilMark (text ++ '{' :: '{' :: cs) = text := by
  obtain ⟨hbrace, -⟩ := htext
  induction text with
  | nil => rfl
  | cons c text ih =>
    rw [List.mem_cons, not_or] at hbrace
    obtain ⟨hc, hrest⟩ := hbrace
    rw [List.cons_append, untilMark, mark?_of_ne (Ne.symm hc)]
    exact congrArg (c :: ·) (ih hrest)

/-- A text in front of an expression is one token, if there is any. -/
theorem scan_text (cs : List Char) : scan (.outside false) 1 (text ++ '{' :: '{' :: ' ' :: cs) =
    Lexemes.andThen ⟨textLexemes text, none⟩ (scan (.outside false) 1 ('{' :: '{' :: ' ' :: cs)) := by
  cases text with
  | nil => rfl
  | cons c text =>
    have hc : c ≠ '{' := fun h => htext.1 (h ▸ List.mem_cons_self)
    have hmark : mark? (c :: (text ++ '{' :: '{' :: ' ' :: cs)) = none := mark?_of_ne hc _
    have huntil := untilMark_text htext (' ' :: cs)
    have hstep : step (.outside false) c (text ++ '{' :: '{' :: ' ' :: cs) =
        .ok ⟨.outside false, text.length, some (.plain (String.ofList (c :: text)))⟩ := by
      have hdrop : (c :: (text ++ '{' :: '{' :: ' ' :: cs)).drop ((c :: text).length + 2) = ' ' :: cs := by
        rw [← List.cons_append, ← List.drop_drop, List.drop_left]
        rfl
      unfold step outsideStep
      dsimp only
      rw [hmark, ← List.cons_append, huntil, List.cons_append, hdrop]
      rfl
    have hlines : newlines (c :: text) = 0 := List.count_eq_zero.2 htext.2.1
    have htake : (c :: (text ++ '{' :: '{' :: ' ' :: cs)).take (text.length + 1) = c :: text := by simp
    rw [List.cons_append, scan_cons hstep]
    dsimp only
    rw [htake, hlines, List.drop_left]
    rfl

end

/-- The tokens of texts with an expression behind each. -/
theorem scan_parts : ∀ {parts : List (List Char × Interpolation)}, (∀ part ∈ parts, Quiet part.1) → ∀ cs : List Char,
    scan (.outside false) 1 (spell Interpolation.source parts ++ cs) =
      Lexemes.andThen ⟨partLexemes parts, none⟩ (scan (.outside false) 1 cs)
  | [], _, cs => rfl
  | (text, i) :: parts, h, cs => by
    have hrest := scan_parts (fun part hpart => h part (List.mem_cons_of_mem _ hpart)) cs
    calc scan (.outside false) 1 (spell Interpolation.source ((text, i) :: parts) ++ cs)
        = scan (.outside false) 1 (text ++ (i.source ++ (spell Interpolation.source parts ++ cs))) := by simp [spell]
      _ = Lexemes.andThen ⟨textLexemes text, none⟩
            (scan (.outside false) 1 (i.source ++ (spell Interpolation.source parts ++ cs))) :=
          scan_text (h (text, i) List.mem_cons_self) _
      _ = Lexemes.andThen ⟨partLexemes ((text, i) :: parts), none⟩ (scan (.outside false) 1 cs) := by
          rw [i.scan_source, hrest]
          simp [Lexemes.andThen, partLexemes]

theorem scan_last {last : List Char} (h : '{' ∉ last) : scan (.outside false) 1 last = ⟨textLexemes last, none⟩ := by
  cases last with
  | nil => rw [scan_nil]; rfl
  | cons c last => exact scan_unmarked (fun sign _ hmark => h (hmark.subset List.mem_cons_self)) 1

/-! ## Reading -/

theorem Reader.bind_ok {α β : Type} {m : Reader α} {f : α → Reader β} {c d : Cursor} {a : α} (h : m c = .ok (a, d)) :
    (m >>= f) c = f a d := by
  rw [Reader.bind_apply, h]

theorem Reader.bind_eq_error {α β : Type} {m : Reader α} {f : α → Reader β} {c : Cursor} {e : Cause × Nat}
    (h : m c = .error e) : (m >>= f) c = .error e := by
  rw [Reader.bind_apply, h]

/-- A place in the first line where no variable was mentioned and no block begun. -/
abbrev inFirstLine (fault : Option (Cause × Nat)) (depth : Nat) (rest : List Lexeme) : Cursor :=
  ⟨rest, fault, 1, [], [], [], false, depth⟩

section
variable (n : Nat) (fault : Option (Cause × Nat)) {depth : Nat} (hdepth : depth < deepest)
include hdepth

/-- A text in front of a token that is no text. -/
theorem signed_literal (l : Literal) {rest : List Lexeme} (hrest : adjacentTexts l.text rest = (l.text, rest)) :
    signed (n + 2) (inFirstLine fault depth (⟨.text l.text, 1⟩ :: rest)) =
      .ok (l.expr, inFirstLine fault depth rest) := by
  have hprimary : primary (n + 1) (inFirstLine fault depth (⟨.text l.text, 1⟩ :: rest)) =
      .ok (l.expr, inFirstLine fault depth rest) := by
    rw [primary]
    refine deeper_ok (d := inFirstLine fault (depth + 1) rest) hdepth ?_
    refine Reader.bind_eq_ok.2 ⟨1, _, rfl, Reader.bind_eq_ok.2 ⟨some (.text l.text), _, rfl, ?_⟩⟩
    refine Reader.bind_eq_ok.2 ⟨_, _, rfl, ?_⟩
    dsimp only
    rw [hrest]
    rfl
  rw [signed]
  refine Reader.bind_eq_ok.2 ⟨1, _, rfl, ?_⟩
  exact Reader.bind_eq_ok.2 ⟨false, _, skip_eq_false rfl rfl, hprimary⟩

end

section
variable (n : Nat) (fault : Option (Cause × Nat)) {depth : Nat} (hdepth : depth + 1 < deepest)
include hdepth

/-- A text in front of a closing bracket is an expression. -/
theorem expr_literal (l : Literal) (rest : List Lexeme) :
    expr (n + 18) (inFirstLine fault depth (⟨.text l.text, 1⟩ :: ⟨.sign ")", 1⟩ :: rest)) =
      .ok (l.expr, inFirstLine fault depth (⟨.sign ")", 1⟩ :: rest)) := by
  have hoperand : operand (n + 3) .power (inFirstLine fault (depth + 1) (⟨.text l.text, 1⟩ :: ⟨.sign ")", 1⟩ :: rest)) =
      .ok (l.expr, inFirstLine fault (depth + 1) (⟨.sign ")", 1⟩ :: rest)) := by
    rw [operand]
    refine Reader.bind_eq_ok.2 ⟨_, _, signed_literal n fault hdepth l rfl, ?_⟩
    exact Reader.bind_eq_ok.2 ⟨l.expr, _, rfl, rfl⟩
  have hended : Ended (inFirstLine fault (depth + 1) (⟨.sign ")", 1⟩ :: rest)) :=
    ⟨.sign ")", 1, rest, rfl, fun level => by cases level <;> rfl, rfl⟩
  exact expr_eq n (Nat.lt_of_succ_lt hdepth) hoperand (skip_eq_false rfl rfl) hended

/-- A text in brackets is the one argument of a call. -/
theorem args_literal (l : Literal) (rest : List Lexeme) :
    args (n + 20) (inFirstLine fault depth (⟨.sign "(", 1⟩ :: ⟨.text l.text, 1⟩ :: ⟨.sign ")", 1⟩ :: rest)) =
      .ok ([.positional l.expr], inFirstLine fault depth rest) := by
  have hlast : arguments (n + 18) false [.positional l.expr] (inFirstLine fault depth (⟨.sign ")", 1⟩ :: rest)) =
      .ok ([.positional l.expr], inFirstLine fault depth rest) := by
    rw [arguments]
    exact Reader.bind_eq_ok.2 ⟨true, _, rfl, rfl⟩
  rw [args]
  refine Reader.bind_eq_ok.2 ⟨(), _, rfl, ?_⟩
  rw [arguments]
  refine Reader.bind_eq_ok.2 ⟨false, _, skip_eq_false rfl rfl, ?_⟩
  refine Reader.bind_eq_ok.2 ⟨false, _, skip_eq_false rfl rfl, ?_⟩
  exact Reader.bind_eq_ok.2 ⟨_, _, expr_literal n fault hdepth l rest, hlast⟩

/-- What stands behind a text puts it through the filter. -/
theorem applications_interpolation (i : Interpolation) (rest : List Lexeme) :
    applications (n + 21) i.subject.expr (inFirstLine fault depth (i.application ++ rest)) =
      .ok (i.expr, inFirstLine fault depth (⟨.emitEnd, 1⟩ :: rest)) := by
  obtain ⟨subject, filter, argument, hnamed⟩ := i
  have hend : ∀ e : Expr, applications (n + 20) e (inFirstLine fault depth (⟨.emitEnd, 1⟩ :: rest)) =
      .ok (e, inFirstLine fault depth (⟨.emitEnd, 1⟩ :: rest)) := fun e => by
    rw [applications]
    exact Reader.bind_eq_ok.2 ⟨some .emitEnd, _, rfl, rfl⟩
  rw [applications]
  refine Reader.bind_eq_ok.2 ⟨some (.sign "|"), _, rfl, ?_⟩
  refine Reader.bind_eq_ok.2 ⟨some (.sign "|"), _, rfl, ?_⟩
  refine Reader.bind_eq_ok.2 ⟨filter, _, rfl, ?_⟩
  cases argument with
  | none =>
    refine Reader.bind_eq_ok.2 ⟨some .emitEnd, _, rfl, ?_⟩
    exact Reader.bind_eq_ok.2 ⟨[], _, rfl, hend _⟩
  | some a =>
    refine Reader.bind_eq_ok.2 ⟨some (.sign "("), _, rfl, ?_⟩
    exact Reader.bind_eq_ok.2 ⟨_, _, args_literal n fault hdepth a (⟨.emitEnd, 1⟩ :: rest), hend _⟩

end

/-- **An expression of a phrase is read as it is meant.** -/
theorem expr_interpolation (n : Nat) (fault : Option (Cause × Nat)) (i : Interpolation) (rest : List Lexeme) :
    expr (n + 37) (inFirstLine fault 0 (⟨.text i.subject.text, 1⟩ :: (i.application ++ rest))) =
      .ok (i.expr, inFirstLine fault 0 (⟨.emitEnd, 1⟩ :: rest)) := by
  have hoperand : operand (n + 22) .power
      (inFirstLine fault 1 (⟨.text i.subject.text, 1⟩ :: (i.application ++ rest))) =
        .ok (i.expr, inFirstLine fault 1 (⟨.emitEnd, 1⟩ :: rest)) := by
    rw [operand]
    refine Reader.bind_eq_ok.2 ⟨_, _, signed_literal (n + 19) fault (by decide) i.subject rfl, ?_⟩
    refine Reader.bind_eq_ok.2 ⟨i.subject.expr, inFirstLine fault 1 (i.application ++ rest), rfl, ?_⟩
    exact applications_interpolation n fault (by decide) i rest
  have hended : AtEnd (inFirstLine fault 1 (⟨.emitEnd, 1⟩ :: rest)) := ⟨1, rest, rfl⟩
  exact expr_eq (n + 19) (show 0 < deepest by decide) hoperand (skip_eq_false rfl rfl) hended.ended

/-! ## Reading that comes to a fault -/

section
variable {n : Nat} {c : Cursor} {e : Cause × Nat}

theorem binary_error {level : Level} (h : operand n level c = .error e) : binary (n + 1) level c = .error e := by
  rw [binary]
  exact Reader.bind_eq_error h

/-- A fault in an operand of the tightest level is one of the negation around it. -/
theorem negation_error (h : operand n .power c = .error e) (hc : skip (isKeyword "not") c = .ok (false, c)) :
    negation (n + 10) c = .error e := by
  have hproduct := binary_error (by rw [operand]; exact binary_error h : operand (n + 2) .product c = .error e)
  have hjoin := binary_error (by rw [operand]; exact hproduct : operand (n + 4) .join c = .error e)
  have hsum := binary_error (by rw [operand]; exact hjoin : operand (n + 6) .sum c = .error e)
  rw [negation]
  exact (Reader.bind_ok hc).trans (binary_error (by rw [operand]; exact hsum))

theorem expr_error (hdepth : c.depth < deepest) (h : negation n { c with depth := c.depth + 1 } = .error e) :
    expr (n + 5) c = .error e := by
  have hand := binary_error (by rw [operand]; exact h : operand (n + 1) .and { c with depth := c.depth + 1 } = .error e)
  have hor := binary_error (by rw [operand]; exact hand : operand (n + 3) .or { c with depth := c.depth + 1 } = .error e)
  rw [expr]
  show (if c.depth + 1 > deepest then _ else _ : Reader Expr) { c with depth := c.depth + 1 } = _
  rw [if_neg (Nat.not_lt.2 hdepth)]
  exact Reader.bind_eq_error (Reader.bind_eq_error hor)

end

/-- Where the tokens end in front of an argument, the fault that ended them is that of the call. -/
theorem applications_broken (n : Nat) (e : Expr) (filter : String) (depth : Nat) (broken : Cause × Nat) :
    applications (n + 3) e (inFirstLine (some broken) depth [⟨.sign "|", 1⟩, ⟨.name filter, 1⟩, ⟨.sign "(", 1⟩]) =
      .error broken := by
  have harguments : arguments (n + 1) false [] (inFirstLine (some broken) depth []) = .error broken := by
    rw [arguments]
    exact Reader.bind_eq_error rfl
  have hargs : args (n + 2) (inFirstLine (some broken) depth [⟨.sign "(", 1⟩]) = .error broken := by
    rw [args]
    exact (Reader.bind_ok rfl).trans harguments
  rw [applications]
  refine (Reader.bind_ok (a := some (.sign "|")) rfl).trans ?_
  refine (Reader.bind_ok (a := some (.sign "|")) rfl).trans ?_
  refine (Reader.bind_ok (a := filter) rfl).trans ?_
  refine (Reader.bind_ok (a := some (.sign "(")) rfl).trans ?_
  exact Reader.bind_eq_error hargs

/-- **Where the tokens end in front of a double quote, the expression is not read.** -/
theorem expr_broken (n : Nat) (i : Interpolation) (broken : Cause × Nat) :
    expr (n + 20) (inFirstLine (some broken) 0 i.begun.tail) = .error broken := by
  unfold Interpolation.begun
  rw [List.tail_cons]
  split
  · have hnegation : negation (n + 15) (inFirstLine (some broken) 1 []) = .error broken := by
      rw [negation]
      exact Reader.bind_eq_error rfl
    exact expr_error (show 0 < deepest by decide) hnegation
  · have hoperand : operand (n + 5) .power (inFirstLine (some broken) 1
        [⟨.text i.subject.text, 1⟩, ⟨.sign "|", 1⟩, ⟨.name i.filter, 1⟩, ⟨.sign "(", 1⟩]) = .error broken := by
      rw [operand]
      refine (Reader.bind_ok (signed_literal (n + 2) (some broken) (by decide) i.subject rfl)).trans ?_
      refine (Reader.bind_ok (a := i.subject.expr) rfl).trans ?_
      exact applications_broken (n + 1) i.subject.expr i.filter 1 broken
    exact expr_error (show 0 < deepest by decide) (negation_error hoperand (skip_eq_false rfl rfl))

/-! ## Statements -/

def textStmts (text : List Char) : List Stmt := if text.isEmpty then [] else [.plain (String.ofList text)]

def partStmts (parts : List (List Char × Interpolation)) : List Stmt :=
  parts.flatMap fun part => textStmts part.1 ++ [.emit 1 part.2.expr]

section
variable (fault : Option (Cause × Nat)) (done : List Stmt)

theorem body_text (n : Nat) (text : List Char) (rest : List Lexeme) :
    body (n + (textStmts text).length) [] done (inFirstLine fault 0 (textLexemes text ++ rest)) =
      body n [] ((textStmts text).reverse ++ done) (inFirstLine fault 0 rest) := by
  cases text with
  | nil => rfl
  | cons c text =>
    show body (n + 1) [] done (inFirstLine fault 0 (⟨.plain (String.ofList (c :: text)), 1⟩ :: rest)) = _
    rw [body]
    rfl

theorem body_interpolation (n : Nat) (i : Interpolation) (rest : List Lexeme) :
    body (n + 38) [] done (inFirstLine fault 0 (i.lexemes ++ rest)) =
      body (n + 37) [] (.emit 1 i.expr :: done) (inFirstLine fault 0 rest) := by
  rw [body]
  refine (Reader.bind_ok (a := 1) rfl).trans ?_
  refine (Reader.bind_ok (a := some .emitStart) rfl).trans ?_
  exact (Reader.bind_ok (expr_interpolation n fault i rest)).trans (Reader.bind_ok rfl)

/-- **Texts with an expression behind each are read as statements that print them.** -/
theorem body_parts : ∀ (n : Nat) (done : List Stmt) (parts : List (List Char × Interpolation)) (rest : List Lexeme),
    body (n + 37 + (partStmts parts).length) [] done (inFirstLine fault 0 (partLexemes parts ++ rest)) =
      body (n + 37) [] ((partStmts parts).reverse ++ done) (inFirstLine fault 0 rest)
  | _, _, [], _ => rfl
  | n, done, (text, i) :: parts, rest => by
    have hfuel : n + 37 + (partStmts ((text, i) :: parts)).length =
        (n + (partStmts parts).length + 38) + (textStmts text).length := by
      simp [partStmts]
      omega
    have hlexemes : partLexemes ((text, i) :: parts) ++ rest =
        textLexemes text ++ (i.lexemes ++ (partLexemes parts ++ rest)) := by
      simp [partLexemes]
    have hdone : (partStmts parts).reverse ++ (.emit 1 i.expr :: ((textStmts text).reverse ++ done)) =
        (partStmts ((text, i) :: parts)).reverse ++ done := by
      simp [partStmts]
    rw [hfuel, hlexemes, body_text, body_interpolation, Nat.add_right_comm, body_parts, hdone]

end

namespace Phrase

def stmts (p : Phrase) : List Stmt := partStmts p.parts ++ textStmts p.last

theorem ofText_source {p : Phrase} (h : p.Quiet) :
    Lexemes.ofText (String.ofList p.source) = ⟨partLexemes p.parts ++ textLexemes p.last, none⟩ := by
  unfold Lexemes.ofText source
  rw [String.toList_ofList, scan_parts h.texts, scan_last h.last.1]
  rfl

theorem length_textStmts (text : List Char) : (textStmts text).length = (textLexemes text).length := by
  unfold textStmts textLexemes
  split <;> rfl

/-- There is a token for every statement. -/
theorem length_partStmts_le (parts : List (List Char × Interpolation)) :
    (partStmts parts).length ≤ (partLexemes parts).length := by
  induction parts with
  | nil => exact Nat.le_refl 0
  | cons part parts ih =>
    have hlexemes : 1 ≤ part.2.lexemes.length := Nat.succ_le_succ (Nat.zero_le _)
    simp only [partStmts, partLexemes, List.flatMap_cons, List.length_append, length_textStmts, List.length_singleton]
      at ih ⊢
    omega

/-- With the calls that `read` has in hand, parts and a text are read, and what is behind them with enough calls for an
expression. -/
theorem body_front (fault : Option (Cause × Nat)) (parts : List (List Char × Interpolation)) (text : List Char)
    (rest : List Lexeme) : ∃ n,
      body (32 * ((partLexemes parts ++ (textLexemes text ++ rest)).length + 2)) [] []
          (inFirstLine fault 0 (partLexemes parts ++ (textLexemes text ++ rest))) =
        body (n + 37) [] ((textStmts text).reverse ++ (partStmts parts).reverse) (inFirstLine fault 0 rest) := by
  have hlength : (partLexemes parts ++ (textLexemes text ++ rest)).length =
      (partLexemes parts).length + (textStmts text).length + rest.length := by
    rw [List.length_append, List.length_append, length_textStmts, Nat.add_assoc]
  have hparts := length_partStmts_le parts
  have hle : (textStmts text).length + 37 + (partStmts parts).length ≤
      32 * ((partLexemes parts ++ (textLexemes text ++ rest)).length + 2) := by omega
  obtain ⟨n, hn⟩ := Nat.exists_eq_add_of_le' hle
  rw [← Nat.add_assoc, ← Nat.add_assoc] at hn
  refine ⟨n, ?_⟩
  rw [hn, body_parts, List.append_nil, Nat.add_right_comm, body_text]

/-- **A phrase is read as statements that print its pieces.** -/
theorem read_source {p : Phrase} (h : p.Quiet) (page : String) :
    read page (String.ofList p.source) = .ok ⟨page, p.stmts, []⟩ := by
  obtain ⟨n, hfront⟩ := body_front none p.parts p.last []
  have hend : body (n + 37) [] ((textStmts p.last).reverse ++ (partStmts p.parts).reverse) (inFirstLine none 0 []) =
      .ok (p.stmts, inFirstLine none 0 []) := by
    have hstmts : p.stmts = ((textStmts p.last).reverse ++ (partStmts p.parts).reverse).reverse := by simp [stmts]
    rw [hstmts]
    exact body_step.2 (.finished rfl rfl)
  rw [List.append_nil, hend] at hfront
  exact Layout.read_eq_ok (ofText_source h) rfl hfront rfl

/-- Up to its first double quote a phrase consists of whole parts, a text, and the beginning of an expression. -/
theorem exists_begun : ∀ {parts : List (List Char × Interpolation)}, (∀ part ∈ parts, Template.Quiet part.1) →
    '"' ∈ spell Interpolation.source parts → ∃ before text i after, parts = before ++ (text, i) :: after ∧
      ∀ cs, (spell Interpolation.source parts ++ cs).takeWhile (· != '"') =
        spell Interpolation.source before ++ (text ++ i.front)
  | [], _, hmem => nomatch hmem
  | (text, i) :: parts, h, hmem => by
    have htext : ∀ c ∈ text, (c != '"') = true := fun c hc => bne_iff_ne.2 fun heq =>
      (h (text, i) List.mem_cons_self).2.2 (heq ▸ hc)
    have hsource : ∀ cs, spell Interpolation.source ((text, i) :: parts) ++ cs =
        text ++ (i.source ++ (spell Interpolation.source parts ++ cs)) := fun cs => by simp [spell]
    by_cases hi : '"' ∈ i.source
    · obtain ⟨back, hback, hfront⟩ := Interpolation.front_of_mem hi
      refine ⟨[], text, i, parts, rfl, fun cs => ?_⟩
      rw [hsource, List.takeWhile_append_of_pos htext, hback, List.append_assoc, List.takeWhile_append_of_pos hfront,
        List.cons_append, List.takeWhile_cons_of_neg (by simp), List.append_nil]
      rfl
    · have hparts : '"' ∈ spell Interpolation.source parts := by
        have hall := hsource []
        rw [List.append_nil, List.append_nil] at hall
        rw [hall, List.mem_append, List.mem_append] at hmem
        exact (hmem.resolve_left (h (text, i) List.mem_cons_self).2.2).resolve_left hi
      obtain ⟨before, text', i', after, rfl, htake⟩ :=
        exists_begun (fun part hpart => h part (List.mem_cons_of_mem _ hpart)) hparts
      have hwhole : ∀ c ∈ i.source, (c != '"') = true := fun c hc => bne_iff_ne.2 fun heq => hi (heq ▸ hc)
      refine ⟨(text, i) :: before, text', i', after, rfl, fun cs => ?_⟩
      rw [hsource, List.takeWhile_append_of_pos htext, List.takeWhile_append_of_pos hwhole, htake]
      simp [spell]

/-- **A phrase that goes on with a character reference in the place of a quote is no template.** -/
theorem read_broken {p : Phrase} (h : p.Quiet) (hquote : '"' ∈ p.source) (page : String) (rest : List Char) :
    read page (String.ofList (p.source.takeWhile (· != '"') ++ '&' :: rest)) =
      .error ⟨.unexpected "character" none, some ⟨page, 1⟩⟩ := by
  let broken : Cause × Nat := (.unexpected "character" none, 1)
  have hparts : '"' ∈ spell Interpolation.source p.parts := (List.mem_append.1 hquote).resolve_right h.last.2
  obtain ⟨before, text, i, after, hp, htake⟩ := exists_begun h.texts hparts
  have htexts := h.texts
  rw [hp] at htexts
  have hbefore : ∀ part ∈ before, Template.Quiet part.1 := fun part hpart => htexts part (List.mem_append_left _ hpart)
  have htext : Template.Quiet text := htexts (text, i) (List.mem_append_right _ List.mem_cons_self)
  have hitems : Lexemes.ofText (String.ofList (p.source.takeWhile (· != '"') ++ '&' :: rest)) =
      ⟨partLexemes before ++ (textLexemes text ++ i.begun), some broken⟩ := by
    have hfront : i.front ++ '&' :: rest = '{' :: '{' :: ' ' :: (i.front.drop 3 ++ '&' :: rest) := rfl
    unfold Lexemes.ofText source
    rw [String.toList_ofList, htake, List.append_assoc, List.append_assoc, scan_parts hbefore, hfront, scan_text htext,
      ← hfront, i.scan_front]
    rfl
  obtain ⟨n, hfront⟩ := body_front (some broken) before text i.begun
  have hend : body (n + 37) [] ((textStmts text).reverse ++ (partStmts before).reverse)
      (inFirstLine (some broken) 0 i.begun) = .error broken := by
    rw [body]
    refine (Reader.bind_ok (a := 1) rfl).trans ?_
    refine (Reader.bind_ok (a := some .emitStart) rfl).trans ?_
    exact Reader.bind_eq_error (expr_broken (n + 16) i broken)
  rw [hend] at hfront
  unfold read
  rw [hitems]
  dsimp only
  rw [hfront]

end Phrase

/-! ## Printing -/

/-- Statements print a text and do nothing else. -/
def Prints (run : Runner) (here : Here) (ss : List Stmt) (text : String) : Prop :=
  ∀ r : Run, r.sink.discarding = false → ∃ sink, Stmt.execAll run here ss r = .ok () { r with sink := sink } ∧
    sink.discarding = false ∧ sink.text = r.sink.text ++ text

namespace Prints

variable {run : Runner} {here : Here} {ss : List Stmt} {text text' : String}

theorem nil : Prints run here [] "" := fun r hr => by
  refine ⟨r.sink, ?_, hr, String.append_empty.symm⟩
  rw [Stmt.execAll]
  rfl

theorem cons {s : Stmt} (hs : ∀ r, s.exec run here r = .ok () { r with sink := r.sink.print text })
    (h : Prints run here ss text') : Prints run here (s :: ss) (text ++ text') := fun r hr => by
  have hprint : r.sink.print text = { r.sink with pieces := text :: r.sink.pieces } := by
    unfold Sink.print
    rw [if_neg (by rw [hr]; exact Bool.false_ne_true)]
  obtain ⟨sink, hexec, hsink, htext⟩ := h { r with sink := r.sink.print text } (by rw [hprint]; exact hr)
  refine ⟨sink, ?_, hsink, ?_⟩
  · rw [Stmt.execAll]
    exact Eval.bind_eq_ok.2 ⟨(), _, hs r, hexec⟩
  · have hjoin : (r.sink.print text).text = r.sink.text ++ text := by
      rw [hprint]
      simp [Sink.text, String.join_append]
    rw [htext, hjoin, String.append_assoc]

end Prints

/-- The filter of an expression comes to a value, and does nothing else. -/
def Answers (env : Environment) (i : Interpolation) (w : Value) : Prop :=
  ∀ (run : Runner) (here : Here) (r : Run), here.env = env →
    applyFilter run here 1 i.filter (.plain i.subject.text) ⟨i.args, []⟩ r = .ok w r

/-- So does a filter of the caller that does not fail. -/
theorem Answers.of_custom {env : Environment} {i : Interpolation} {f : Callable} {w : Value}
    (hf : Table.get? env.filters i.filter = some (.custom f)) (hw : f (.plain i.subject.text :: i.args) = .ok w) :
    Answers env i w := by
  rintro run here r rfl
  have hflat : (⟨i.args, []⟩ : Arguments).flat = i.args := rfl
  rw [applyFilter_of_get? hf, hflat, callFilter, hw]
  rfl

/-- What a value is printed as. -/
def Here.shown (here : Here) (v : Value) : String := if here.escaping then v.escaped else v.display

section
variable {here : Here} {i : Interpolation} {w : Value} (h : Answers here.env i w) (run : Runner)
include h

theorem eval_interpolation (r : Run) : i.expr.eval run here r = .ok w r := by
  have hliteral : ∀ l : Literal, l.expr.eval run here r = .ok (.plain l.text) r := fun l => by
    rw [Literal.expr, Expr.eval]
    rfl
  have hargs : Arg.evalAll run here ⟨[], []⟩ (i.argument.toList.map fun a => .positional a.expr) r = .ok ⟨i.args, []⟩ r := by
    unfold Interpolation.args
    cases i.argument with
    | none =>
      rw [Option.toList_none, List.map_nil, Arg.evalAll]
      rfl
    | some a =>
      rw [Option.toList_some, List.map_singleton, Arg.evalAll]
      refine Eval.bind_eq_ok.2 ⟨.plain a.text, r, hliteral a, ?_⟩
      rw [Arg.evalAll]
      rfl
  rw [Interpolation.expr, Expr.eval]
  exact Eval.bind_eq_ok.2 ⟨_, r, hliteral i.subject, Eval.bind_eq_ok.2 ⟨⟨i.args, []⟩, r, hargs, h run here r rfl⟩⟩

theorem exec_interpolation (r : Run) :
    (Stmt.emit 1 i.expr).exec run here r = .ok () { r with sink := r.sink.print (here.shown w) } := by
  rw [Stmt.exec]
  exact Eval.bind_eq_ok.2 ⟨w, r, eval_interpolation h run r, rfl⟩

end

theorem prints_text (run : Runner) (here : Here) (text : List Char) {ss : List Stmt} {more : String}
    (h : Prints run here ss more) : Prints run here (textStmts text ++ ss) (String.ofList text ++ more) := by
  cases text with
  | nil =>
    have hempty : String.ofList [] ++ more = more := String.empty_append
    rw [hempty]
    exact h
  | cons c text =>
    refine .cons (fun r => ?_) h
    rw [Stmt.exec]
    rfl

/-- Texts with an expression behind each print the texts and what the expressions come to. -/
theorem prints_parts (run : Runner) {here : Here} {value : Interpolation → Value} {ss : List Stmt} {more : String}
    (hmore : Prints run here ss more) : ∀ {parts : List (List Char × Interpolation)},
    (∀ part ∈ parts, Answers here.env part.2 (value part.2)) →
      Prints run here (partStmts parts ++ ss)
        (String.ofList (spell (fun i => (here.shown (value i)).toList) parts) ++ more)
  | [], _ => by
    have hempty : String.ofList [] ++ more = more := String.empty_append
    exact (congrArg (Prints run here ss) hempty).mpr hmore
  | (text, i) :: parts, h => by
    have hparts := prints_parts run hmore fun part hpart => h part (List.mem_cons_of_mem _ hpart)
    have hi := h (text, i) List.mem_cons_self
    have hall := prints_text run here text (.cons (exec_interpolation hi run) hparts)
    have hstmts : partStmts ((text, i) :: parts) ++ ss = textStmts text ++ (.emit 1 i.expr :: (partStmts parts ++ ss)) := by
      simp [partStmts]
    have htext : String.ofList (spell (fun i => (here.shown (value i)).toList) ((text, i) :: parts)) ++ more =
        String.ofList text ++ (here.shown (value i) ++
          (String.ofList (spell (fun i => (here.shown (value i)).toList) parts) ++ more)) := by
      apply String.toList_injective
      simp [spell]
    rw [hstmts, htext]
    exact hall

theorem Phrase.prints_stmts (run : Runner) (here : Here) {value : Interpolation → Value} {p : Phrase}
    (h : ∀ i ∈ p.interpolations, Answers here.env i (value i)) :
    Prints run here p.stmts (p.output fun i => here.shown (value i)) := by
  have hlast := prints_text run here p.last .nil
  rw [List.append_nil] at hlast
  have hall := prints_parts run hlast fun part hpart => h part.2 (List.mem_map_of_mem hpart)
  have htext : String.ofList (spell (fun i => (here.shown (value i)).toList) p.parts) ++ (String.ofList p.last ++ "") =
      p.output fun i => here.shown (value i) := by
    apply String.toList_injective
    simp [output]
  rw [htext] at hall
  exact hall

/-- **A phrase prints its texts and what its expressions come to**, and the session is left as it was. -/
theorem renderNamed_phrase {evaluate : Evaluator} {env : Environment} {file : Evaluator} {n : Nat}
    (hevaluate : ∀ here body, here.env = env → evaluate here body = Runner.within file (n + 1) here body)
    {p : Phrase} (hp : p.Quiet) {value : Interpolation → Value}
    (hvalue : ∀ i ∈ p.interpolations, Answers env i (value i)) (name : String) (context : Fields)
    (session : Session RenderStack) :
    renderNamed evaluate env name (String.ofList p.source) context session =
      (.ok (p.output fun i => Here.shown ⟨env, name, env.escapes name, none⟩ (value i)), session) := by
  let here : Here := ⟨env, name, env.escapes name, none⟩
  let r : Run := .start ⟨name, p.stmts, []⟩ context session
  obtain ⟨sink, hexec, -, htext⟩ := p.prints_stmts (.within file n) here hvalue r rfl
  have hrun : evaluate here p.stmts r = .ok () { r with sink := sink } := by
    rw [hevaluate here p.stmts rfl, Runner.within_succ]
    refine Eval.bind_eq_ok.2 ⟨r, r, rfl, Eval.bind_eq_ok.2 ⟨(), r, rfl, Eval.bind_eq_ok.2 ⟨(), _, hexec, ?_⟩⟩⟩
    exact Eval.bind_eq_ok.2 ⟨_, _, rfl, rfl⟩
  have hprinted : sink.text = p.output fun i => here.shown (value i) := htext.trans String.empty_append
  unfold renderNamed
  rw [p.read_source hp]
  dsimp only
  rw [hrun]
  dsimp only
  rw [hprinted]
  rfl

end Folio.Template
