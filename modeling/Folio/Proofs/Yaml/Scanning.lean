import Folio.Yaml.Scan
/-!
# Scanning entries line by line

A mapping can be written with an entry on each line: a key, a colon, and a text between double quotes.  The scanner takes
three steps for such a line, one for the key (`run_key`), one for the colon that makes a key of it (`run_colon`) and one for
the text (`run_quoted`).  Behind each line it is as it was in front of it, but for the tokens (`run_line`), so the tokens of
all lines are those of each line in turn (`tokens_lines`).
-/
namespace Folio.Yaml

/-! ## Characters -/

/-- A character that goes on a plain scalar. -/
structure IsPlain (c : Char) : Prop where
  permitted : isPermitted c = true
  isSpace : isSpace c = false
  isBreak : isBreak c = false
  ne_colon : c ≠ ':'

/-- A character that stands for itself between double quotes. -/
structure IsQuotable (c : Char) : Prop where
  permitted : isPermitted c = true
  isBreak : isBreak c = false
  ne_quote : c ≠ '"'
  ne_escape : c ≠ '\\'

theorem ne_return_of_not_isBreak {c : Char} (h : isBreak c = false) : c ≠ '\r' := by
  rintro rfl
  cases h

theorem ne_of_kind {kind : Char → Bool} {c d : Char} (hc : kind c = true) (hd : kind d = false) : c ≠ d := by
  rintro rfl
  rw [hc] at hd
  cases hd

/-! ## Scalars -/

@[simp] theorem Mark.next_skip (m : Mark) (n : Nat) : m.next.skip n = m.skip (n + 1) := by
  simp [skip, next, Nat.add_comm, Nat.add_left_comm]

@[simp] theorem Mark.skip_skip (m : Mark) (n k : Nat) : (m.skip n).skip k = m.skip (n + k) := by
  simp [skip, Nat.add_assoc]

theorem plain_cons (indent : Int) (start : Mark) {c : Char} (hc : IsPlain c) (done cs : List Char) (m : Mark) :
    plain false indent start .none done m m (c :: cs) = plain false indent start .none (c :: done) m.next m.next cs := by
  rw [plain]
  · simp [hc.isSpace, hc.isBreak, hc.ne_colon, Gap.isEmpty, Gap.none, endsPlain, Gap.text]
  · exact fun _ hreturn => absurd hreturn (ne_return_of_not_isBreak hc.isBreak)

/-- A plain scalar ends at a colon in front of a blank. -/
theorem plain_word (indent : Int) (start : Mark) {rest : List Char} (hrest : blankOrEnd rest = true) :
    ∀ (word done : List Char) (m : Mark), (∀ c ∈ word, IsPlain c) →
      plain false indent start .none done m m (word ++ ':' :: rest) =
        .ok (⟨String.ofList (done.reverse ++ word), m.skip word.length, false⟩, ⟨m.skip word.length, ':' :: rest⟩)
  | [], done, m, _ => by
    rw [List.nil_append, plain]
    · simp [isSpace, isBreak, Gap.isEmpty, Gap.none, endsPlain, hrest, Mark.skip]
    · exact fun _ hreturn => absurd hreturn (by decide)
  | c :: word, done, m, h => by
    rw [List.cons_append, plain_cons indent start (h c List.mem_cons_self),
      plain_word indent start hrest word (c :: done) m.next fun d hd => h d (List.mem_cons_of_mem _ hd)]
    simp

theorem quoted_cons (start : Mark) {c : Char} (hc : IsQuotable c) (blanks done cs : List Char) {m : Mark}
    (hm : m.column ≠ 0) :
    quoted false start ⟨false, blanks, [], []⟩ done m (c :: cs) =
      if isSpace c then quoted false start ⟨false, blanks ++ [c], [], []⟩ done m.next cs
      else quoted false start .none (c :: (blanks.reverse ++ done)) m.next cs := by
  have hindicator : atDocumentIndicator m (c :: cs) = false := by simp [atDocumentIndicator, hm]
  rw [quoted]
  · simp [hc.isBreak, hindicator, hc.ne_quote, hc.ne_escape, Gap.text, Gap.addBlank]
  · exact fun _ hreturn => absurd hreturn (ne_return_of_not_isBreak hc.isBreak)

/-- Blanks are kept, whatever stands around them, and away from the first column nothing ends a document. -/
theorem quoted_text (start : Mark) (rest : List Char) :
    ∀ (text blanks done : List Char) (m : Mark), (∀ c ∈ text, IsQuotable c) → m.column ≠ 0 →
      quoted false start ⟨false, blanks, [], []⟩ done m (text ++ '"' :: rest) =
        .ok (String.ofList (done.reverse ++ blanks ++ text), ⟨m.skip (text.length + 1), rest⟩)
  | [], blanks, done, m, _, _ => by
    rw [List.nil_append, quoted]
    · simp [isSpace, isBreak, atDocumentIndicator, Gap.text, Mark.skip, Mark.next]
    · exact fun _ hreturn => absurd hreturn (by decide)
  | c :: text, blanks, done, m, h, hm => by
    have ih := fun blanks done => quoted_text start rest text blanks done m.next
      (fun d hd => h d (List.mem_cons_of_mem _ hd)) (Nat.succ_ne_zero _)
    rw [List.cons_append, quoted_cons start (h c List.mem_cons_self) blanks done _ hm]
    split
    · rw [ih]
      simp
    · rw [Gap.none, ih]
      simp

namespace Scanner

/-! ## Up to the next token -/

/-- Nothing is skipped in front of such characters: a token starts there, or the text ends. -/
def IsNext (cs : List Char) : Prop := ∀ c ∈ cs.head?, c ∉ ['\ufeff', ' ', '\t', '#'] ∧ isBreak c = false

theorem isNext_cons {c : Char} (h : c ∉ ['\ufeff', ' ', '\t', '#'] ∧ isBreak c = false) (cs : List Char) :
    IsNext (c :: cs) := by
  intro d hd
  rwa [← Option.some.inj hd]

theorem isNext_letter {c : Char} (hc : c.isAlpha = true) (cs : List Char) : IsNext (c :: cs) := by
  have hne (d : Char) : d.isAlpha = false → c ≠ d := ne_of_kind hc
  exact isNext_cons (by simp [isBreak, hne]) cs

theorem IsNext.breakLength {cs : List Char} (h : IsNext cs) : breakLength cs = 0 := by
  cases cs with
  | nil => rfl
  | cons c cs =>
    obtain ⟨-, hbreak⟩ := h c rfl
    rw [Yaml.breakLength]
    · exact if_neg (by simp [hbreak])
    · exact fun _ hreturn _ => absurd hreturn (ne_return_of_not_isBreak hbreak)

theorem toNextToken_of_isNext {s : Scanner} (h : IsNext s.cursor.rest) (fuel : Nat) : s.toNextToken (fuel + 1) = s := by
  obtain ⟨⟨m, cs⟩, done, indent, indents, keys, keyAllowed⟩ := s
  have hlength : Yaml.breakLength cs = 0 := h.breakLength
  cases cs with
  | nil => simp [toNextToken, Cursor.skipWhile, Cursor.skip, Mark.skip, hlength]
  | cons c cs =>
    obtain ⟨hc, -⟩ := h c rfl
    simp only [List.mem_cons, List.not_mem_nil, or_false, not_or] at hc
    simp [toNextToken, Cursor.skipWhile, Cursor.skip, Mark.skip, hc, hlength]

theorem toNextToken_space {s : Scanner} {cs : List Char} (hs : s.cursor.rest = ' ' :: cs) (h : IsNext cs) (fuel : Nat) :
    s.toNextToken (fuel + 1) = { s with cursor := ⟨s.mark.next, cs⟩ } := by
  obtain ⟨⟨m, rest⟩, done, indent, indents, keys, keyAllowed⟩ := s
  obtain rfl : rest = ' ' :: cs := hs
  have hlength := h.breakLength
  cases cs with
  | nil => simp [toNextToken, Cursor.skipWhile, Cursor.skip, Mark.skip, Mark.next, hlength, mark]
  | cons c cs =>
    obtain ⟨hc, -⟩ := h c rfl
    simp only [List.mem_cons, List.not_mem_nil, or_false, not_or] at hc
    simp [toNextToken, Cursor.skipWhile, Cursor.skip, Mark.skip, Mark.next, hc, hlength, mark]

/-- On a new line a key is allowed again. -/
theorem toNextToken_newline {s : Scanner} {cs : List Char} (hs : s.cursor.rest = '\n' :: cs) (hflow : s.inFlow = false)
    (h : IsNext cs) (fuel : Nat) :
    s.toNextToken (fuel + 2) = { s with cursor := ⟨s.mark.newline 1, cs⟩, keyAllowed := true } := by
  obtain ⟨⟨m, rest⟩, done, indent, indents, keys, keyAllowed⟩ := s
  obtain rfl : rest = '\n' :: cs := hs
  rw [toNextToken]
  simpa [Cursor.skipWhile, Cursor.skip, Cursor.skipBreak, Mark.skip, Mark.newline, hflow, mark, Yaml.breakLength, isBreak]
    using toNextToken_of_isNext h fuel

theorem dropStaleKeys_of_fresh {s : Scanner} {key : Option PossibleKey} (hs : s.keys = [key])
    (h : ∀ k ∈ key, k.mark.line = s.mark.line ∧ s.mark.index ≤ k.mark.index + 1024) : s.dropStaleKeys = .ok s := by
  have hsame : { s with keys := [key] } = s := by rw [← hs]
  unfold dropStaleKeys
  rw [hs]
  cases key with
  | none => exact congrArg _ hsame
  | some k =>
    obtain ⟨hline, hindex⟩ := h k rfl
    have hfresh : (k.mark.line < s.mark.line || k.mark.index + 1024 < s.mark.index) = false := by
      rw [Bool.or_eq_false_iff, decide_eq_false_iff_not, decide_eq_false_iff_not, Nat.not_lt, Nat.not_lt]
      exact ⟨Nat.le_of_eq hline.symm, hindex⟩
    simp only [List.mapM_cons, List.mapM_nil, hfresh]
    exact congrArg _ hsame

theorem closeBlocks_of_le {s : Scanner} {column : Int} (h : s.indent ≤ column) : s.closeBlocks column = s := by
  unfold closeBlocks
  split
  · rfl
  · cases s.indents with
    | nil => rfl
    | cons outer rest => rw [closeBlocks.go, if_neg (Int.not_lt.2 h)]

/-- A step that takes a token and ends no collection. -/
theorem run_token {s s' t : Scanner} {c : Char} {cs : List Char} (hnext : s.toNextToken (s.cursor.rest.length + 1) = s')
    (hrest : s'.cursor.rest = c :: cs) (hkeys : s'.dropStaleKeys = .ok s') (hindent : s'.indent ≤ s'.mark.column)
    (htoken : s'.token c cs = .ok t) (fuel : Nat) : s.run (fuel + 1) = t.run fuel := by
  rw [run]
  simp only [hnext, hkeys, closeBlocks_of_le hindent]
  rw [hrest]
  simp only [htoken]

theorem run_finish {s s' t : Scanner} (hnext : s.toNextToken (s.cursor.rest.length + 1) = s')
    (hrest : s'.cursor.rest = []) (hkeys : s'.dropStaleKeys = .ok s') (hindent : s'.indent ≤ s'.mark.column)
    (hfinish : s'.finish = .ok t) (fuel : Nat) : s.run (fuel + 1) = (t.done.reverse, none) := by
  rw [run]
  simp only [hnext, hkeys, closeBlocks_of_le hindent]
  rw [hrest]
  simp only [hfinish]

/-! ## Tokens -/

theorem token_letter (s : Scanner) {c : Char} (hc : c.isAlpha = true) (cs : List Char) :
    s.token c cs = s.plainScalar := by
  have hne (d : Char) : d.isAlpha = false → c ≠ d := ne_of_kind hc
  simp [token, atDocumentIndicator, hne, isSpace]

theorem plainScalar_of_ok {s t : Scanner} {p : Plain} {c : Cursor} (hsave : s.saveKey = .ok t)
    (hread : plain t.inFlow (t.indent + 1) t.mark .none [] t.mark t.mark t.cursor.rest = .ok (p, c)) :
    s.plainScalar = .ok { t.emit (.scalar p.text true) t.mark p.stop with cursor := c, keyAllowed := p.newLine } := by
  have hplain : plain { t with keyAllowed := false }.inFlow (t.indent + 1) { t with keyAllowed := false }.mark .none []
      { t with keyAllowed := false }.mark { t with keyAllowed := false }.mark t.cursor.rest = .ok (p, c) := hread
  simp only [plainScalar, hsave, Bind.bind, Except.bind, hplain]
  rfl

theorem token_colon (s : Scanner) {cs : List Char} (h : blankOrEnd cs = true) : s.token ':' cs = s.valueIndicator := by
  simp [token, atDocumentIndicator, h]

theorem piece_of_ok {α : Type} (s : Scanner) {r : Reading α} {a : α} {c : Cursor} (kind : α → Kind)
    (hr : r = .ok (a, c)) :
    s.piece r kind = .ok { s.emit (kind a) s.mark c.mark with cursor := c } := by
  rw [hr]
  rfl

/-- A text that starts where no key is allowed is not kept as one. -/
theorem token_quote {s : Scanner} {cs : List Char} {text : String} {c : Cursor} (hs : s.keyAllowed = false)
    (hread : quoted false s.mark .none [] s.mark.next cs = .ok (text, c)) :
    s.token '"' cs = .ok { s.emit (.scalar text false) s.mark c.mark with cursor := c } := by
  have hsave : s.saveKey = .ok s := by simp [saveKey, hs]
  have hsame : { s with keyAllowed := false } = s := by rw [← hs]
  simp only [token, atDocumentIndicator, hsave]
  rw [if_neg (by simp), if_neg (by simp)]
  show piece { s with keyAllowed := false } _ _ = _
  rw [hsame]
  exact piece_of_ok s _ hread

/-! ## The steps of a line -/

/-- The scanner outside of keys and flow collections, in front of a mapping at the first column or inside of it. -/
def between (opened : Bool) (done : List Token) (cursor : Cursor) (keyAllowed : Bool) : Scanner :=
  ⟨cursor, done, if opened then 0 else -1, if opened then [-1] else [], [none], keyAllowed⟩

/-- The scanner behind a plain scalar that may be a key. -/
def behindKey (opened : Bool) (done : List Token) (m : Mark) (key rest : List Char) : Scanner :=
  ⟨⟨m.skip key.length, rest⟩, ⟨.scalar (String.ofList key) true, m, m.skip key.length⟩ :: done,
    if opened then 0 else -1, if opened then [-1] else [], [some ⟨done.length, opened, m⟩], false⟩

/-- The first entry opens the mapping. -/
def opening (opened : Bool) (m : Mark) : List Token := if opened then [] else [⟨.blockMappingStart, m, m⟩]

section
variable {opened : Bool} {done : List Token} {m : Mark} {key value rest : List Char}

theorem saveKey_between (hm : m.column = 0) :
    (between opened done ⟨m, rest⟩ true).saveKey =
      .ok { between opened done ⟨m, rest⟩ true with keys := [some ⟨done.length, opened, m⟩] } := by
  cases opened <;> simp [saveKey, dropKey, between, inFlow, mark, hm] <;> rfl

theorem run_key {s : Scanner}
    (hs : s.toNextToken (s.cursor.rest.length + 1) = between opened done ⟨m, key ++ ':' :: rest⟩ true)
    (hm : m.column = 0) (hletter : ∃ c ∈ key.head?, c.isAlpha = true) (hkey : ∀ c ∈ key, IsPlain c)
    (hrest : blankOrEnd rest = true) (fuel : Nat) :
    s.run (fuel + 1) = (behindKey opened done m key (':' :: rest)).run fuel := by
  obtain ⟨c, hc, hletter⟩ := hletter
  obtain ⟨tail, rfl⟩ := List.head?_eq_some_iff.1 hc
  have hplain := plain_word ((if opened then 0 else -1) + 1) m hrest (c :: tail) [] m hkey
  refine run_token hs rfl (dropStaleKeys_of_fresh rfl (by simp)) ?_ ?_ fuel
  · cases opened <;> simp [between]
  · rw [token_letter _ hletter, plainScalar_of_ok (saveKey_between hm) hplain]
    rfl

theorem run_colon (hm : m.column = 0) (hrest : blankOrEnd rest = true) (hlength : key.length ≤ 1024) (fuel : Nat) :
    (behindKey opened done m key (':' :: rest)).run (fuel + 1) =
      (between true (⟨.value, m.skip key.length, m.skip (key.length + 1)⟩ ::
        ⟨.scalar (String.ofList key) true, m, m.skip key.length⟩ :: ⟨.key, m, m⟩ :: (opening opened m ++ done))
        ⟨m.skip (key.length + 1), rest⟩ false).run fuel := by
  refine run_token (toNextToken_of_isNext (isNext_cons (by decide) rest) _) rfl (dropStaleKeys_of_fresh rfl ?_) ?_ ?_ fuel
  · intro k hk
    obtain rfl : ⟨done.length, opened, m⟩ = k := Option.some.inj hk
    simp [behindKey, mark, Mark.skip, hlength]
  · have hindent : (behindKey opened done m key (':' :: rest)).indent ≤ 0 := by cases opened <;> simp [behindKey]
    exact Int.le_trans hindent (Int.natCast_nonneg _)
  · rw [token_colon _ hrest]
    -- the key goes in front of the scalar, and in front of the key the mapping starts unless it has been opened
    cases opened <;>
      simp [valueIndicator, behindKey, insertAt, openBlock, between, inFlow, hm, indicator, opening, emit, mark, Mark.skip,
        Cursor.skip, Nat.add_assoc]

theorem run_quoted (hvalue : ∀ c ∈ value, IsQuotable c) (fuel : Nat) :
    (between opened done ⟨m, ' ' :: '"' :: (value ++ '"' :: rest)⟩ false).run (fuel + 1) =
      (between opened (⟨.scalar (String.ofList value) false, m.skip 1, m.skip (value.length + 3)⟩ :: done)
        ⟨m.skip (value.length + 3), rest⟩ false).run fuel := by
  have hquote : IsNext ('"' :: (value ++ '"' :: rest)) := isNext_cons (by decide) _
  have hnext (fuel : Nat) :
      (between opened done ⟨m, ' ' :: '"' :: (value ++ '"' :: rest)⟩ false).toNextToken (fuel + 1) =
        between opened done ⟨m.next, '"' :: (value ++ '"' :: rest)⟩ false := toNextToken_space rfl hquote fuel
  have hquoted := quoted_text m.next rest value [] [] m.next.next hvalue (Nat.succ_ne_zero _)
  rw [Mark.next_skip, Mark.next_skip, List.reverse_nil, List.nil_append, List.nil_append] at hquoted
  refine run_token (hnext _) rfl (dropStaleKeys_of_fresh rfl (by simp)) ?_ ?_ fuel
  · cases opened <;> simp [between, mark, Mark.next]
    all_goals omega
  · exact token_quote (s := between opened done ⟨m.next, '"' :: (value ++ '"' :: rest)⟩ false) rfl hquoted

end

end Scanner

/-! ## Lines -/

/-- An entry that can be written on a line: its key is a word, and its text needs no escapes. -/
structure IsEntry (e : String × String) : Prop where
  letter : ∃ c ∈ e.1.toList.head?, c.isAlpha = true
  key : ∀ c ∈ e.1.toList, IsPlain c
  length : e.1.toList.length ≤ 1024
  text : ∀ c ∈ e.2.toList, IsQuotable c

def entryLine (e : String × String) : List Char := e.1.toList ++ ':' :: ' ' :: '"' :: (e.2.toList ++ ['"', '\n'])

/-- Where the line of an entry ends. -/
def entryStop (m : Mark) (e : String × String) : Mark := m.skip (e.1.toList.length + e.2.toList.length + 4)

def entryTokens (m : Mark) (e : String × String) : List Token :=
  [⟨.key, m, m⟩, ⟨.scalar e.1 true, m, m.skip e.1.toList.length⟩,
    ⟨.value, m.skip e.1.toList.length, m.skip (e.1.toList.length + 1)⟩,
    ⟨.scalar e.2 false, m.skip (e.1.toList.length + 2), entryStop m e⟩]

/-- The tokens of lines, up to those that end the mapping and the text. -/
def linesTokens : Mark → List (String × String) → List Token
  | m, [] => [⟨.blockEnd, m, m⟩, ⟨.streamEnd, m, m⟩]
  | m, e :: es => entryTokens m e ++ linesTokens ((entryStop m e).newline 1) es

namespace Scanner

theorem run_line {s : Scanner} {opened : Bool} {done : List Token} {m : Mark} {e : String × String} (he : IsEntry e)
    {rest : List Char}
    (hs : s.toNextToken (s.cursor.rest.length + 1) = between opened done ⟨m, entryLine e ++ rest⟩ true)
    (hm : m.column = 0) (fuel : Nat) :
    s.run (fuel + 3) =
      (between true ((entryTokens m e).reverse ++ opening opened m ++ done)
        ⟨entryStop m e, '\n' :: rest⟩ false).run fuel := by
  have hline : entryLine e ++ rest = e.1.toList ++ ':' :: ' ' :: '"' :: (e.2.toList ++ '"' :: '\n' :: rest) := by
    simp [entryLine]
  rw [hline] at hs
  rw [run_key hs hm he.letter he.key rfl, run_colon hm rfl he.length, run_quoted he.text]
  have hstop : (m.skip (e.1.toList.length + 1)).skip (e.2.toList.length + 3) = entryStop m e := by
    unfold entryStop
    rw [Mark.skip_skip]
    congr 1
    omega
  rw [hstop, Mark.skip_skip]
  simp [entryTokens]

/-- A line ends in front of another one, or in front of the end of the text. -/
theorem toNextToken_between (done : List Token) (m : Mark) {cs : List Char} (h : IsNext cs) :
    (between true done ⟨m, '\n' :: cs⟩ false).toNextToken
        ((between true done ⟨m, '\n' :: cs⟩ false).cursor.rest.length + 1) =
      between true done ⟨m.newline 1, cs⟩ true :=
  toNextToken_newline rfl rfl h cs.length

theorem run_end (done : List Token) (m : Mark) (fuel : Nat) :
    (between true done ⟨m, ['\n']⟩ false).run (fuel + 1) = (done.reverse ++ linesTokens (m.newline 1) [], none) := by
  have hfinish : (between true done ⟨m.newline 1, []⟩ true).finish = .ok
      ⟨⟨m.newline 1, []⟩, (linesTokens (m.newline 1) []).reverse ++ done, -1, [], [none], true⟩ := rfl
  rw [run_finish (toNextToken_between done m (by simp [IsNext])) rfl (dropStaleKeys_of_fresh rfl (by simp))
    (Int.le_refl _) hfinish]
  simp

theorem isNext_entryLine {e : String × String} (he : IsEntry e) (rest : List Char) : IsNext (entryLine e ++ rest) := by
  obtain ⟨c, hc, hletter⟩ := he.letter
  obtain ⟨tail, htail⟩ := List.head?_eq_some_iff.1 hc
  rw [entryLine, htail]
  exact isNext_letter hletter _

/-- Lines behind other lines, from the end of the last one on. -/
theorem run_lines : ∀ {es : List (String × String)} (_ : ∀ e ∈ es, IsEntry e) (done : List Token) (m : Mark)
    {fuel : Nat} (_ : 3 * es.length < fuel),
      (between true done ⟨m, '\n' :: es.flatMap entryLine⟩ false).run fuel =
        (done.reverse ++ linesTokens (m.newline 1) es, none)
  | [], _, done, m, fuel, h => by
    obtain ⟨fuel, rfl⟩ := Nat.exists_eq_add_one_of_ne_zero (Nat.ne_of_gt h)
    exact run_end done m fuel
  | e :: es, hes, done, m, fuel, h => by
    obtain ⟨fuel, rfl⟩ : ∃ n, fuel = n + 3 := ⟨fuel - 3, by simp at h; omega⟩
    have he : IsEntry e := hes e List.mem_cons_self
    rw [List.flatMap_cons, run_line he (toNextToken_between done m (isNext_entryLine he _)) rfl,
      run_lines (fun d hd => hes d (List.mem_cons_of_mem _ hd)) _ _ (by simp at h; omega)]
    simp [linesTokens, opening]

end Scanner

/-! ## The tokens of a text -/

theorem forbidden?_eq_none {cs : List Char} (h : ∀ c ∈ cs, isPermitted c = true) : ∀ n, forbidden? n cs = none := by
  induction cs with
  | nil => exact fun _ => rfl
  | cons c cs ih =>
    intro n
    rw [forbidden?, if_pos (h c List.mem_cons_self)]
    exact ih (fun d hd => h d (List.mem_cons_of_mem _ hd)) _

theorem IsEntry.permitted {e : String × String} (he : IsEntry e) : ∀ c ∈ entryLine e, isPermitted c = true := by
  intro c hc
  simp only [entryLine, List.mem_append, List.mem_cons, List.not_mem_nil, or_false] at hc
  rcases hc with hc | rfl | rfl | rfl | hc | rfl | rfl
  · exact (he.key c hc).permitted
  · decide
  · decide
  · decide
  · exact (he.text c hc).permitted
  · decide
  · decide

theorem length_lines (es : List (String × String)) : 3 * es.length ≤ (es.flatMap entryLine).length := by
  induction es with
  | nil => exact Nat.le_refl 0
  | cons e es ih =>
    have hline : 3 ≤ (entryLine e).length := by simp [entryLine]; omega
    rw [List.flatMap_cons, List.length_append, List.length_cons]
    omega

/-- **The tokens of entries** are those of their lines, in a mapping. -/
theorem tokens_lines {e : String × String} {es : List (String × String)} (h : ∀ d ∈ e :: es, IsEntry d) :
    tokens ((e :: es).flatMap entryLine) =
      (⟨.blockMappingStart, .origin, .origin⟩ :: linesTokens .origin (e :: es), none) := by
  have he : IsEntry e := h e List.mem_cons_self
  have hnext : Scanner.IsNext (entryLine e ++ es.flatMap entryLine) := Scanner.isNext_entryLine he _
  have hmark : (entryLine e ++ es.flatMap entryLine).head? ≠ some '\ufeff' := fun hc => by simpa using (hnext _ hc).1
  have hpermitted : ∀ c ∈ entryLine e ++ es.flatMap entryLine, isPermitted c = true := by
    rw [← List.flatMap_cons]
    intro c hc
    obtain ⟨d, hd, hc⟩ := List.mem_flatMap.1 hc
    exact (h d hd).permitted c hc
  have hlength := length_lines (e :: es)
  rw [List.flatMap_cons, List.length_cons] at hlength
  obtain ⟨fuel, hfuel⟩ : ∃ n, (entryLine e ++ es.flatMap entryLine).length + 2 = n + 3 :=
    ⟨(entryLine e ++ es.flatMap entryLine).length - 1, by omega⟩
  have hs (n : Nat) : (Scanner.start (entryLine e ++ es.flatMap entryLine)).toNextToken (n + 1) =
      Scanner.between false [] ⟨.origin, entryLine e ++ es.flatMap entryLine⟩ true :=
    Scanner.toNextToken_of_isNext hnext n
  rw [List.flatMap_cons, tokens, if_neg hmark, forbidden?_eq_none hpermitted, hfuel]
  dsimp only
  rw [Scanner.run_line he (hs _) rfl, Scanner.run_lines (fun d hd => h d (List.mem_cons_of_mem _ hd)) _ _ (by omega)]
  simp [linesTokens, Scanner.opening]

end Folio.Yaml
