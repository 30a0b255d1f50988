import Folio.Template.Token
/-!
# Scanning a source in front of a tag

A source is read in the same steps whether it ends or a tag follows it, as long as its last character does not run into
the tag's mark (`step_append`): every piece that a step can take is recognised by its own characters, and none of them
goes over an opening brace.  So the tokens of the source come first, and the tag is read from where they end
(`scan_append`).
-/
namespace Folio.Template

/-- The text of a tag, from its mark on; blanks beside it stay. -/
def IsTag (tag : List Char) : Prop := ∃ rest, tag = '{' :: '%' :: ' ' :: rest

/-- A source whose last character does not make another mark of the mark behind it. -/
def Apart (cs : List Char) : Prop := cs.getLast? ≠ some '{'

theorem Apart.drop {cs : List Char} (h : Apart cs) (n : Nat) : Apart (cs.drop n) := by
  unfold Apart
  rw [List.getLast?_drop]
  split
  · simp
  · exact h

theorem Apart.tail {c : Char} {cs : List Char} (h : Apart (c :: cs)) : Apart cs := h.drop 1

/-! ## Pieces in front of a brace -/

section
variable {tag : List Char} (htag : IsTag tag)
include htag

theorem isPrefixOf_append : ∀ {p : List Char} (cs : List Char), '{' ∉ p → p.isPrefixOf (cs ++ tag) = p.isPrefixOf cs
  | [], _, _ => rfl
  | x :: p, [], h => by
    obtain ⟨rest, rfl⟩ := htag
    have hx : (x == '{') = false := by
      simp only [List.mem_cons, not_or] at h
      simpa using Ne.symm h.1
    show (x == '{' && p.isPrefixOf _) = false
    rw [hx, Bool.false_and]
  | x :: p, c :: cs, h => by
    have hp : '{' ∉ p := fun hm => h (List.mem_cons_of_mem _ hm)
    show (x == c && p.isPrefixOf (cs ++ tag)) = (x == c && p.isPrefixOf cs)
    rw [isPrefixOf_append cs hp]

theorem takeWhile_append {p : Char → Bool} (hp : p '{' = false) : ∀ cs : List Char,
    (cs ++ tag).takeWhile p = cs.takeWhile p
  | [] => by
    obtain ⟨rest, rfl⟩ := htag
    exact List.takeWhile_cons_of_neg (by rw [hp]; exact Bool.false_ne_true)
  | c :: cs => by
    rw [List.cons_append, List.takeWhile_cons, List.takeWhile_cons, takeWhile_append hp cs]

theorem dropWhile_append {p : Char → Bool} (hp : p '{' = false) : ∀ cs : List Char,
    (cs ++ tag).dropWhile p = cs.dropWhile p ++ tag
  | [] => by
    obtain ⟨rest, rfl⟩ := htag
    exact List.dropWhile_cons_of_neg (by rw [hp]; exact Bool.false_ne_true)
  | c :: cs => by
    rw [List.cons_append, List.dropWhile_cons, List.dropWhile_cons, dropWhile_append hp cs]
    split
    · rfl
    · rfl

theorem control_append (cs : List Char) : control (cs ++ tag) = control cs := by
  cases cs with
  | nil =>
    obtain ⟨rest, rfl⟩ := htag
    rfl
  | cons c cs =>
    by_cases hm : c = '-'
    · subst hm
      rfl
    by_cases hp : c = '+'
    · subst hp
      rfl
    unfold control
    split
    · rename_i h
      exact absurd (List.cons.inj h).1 hm
    · rename_i h
      exact absurd (List.cons.inj h).1 hp
    · split
      · rename_i h
        exact absurd (List.cons.inj h).1 hm
      · rename_i h
        exact absurd (List.cons.inj h).1 hp
      · rfl

omit htag in
theorem control_le (cs : List Char) : (control cs).2 ≤ cs.length := by
  unfold control
  split
  · exact Nat.succ_le_succ (Nat.zero_le _)
  · exact Nat.succ_le_succ (Nat.zero_le _)
  · exact Nat.zero_le _

omit htag in
theorem drop_control_append (cs : List Char) : (cs ++ tag).drop (control cs).2 = cs.drop (control cs).2 ++ tag :=
  List.drop_append_of_le_length (control_le cs)

omit htag in
theorem mark?_of_ne {c : Char} (h : c ≠ '{') (cs : List Char) : mark? (c :: cs) = none := by
  unfold mark?
  split
  all_goals first
    | rfl
    | rename_i he; exact absurd (List.cons.inj he).1 h

omit htag in
/-- Two characters make a mark. -/
theorem mark?_cons_cons (c d : Char) (cs : List Char) : mark? (c :: d :: cs) = mark? [c, d] := by
  unfold mark?
  split <;> split <;> simp_all

omit htag in
theorem mark?_singleton (c : Char) : mark? [c] = none := by
  unfold mark?
  split <;> simp_all

omit htag in
theorem mark?_append {c : Char} {cs : List Char} (h : Apart (c :: cs) ∨ cs ≠ []) :
    mark? (c :: (cs ++ tag)) = mark? (c :: cs) := by
  cases cs with
  | nil =>
    have hc : c ≠ '{' := fun he => h.resolve_right (· rfl) (by rw [he]; rfl)
    rw [mark?_of_ne hc, mark?_of_ne hc]
  | cons d cs => rw [List.cons_append, mark?_cons_cons, mark?_cons_cons c d cs]

/-! ## Tags of one word, comments and raw stretches -/

theorem wordTag?_append {word : List Char} (hw : '{' ∉ word) (cs : List Char) :
    wordTag? word (cs ++ tag) = wordTag? word cs := by
  unfold wordTag?
  dsimp only
  rw [dropWhile_append htag rfl, isPrefixOf_append htag _ hw]
  split
  · rename_i hword
    have hlen : word.length ≤ (cs.dropWhile isSpace).length := (List.isPrefixOf_iff_prefix.1 hword).length_le
    rw [List.drop_append_of_le_length hlen, dropWhile_append htag rfl, control_append htag, drop_control_append,
      isPrefixOf_append htag _ (by decide)]
    split
    · rename_i hend
      have hclose := (List.isPrefixOf_iff_prefix.1 hend).length_le
      simp only [List.length_cons, List.length_nil, List.length_drop] at hclose
      simp only [List.length_append]
      congr 2
      omega
    · rfl
  · rfl

theorem cutAt?_append {needle : List Char} (hn : '{' ∉ needle) : ∀ {cs front rest : List Char},
    Text.cutAt? needle cs = some (front, rest) → Text.cutAt? needle (cs ++ tag) = some (front, rest ++ tag)
  | [], front, rest, h => by
    unfold Text.cutAt? at h
    split at h
    · rename_i he
      cases h
      obtain ⟨tail, rfl⟩ := htag
      rw [List.isEmpty_iff.1 he]
      rfl
    · cases h
  | c :: cs, front, rest, h => by
    have hp := isPrefixOf_append htag (c :: cs) hn
    rw [List.cons_append] at hp ⊢
    unfold Text.cutAt? at h ⊢
    rw [hp]
    split
    · rename_i hyes
      rw [if_pos hyes] at h
      cases h
      rfl
    · rename_i hno
      rw [if_neg hno] at h
      obtain ⟨⟨front', rest'⟩, hcut, he⟩ := Option.map_eq_some_iff.1 h
      cases he
      rw [cutAt?_append hn hcut]
      rfl

theorem rawEnd?_append : ∀ {cs : List Char} {found : List Char × Bool × Nat × Bool}, rawEnd? cs = some found →
    rawEnd? (cs ++ tag) = some found
  | [], _, h => nomatch h
  | [c], found, h => by
    unfold rawEnd? at h
    dsimp only at h
    rw [mark?_singleton] at h
    cases h
  | c :: d :: cs, found, h => by
    have hm : mark? (c :: d :: (cs ++ tag)) = mark? (c :: d :: cs) := by
      rw [mark?_cons_cons, mark?_cons_cons c d cs]
    have hrest : ∀ found, rawEnd? (d :: cs) = some found → rawEnd? (d :: (cs ++ tag)) = some found :=
      fun _ => rawEnd?_append
    have hdrop : ∀ ds, (c :: d :: ds).drop 2 = ds := fun _ => rfl
    rw [List.cons_append, List.cons_append]
    unfold rawEnd? at h ⊢
    simp only [hdrop] at h ⊢
    rw [hm, control_append htag, drop_control_append, wordTag?_append htag (by decide)]
    generalize mark? (c :: d :: cs) = mark at h ⊢
    generalize wordTag? _ _ = end? at h ⊢
    rcases mark with _ | _ | _ | _ <;> rcases end? with _ | ⟨length, trim⟩
    all_goals first
      | exact h
      | obtain ⟨found', hfound, he⟩ := Option.map_eq_some_iff.1 h
        dsimp only
        rw [hrest _ hfound]
        exact congrArg some he

/-! ## Texts and numbers -/

omit htag in
theorem quoted_cons {quote c : Char} (h : c ≠ '\\') (cs : List Char) :
    quoted quote (c :: cs) = if c = quote then some [] else (quoted quote cs).map (c :: ·) := by
  rw [quoted]
  · rw [if_neg h]
  · exact fun _ _ he => absurd he h

omit htag in
theorem quoted_append {quote : Char} (hq : quote ≠ '\\') : ∀ {cs inside : List Char}, quoted quote cs = some inside →
    quoted quote (cs ++ tag) = some inside
  | [], _, h => nomatch h
  | [c], inside, h => by
    by_cases hc : c = '\\'
    · subst hc
      rw [quoted, if_neg hq.symm, if_pos rfl] at h
      · cases h
      · exact fun _ _ _ he => nomatch he
    · rw [quoted_cons hc] at h
      rw [List.cons_append, quoted_cons hc]
      split
      · rename_i he
        rwa [if_pos he] at h
      · rename_i he
        rw [if_neg he] at h
        cases h
  | c :: d :: cs, inside, h => by
    by_cases hc : c = '\\'
    · subst hc
      obtain ⟨rest, hrest, rfl⟩ := Option.map_eq_some_iff.1 h
      show (quoted quote (cs ++ tag)).map _ = _
      rw [quoted_append hq hrest]
      rfl
    · have hrec : ∀ {inside}, quoted quote (d :: cs) = some inside → quoted quote (d :: cs ++ tag) = some inside :=
        quoted_append hq
      rw [quoted_cons hc] at h
      rw [List.cons_append, quoted_cons hc]
      split
      · rename_i he
        rwa [if_pos he] at h
      · rename_i he
        rw [if_neg he] at h
        obtain ⟨rest, hrest, rfl⟩ := Option.map_eq_some_iff.1 h
        rw [hrec hrest]
        rfl

theorem numberPart_append : ∀ (p : NumberPart) (cs : List Char), numberPart p (cs ++ tag) = numberPart p cs
  | p, [] => by
    obtain ⟨rest, rfl⟩ := htag
    cases p <;> rfl
  | p, c :: cs => by
    rw [List.cons_append]
    unfold numberPart
    dsimp only
    split
    · rw [numberPart_append]
    · rfl

omit htag in
/-- Two characters tell the base of a number. -/
theorem radix_cons_cons (c d : Char) (cs : List Char) : radix (c :: d :: cs) = radix [c, d] := by
  unfold radix
  split <;> split <;> simp_all

omit htag in
theorem radix_singleton (c : Char) : radix [c] = 10 := by
  unfold radix
  split <;> simp_all

theorem radix_append (c : Char) (cs : List Char) : radix (c :: (cs ++ tag)) = radix (c :: cs) := by
  cases cs with
  | nil =>
    obtain ⟨rest, rfl⟩ := htag
    rw [List.nil_append, radix_cons_cons, radix_singleton]
    unfold radix
    split <;> simp_all
  | cons d cs => rw [List.cons_append, radix_cons_cons, radix_cons_cons c d cs]

theorem number_append (c : Char) (cs : List Char) : number (c :: (cs ++ tag)) = number (c :: cs) := by
  unfold number
  rw [radix_append htag]
  dsimp only
  split
  · have hpart := numberPart_append htag .whole (c :: cs)
    rw [List.cons_append] at hpart
    rw [hpart]
  · rename_i hbase
    cases cs with
    | nil => exact absurd (radix_singleton c) hbase
    | cons d cs =>
      have hdrop : ∀ ds, (c :: d :: ds).drop 2 = ds := fun _ => rfl
      have hbrace : ∀ b : Bool, (('{' : Char).isDigit || '{' == '_' ||
          (b && ((decide ('a' ≤ '{') && decide ('{' ≤ 'f')) || (decide ('A' ≤ '{') && decide ('{' ≤ 'F'))))) = false := by
        decide
      rw [List.cons_append, hdrop, hdrop, takeWhile_append htag (hbrace _)]

/-! ## The text in front of a mark -/

/-- The text is the same if it ends in front of a mark, or if the source behind it does not run into the tag. -/
theorem untilMark_append : ∀ {cs : List Char}, Apart cs ∨ (untilMark cs).length < cs.length →
    untilMark (cs ++ tag) = untilMark cs
  | [], _ => by
    obtain ⟨rest, rfl⟩ := htag
    rfl
  | c :: cs, h => by
    rw [List.cons_append]
    unfold untilMark at h ⊢
    have hmark : mark? (c :: (cs ++ tag)) = mark? (c :: cs) := by
      refine mark?_append (h.imp_right ?_)
      rintro hlength rfl
      rw [mark?_singleton] at hlength
      exact absurd hlength (Nat.lt_irrefl 1)
    rw [hmark]
    split at h
    · rename_i hm
      rw [if_pos hm, if_pos hm]
    · rename_i hm
      rw [if_neg hm, if_neg hm, untilMark_append (h.imp Apart.tail Nat.lt_of_succ_lt_succ)]

omit htag in
theorem length_untilMark_le : ∀ cs : List Char, (untilMark cs).length ≤ cs.length
  | [] => Nat.le_refl _
  | c :: cs => by
    unfold untilMark
    split
    · exact Nat.zero_le _
    · exact Nat.succ_le_succ (length_untilMark_le cs)

omit htag in
/-- A text ends in front of a mark or where the source ends. -/
theorem drop_untilMark : ∀ cs : List Char,
    cs.drop (untilMark cs).length = [] ∨ ∃ c d rest, cs.drop (untilMark cs).length = c :: d :: rest ∧ (mark? [c, d]).isSome
  | [] => .inl rfl
  | c :: cs => by
    unfold untilMark
    split
    · rename_i hm
      refine .inr ?_
      cases cs with
      | nil =>
        by_cases hc : c = '{'
        · subst hc
          cases hm
        · rw [mark?_of_ne hc] at hm
          cases hm
      | cons d cs => exact ⟨c, d, cs, rfl, by rwa [mark?_cons_cons] at hm⟩
    · exact drop_untilMark cs

/-- What stands behind the next mark tells whether blanks go in front of it. -/
theorem control_behind_text (cs : List Char) :
    control ((cs ++ tag).drop ((untilMark cs).length + 2)) = control (cs.drop ((untilMark cs).length + 2)) := by
  rw [← List.drop_drop, ← List.drop_drop, List.drop_append_of_le_length (length_untilMark_le cs)]
  obtain hend | ⟨c, d, rest, hmark, -⟩ := drop_untilMark cs
  · obtain ⟨tail, rfl⟩ := htag
    rw [hend]
    rfl
  · rw [hmark]
    exact control_append htag rest

end

/-! ## Sizes -/

theorem wordTag?_le {word cs : List Char} {length : Nat} {trim : Bool} (h : wordTag? word cs = some (length, trim)) :
    length ≤ cs.length := by
  unfold wordTag? at h
  dsimp only at h
  split at h
  · split at h
    · cases h
      exact Nat.sub_le _ _
    · cases h
  · cases h

theorem rawEnd?_le : ∀ {cs text : List Char} {trim : Bool} {length : Nat} {trimAfter : Bool},
    rawEnd? cs = some (text, trim, length, trimAfter) → text.length + length ≤ cs.length
  | [], _, _, _, _, h => nomatch h
  | c :: cs, text, trim, length, trimAfter, h => by
    unfold rawEnd? at h
    dsimp only at h
    split at h
    · rename_i hm hw
      cases h
      have hle := wordTag?_le hw
      have hctl := control_le ((c :: cs).drop 2)
      have htwo : 2 ≤ (c :: cs).length := by
        cases cs with
        | nil =>
          by_cases hc : c = '{'
          · subst hc
            cases hm
          · rw [mark?_of_ne hc] at hm
            cases hm
        | cons d cs => exact Nat.succ_le_succ (Nat.succ_le_succ (Nat.zero_le _))
      rw [List.length_drop, List.length_drop] at hle
      rw [List.length_drop] at hctl
      simp only [List.length_nil]
      omega
    · obtain ⟨⟨text', rest⟩, hrest, he⟩ := Option.map_eq_some_iff.1 h
      cases he
      have hle := rawEnd?_le hrest
      simp only [List.length_cons]
      omega

theorem cutAt?_le {needle : List Char} : ∀ {cs front rest : List Char}, Text.cutAt? needle cs = some (front, rest) →
    front.length + needle.length ≤ cs.length
  | [], front, rest, h => by
    unfold Text.cutAt? at h
    split at h
    · rename_i he
      cases h
      rw [List.isEmpty_iff.1 he]
      exact Nat.le_refl _
    · cases h
  | c :: cs, front, rest, h => by
    unfold Text.cutAt? at h
    split at h
    · rename_i hp
      cases h
      rw [List.length_nil, Nat.zero_add]
      exact (List.isPrefixOf_iff_prefix.1 hp).length_le
    · obtain ⟨⟨front', rest'⟩, hcut, he⟩ := Option.map_eq_some_iff.1 h
      cases he
      have hle := cutAt?_le hcut
      simp only [List.length_cons]
      omega

theorem quoted_le {quote : Char} : ∀ {cs inside : List Char}, quoted quote cs = some inside →
    inside.length + 1 ≤ cs.length := by
  intro cs
  fun_induction quoted quote cs with
  | case1 => exact fun h => nomatch h
  | case2 c cs ih =>
    intro inside h
    obtain ⟨rest, hrest, rfl⟩ := Option.map_eq_some_iff.1 h
    have hle := ih hrest
    simp only [List.length_cons]
    omega
  | case3 =>
    intro inside h
    cases h
    exact Nat.succ_le_succ (Nat.zero_le _)
  | case4 => exact fun h => nomatch h
  | case5 c cs _ _ _ ih =>
    intro inside h
    obtain ⟨rest, hrest, rfl⟩ := Option.map_eq_some_iff.1 h
    have hle := ih hrest
    simp only [List.length_cons]
    omega

theorem numberPart_le : ∀ (p : NumberPart) (cs : List Char), (numberPart p cs).1.length ≤ cs.length
  | _, [] => Nat.le_refl _
  | p, c :: cs => by
    unfold numberPart
    dsimp only
    split
    · exact Nat.succ_le_succ (numberPart_le _ cs)
    · exact Nat.zero_le _

theorem whole_length {base : Nat} {digits : List Char} {length : Nat} {token : Token} {n : Nat}
    (h : whole base digits length = .ok (token, n)) : n = length := by
  unfold whole at h
  split at h
  · split at h
    · cases h
      rfl
    · cases h
  · cases h

theorem number_le {cs : List Char} {token : Token} {n : Nat} (h : number cs = .ok (token, n)) : n ≤ cs.length := by
  unfold number at h
  dsimp only at h
  split at h
  · have hle := numberPart_le .whole cs
    split at h
    · split at h
      · cases h
        exact hle
      · cases h
    · rw [whole_length h]
      exact hle
  · rename_i hbase
    rw [whole_length h]
    have htwo : 2 ≤ cs.length := by
      match cs, hbase with
      | [], hbase => exact absurd rfl hbase
      | [c], hbase => exact absurd (radix_singleton c) hbase
      | c :: d :: cs, _ => exact Nat.succ_le_succ (Nat.succ_le_succ (Nat.zero_le _))
    have hle := (List.takeWhile_prefix (l := cs.drop 2) (fun c => c.isDigit || c == '_' ||
      (radix cs == 16 && ((decide ('a' ≤ c) && decide (c ≤ 'f')) || (decide ('A' ≤ c) && decide (c ≤ 'F')))))).length_le
    rw [List.length_drop] at hle
    omega

theorem closing?_le {first : Char} {cs : List Char} {length : Nat} {trim : Bool}
    (h : closing? first cs = some (length, trim)) : length ≤ cs.length := by
  unfold closing? at h
  dsimp only at h
  split at h
  · rename_i hend
    cases h
    have hle := (List.isPrefixOf_iff_prefix.1 hend).length_le
    have hctl := control_le cs
    simp only [List.length_cons, List.length_nil, List.length_drop] at hle
    omega
  · split at h
    · rename_i hend
      cases h
      exact (List.isPrefixOf_iff_prefix.1 hend).length_le
    · cases h

/-! ## Steps -/

section
variable {tag : List Char} (htag : IsTag tag) {c : Char} {cs : List Char} {s : Step}

theorem two_le_of_longSign (h : longSigns.any (·.isPrefixOf (c :: cs)) = true) : 1 ≤ cs.length := by
  cases cs with
  | nil =>
    simp [longSigns, List.isPrefixOf] at h
  | cons d cs => exact Nat.succ_le_succ (Nat.zero_le _)

theorem insideStep_le {here : Nat → Where} {depth : Nat} (h : insideStep here depth c cs = .ok s) :
    s.more ≤ cs.length := by
  unfold insideStep at h
  split at h
  · cases h
    exact Nat.zero_le _
  split at h
  · rename_i hlong
    cases h
    exact two_le_of_longSign hlong
  split at h
  · cases h
    exact Nat.zero_le _
  split at h
  · split at h
    · cases h
    · rename_i hquoted
      split at h
      · cases h
        exact quoted_le hquoted
      · cases h
  split at h
  · split at h
    · rename_i hnumber
      cases h
      exact Nat.sub_le_of_le_add (number_le hnumber)
    · cases h
  split at h
  · cases h
    exact (List.takeWhile_prefix isNamePart).length_le
  · cases h

include htag

theorem closing?_append {first : Char} (hf : first ≠ '{') (cs : List Char) :
    closing? first (cs ++ tag) = closing? first cs := by
  have hmem : '{' ∉ [first, '}'] := by simp [hf.symm]
  unfold closing?
  dsimp only
  rw [control_append htag, drop_control_append, isPrefixOf_append htag _ hmem, isPrefixOf_append htag _ hmem]

theorem insideStep_append {here : Nat → Where} {depth : Nat} (h : insideStep here depth c cs = .ok s) :
    insideStep here depth c (cs ++ tag) = .ok s := by
  have hlong : longSigns.any (·.isPrefixOf (c :: (cs ++ tag))) = longSigns.any (·.isPrefixOf (c :: cs)) := by
    have hmem : ∀ p ∈ longSigns, '{' ∉ p := by decide
    rw [Bool.eq_iff_iff, List.any_eq_true, List.any_eq_true]
    exact exists_congr fun p => and_congr_right fun hp => by
      rw [← List.cons_append, isPrefixOf_append htag (c :: cs) (hmem p hp)]
  unfold insideStep at h ⊢
  rw [hlong]
  split
  · rename_i h₁
    rwa [if_pos h₁] at h
  rename_i h₁
  rw [if_neg h₁] at h
  split
  · rename_i h₂
    rw [if_pos h₂] at h
    have htwo := two_le_of_longSign h₂
    rw [← List.cons_append, List.take_append_of_le_length (Nat.succ_le_succ htwo)]
    exact h
  rename_i h₂
  rw [if_neg h₂] at h
  split
  · rename_i h₃
    rwa [if_pos h₃] at h
  rename_i h₃
  rw [if_neg h₃] at h
  split
  · rename_i h₄
    rw [if_pos h₄] at h
    have hc : c ≠ '\\' := by
      rintro rfl
      exact absurd h₄ (by decide)
    cases hq : quoted c cs with
    | none =>
      rw [hq] at h
      cases h
    | some inside =>
      rw [hq] at h
      rw [quoted_append hc hq]
      exact h
  rename_i h₄
  rw [if_neg h₄] at h
  split
  · rename_i h₅
    rw [if_pos h₅] at h
    rw [number_append htag]
    exact h
  rename_i h₅
  rw [if_neg h₅] at h
  rw [takeWhile_append htag rfl]
  exact h

/-- A step at a mark takes at least the mark, and no more than there is. -/
theorem atMark_append {m : Mark} {cs : List Char} (h : atMark m cs = .ok s) (htwo : 2 ≤ cs.length) :
    atMark m (cs ++ tag) = .ok s ∧ s.more + 1 ≤ cs.length := by
  have hctl := control_le (cs.drop 2)
  have hinside : 2 + (control (cs.drop 2)).2 ≤ cs.length := by
    rw [List.length_drop] at hctl
    omega
  unfold atMark at h ⊢
  rw [List.drop_append_of_le_length htwo, control_append htag]
  dsimp only at h ⊢
  rw [List.drop_append_of_le_length hinside]
  generalize (control (cs.drop 2)).2 = n at h hinside ⊢
  cases m with
  | emit =>
    cases h
    exact ⟨rfl, by dsimp only; omega⟩
  | comment =>
    cases hcut : Text.cutAt? ['#', '}'] (cs.drop (2 + n)) with
    | none =>
      rw [hcut] at h
      cases h
    | some found =>
      obtain ⟨text, rest⟩ := found
      have hle := cutAt?_le hcut
      simp only [List.length_cons, List.length_nil, List.length_drop] at hle
      have htake : (cs ++ tag).take (2 + n + text.length) = cs.take (2 + n + text.length) :=
        List.take_append_of_le_length (by omega)
      rw [hcut] at h
      rw [cutAt?_append htag (by decide) hcut]
      dsimp only at h ⊢
      rw [htake]
      refine ⟨h, ?_⟩
      cases h
      dsimp only
      omega
  | tag =>
    dsimp only at h ⊢
    rw [wordTag?_append htag (by decide)]
    cases hword : wordTag? ['r', 'a', 'w'] (cs.drop (2 + n)) with
    | none =>
      rw [hword] at h
      cases h
      exact ⟨rfl, by dsimp only; omega⟩
    | some found =>
      obtain ⟨length, trim⟩ := found
      have hle := wordTag?_le hword
      rw [hword] at h
      dsimp only at h ⊢
      rw [List.drop_append_of_le_length hle]
      cases hraw : rawEnd? ((cs.drop (2 + n)).drop length) with
      | none =>
        rw [hraw] at h
        cases h
      | some found =>
        obtain ⟨text, trimEnd, endLength, trimAfter⟩ := found
        have hrawLe := rawEnd?_le hraw
        rw [List.length_drop, List.length_drop] at hrawLe
        rw [List.length_drop] at hle
        rw [hraw] at h
        rw [rawEnd?_append htag hraw]
        refine ⟨h, ?_⟩
        cases h
        dsimp only
        omega

theorem outsideStep_append {trim : Bool} (h : outsideStep trim c cs = .ok s)
    (hlast : Apart (c :: cs) ∨ s.more < cs.length) :
    outsideStep trim c (cs ++ tag) = .ok s ∧ s.more ≤ cs.length := by
  have hmark : mark? (c :: (cs ++ tag)) = mark? (c :: cs) :=
    mark?_append (hlast.imp_right fun hmore => List.ne_nil_of_length_pos (Nat.zero_lt_of_lt hmore))
  unfold outsideStep at h ⊢
  rw [hmark]
  split
  · rename_i hblank
    rw [if_pos hblank] at h
    refine ⟨h, ?_⟩
    cases h
    exact Nat.zero_le _
  · rename_i hblank
    rw [if_neg hblank] at h
    cases hm : mark? (c :: cs) with
    | some m =>
      rw [hm] at h
      have htwo : 2 ≤ (c :: cs).length := by
        cases cs with
        | nil =>
          rw [mark?_singleton] at hm
          cases hm
        | cons d cs => exact Nat.succ_le_succ (Nat.succ_le_succ (Nat.zero_le _))
      obtain ⟨hstep, hle⟩ := atMark_append htag h htwo
      exact ⟨hstep, Nat.le_of_succ_le_succ hle⟩
    | none =>
      rw [hm] at h
      have hmore : s.more = (untilMark (c :: cs)).length - 1 := by
        cases h
        rfl
      have htext : untilMark (c :: cs ++ tag) = untilMark (c :: cs) := by
        refine untilMark_append htag (hlast.imp_right fun hlt => ?_)
        rw [List.length_cons]
        omega
      have hcontrol := control_behind_text htag (c :: cs)
      have hle := length_untilMark_le (c :: cs)
      rw [List.cons_append] at htext hcontrol
      dsimp only at h ⊢
      rw [htext, hcontrol]
      refine ⟨h, ?_⟩
      rw [hmore]
      exact Nat.sub_le_of_le_add hle

/-- **A step is the same in front of a tag**, unless it takes a last character that runs into the tag, and it stays within
the source. -/
theorem step_append {w : Where} (h : step w c cs = .ok s) (hlast : Apart (c :: cs) ∨ s.more < cs.length) :
    step w c (cs ++ tag) = .ok s ∧ s.more ≤ cs.length := by
  have hclosing : ∀ first, first ≠ '{' → closing? first (c :: (cs ++ tag)) = closing? first (c :: cs) := fun first hf => by
    rw [← List.cons_append, closing?_append htag hf]
  have hinside : ∀ {here depth}, insideStep here depth c cs = .ok s →
      insideStep here depth c (cs ++ tag) = .ok s ∧ s.more ≤ cs.length := fun h =>
    ⟨insideStep_append htag h, insideStep_le h⟩
  have hclosed : ∀ {first length trim}, closing? first (c :: cs) = some (length, trim) → length - 1 ≤ cs.length :=
    fun h => Nat.sub_le_of_le_add (closing?_le h)
  cases w with
  | outside trim => exact outsideStep_append htag h hlast
  | emit depth =>
    unfold step at h ⊢
    dsimp only at h ⊢
    rw [hclosing _ (by decide)]
    cases depth with
    | succ depth => exact hinside h
    | zero =>
      cases hc : closing? '}' (c :: cs) with
      | none =>
        rw [hc] at h
        exact hinside h
      | some found =>
        rw [hc] at h
        cases h
        exact ⟨rfl, hclosed hc⟩
  | tag depth =>
    unfold step at h ⊢
    dsimp only at h ⊢
    rw [hclosing _ (by decide)]
    cases depth with
    | succ depth => exact hinside h
    | zero =>
      cases hc : closing? '%' (c :: cs) with
      | none =>
        rw [hc] at h
        exact hinside h
      | some found =>
        rw [hc] at h
        cases h
        exact ⟨rfl, hclosed hc⟩

end

/-! ## Where a step leads -/

/-- Tokens that end in front of text. -/
def Token.ends : Token → Bool
  | .plain _ | .emitEnd | .tagEnd => true
  | _ => false

def Where.isOutside : Where → Bool
  | .outside _ => true
  | _ => false

/-- Whether a place is outside of marked stretches, by the last token read. -/
def endsOutside (w : Where) : Option Token → Bool
  | some t => t.ends
  | none => w.isOutside

theorem endsOutside_plainToken {w : Where} (hw : w.isOutside = true) (trim : Bool) (text : List Char) :
    endsOutside w (plainToken trim text) = true := by
  unfold plainToken
  generalize (if trim then Text.trimEnd text else text) = kept
  dsimp only
  split
  · exact hw
  · rfl

theorem ends_whole {base : Nat} {digits : List Char} {length : Nat} {token : Token} {n : Nat}
    (h : whole base digits length = .ok (token, n)) : token.ends = false := by
  unfold whole at h
  split at h
  · split at h
    · cases h
      rfl
    · cases h
  · cases h

theorem ends_number {cs : List Char} {token : Token} {n : Nat} (h : number cs = .ok (token, n)) :
    token.ends = false := by
  unfold number at h
  dsimp only at h
  split at h
  · split at h
    · split at h
      · cases h
        rfl
      · cases h
    · exact ends_whole h
  · exact ends_whole h

section
variable {c : Char} {cs : List Char} {s : Step}

theorem insideStep_next {w : Where} {here : Nat → Where} {depth : Nat} (hw : w.isOutside = false)
    (hhere : ∀ depth, (here depth).isOutside = false) (h : insideStep here depth c cs = .ok s) :
    s.next.isOutside = endsOutside w s.token := by
  unfold insideStep at h
  split at h
  · cases h
    exact (hhere _).trans hw.symm
  split at h
  · cases h
    exact hhere _
  split at h
  · cases h
    exact hhere _
  split at h
  · split at h
    · cases h
    · split at h
      · cases h
        exact hhere _
      · cases h
  split at h
  · split at h
    · rename_i hnumber
      cases h
      exact (hhere _).trans (ends_number hnumber).symm
    · cases h
  split at h
  · cases h
    exact hhere _
  · cases h

theorem atMark_next {w : Where} (hw : w.isOutside = true) {m : Mark} (h : atMark m cs = .ok s) :
    s.next.isOutside = endsOutside w s.token := by
  unfold atMark at h
  dsimp only at h
  split at h
  · cases h
    rfl
  · split at h
    · cases h
    · cases h
      exact hw.symm
  · split at h
    · cases h
      rfl
    · split at h
      · cases h
      · cases h
        exact (endsOutside_plainToken hw _ _).symm

/-- A step leads outside if its token ends in front of text, or if it has no token and began there. -/
theorem step_next {w : Where} (h : step w c cs = .ok s) : s.next.isOutside = endsOutside w s.token := by
  cases w with
  | outside trim =>
    unfold step outsideStep at h
    dsimp only at h
    split at h
    · cases h
      rfl
    · split at h
      · exact atMark_next rfl h
      · cases h
        exact (endsOutside_plainToken (w := .outside trim) rfl _ _).symm
  | emit depth =>
    unfold step at h
    dsimp only at h
    split at h
    · cases h
      rfl
    · exact insideStep_next rfl (fun _ => rfl) h
  | tag depth =>
    unfold step at h
    dsimp only at h
    split at h
    · cases h
      rfl
    · exact insideStep_next rfl (fun _ => rfl) h

/-! ## Scanning -/

/-- Lexemes behind the token of a step, if it has one. -/
def Lexemes.behind (token : Option Token) (line : Nat) (rest : Lexemes) : Lexemes :=
  match token with
  | some t => ⟨⟨t, line⟩ :: rest.items, rest.fault⟩
  | none => rest

theorem scan_nil (w : Where) (line : Nat) : scan w line [] = ⟨[], none⟩ := by
  rw [scan]

theorem scan_cons {w : Where} (h : step w c cs = .ok s) (line : Nat) :
    scan w line (c :: cs) =
      (scan s.next (line + newlines ((c :: cs).take (s.more + 1))) (cs.drop s.more)).behind s.token line := by
  rw [scan]
  dsimp only
  rw [h]
  rfl

theorem fault_scan_cons_of_error {w : Where} {cause : Cause} {lines : Nat} (h : step w c cs = .error (cause, lines))
    (line : Nat) : (scan w line (c :: cs)).fault ≠ none := by
  rw [scan]
  dsimp only
  rw [h]
  exact Option.some_ne_none _

theorem items_scan_cons_of_error {w : Where} {fault : Cause × Nat} (h : step w c cs = .error fault) (line : Nat) :
    (scan w line (c :: cs)).items = [] := by
  rw [scan]
  dsimp only
  rw [h]

end

theorem newlines_take_add_drop (cs : List Char) (n : Nat) : newlines (cs.take n) + newlines (cs.drop n) = newlines cs := by
  unfold newlines
  rw [← List.count_append, List.take_append_drop]

/-- Lexemes, and others behind them. -/
def Lexemes.andThen (ls rest : Lexemes) : Lexemes := ⟨ls.items ++ rest.items, rest.fault⟩

theorem behind_andThen (token : Option Token) (line : Nat) (ls rest : Lexemes) :
    (ls.andThen rest).behind token line = (ls.behind token line).andThen rest := by
  cases token <;> rfl

theorem fault_behind (token : Option Token) (line : Nat) (ls : Lexemes) : (ls.behind token line).fault = ls.fault := by
  cases token <;> rfl

/-- Where the scanning of further tokens ends, it ends with the token in front of them as well. -/
theorem endsOutside_behind {w next : Where} {token : Option Token} (hnext : next.isOutside = endsOutside w token)
    (line : Nat) (ls : Lexemes) :
    endsOutside w ((ls.behind token line).items.getLast?.map (·.token)) =
      endsOutside next (ls.items.getLast?.map (·.token)) := by
  cases hl : ls.items.getLast? with
  | none =>
    have hnil : ls.items = [] := List.getLast?_eq_none_iff.1 hl
    cases token with
    | none =>
      show endsOutside w (ls.items.getLast?.map (·.token)) = _
      rw [hl]
      exact hnext.symm
    | some t =>
      show endsOutside w ((⟨t, line⟩ :: ls.items).getLast?.map (·.token)) = _
      rw [hnil]
      exact hnext.symm
  | some l =>
    cases token with
    | none =>
      show endsOutside w (ls.items.getLast?.map (·.token)) = _
      rw [hl]
      rfl
    | some t =>
      show endsOutside w ((⟨t, line⟩ :: ls.items).getLast?.map (·.token)) = _
      rw [List.getLast?_cons, hl]
      rfl

/-- **The tokens of a source in front of a tag** are its own, and then those of the tag, which is read from where the
source ends: outside of marked stretches if the last token ends there. -/
theorem scan_append {tag : List Char} (htag : IsTag tag) : ∀ (cs : List Char) (w : Where) (line : Nat), Apart cs →
    (scan w line cs).fault = none →
    ∃ w', scan w line (cs ++ tag) = (scan w line cs).andThen (scan w' (line + newlines cs) tag) ∧
      w'.isOutside = endsOutside w ((scan w line cs).items.getLast?.map (·.token))
  | [], w, line, _, _ => by
    rw [scan_nil]
    exact ⟨w, rfl, rfl⟩
  | c :: cs, w, line, hlast, hfault => by
    cases hs : step w c cs with
    | error fault => exact absurd hfault (fault_scan_cons_of_error hs line)
    | ok s =>
      obtain ⟨happend, hle⟩ := step_append htag hs (.inl hlast)
      rw [scan_cons hs, fault_behind] at hfault
      obtain ⟨w', hscan, hw'⟩ := scan_append htag (cs.drop s.more) s.next
        (line + newlines ((c :: cs).take (s.more + 1))) (hlast.drop (s.more + 1)) hfault
      refine ⟨w', ?_, ?_⟩
      · have htake : (c :: (cs ++ tag)).take (s.more + 1) = (c :: cs).take (s.more + 1) := by
          rw [← List.cons_append, List.take_append_of_le_length (Nat.succ_le_succ hle)]
        have hline := newlines_take_add_drop (c :: cs) (s.more + 1)
        rw [List.cons_append, scan_cons happend, scan_cons hs, htake, List.drop_append_of_le_length hle, hscan,
          behind_andThen, Nat.add_assoc, ← hline]
        rfl
      · rw [scan_cons hs, endsOutside_behind (step_next hs)]
        exact hw'
termination_by cs => cs.length
decreasing_by
  rw [List.length_drop, List.length_cons]
  omega

/-! ## Text without marks -/

/-- Text that has no mark in it. -/
def Unmarked (cs : List Char) : Prop := ∀ sign ∈ ['{', '%', '#'], ¬ ['{', sign] <:+: cs

theorem Unmarked.tail {c : Char} {cs : List Char} (h : Unmarked (c :: cs)) : Unmarked cs := fun sign hsign hmark =>
  h sign hsign (hmark.trans (List.suffix_cons c cs).isInfix)

theorem Unmarked.mark?_eq {cs : List Char} (h : Unmarked cs) : mark? cs = none := by
  have hfront : ∀ {sign rest}, sign ∈ ['{', '%', '#'] → cs = '{' :: sign :: rest → False := fun hsign hcs =>
    h _ hsign ⟨[], _, hcs.symm⟩
  unfold mark?
  split
  · exact (hfront (by decide) rfl).elim
  · exact (hfront (by decide) rfl).elim
  · exact (hfront (by decide) rfl).elim
  · rfl

theorem unmarked_cons_iff {c : Char} {cs : List Char} : Unmarked (c :: cs) ↔ mark? (c :: cs) = none ∧ Unmarked cs := by
  refine ⟨fun h => ⟨h.mark?_eq, h.tail⟩, ?_⟩
  rintro ⟨hfront, htail⟩ sign hsign hmark
  rcases List.infix_cons_iff.1 hmark with ⟨rest, hcs⟩ | hmark
  · rw [← hcs] at hfront
    simp only [List.mem_cons, List.not_mem_nil, or_false] at hsign
    rcases hsign with rfl | rfl | rfl
    all_goals cases hfront
  · exact htail sign hsign hmark

instance decidableUnmarked : (cs : List Char) → Decidable (Unmarked cs)
  | [] => .isTrue fun _ _ hmark => nomatch List.infix_nil.1 hmark
  | _ :: cs =>
    have := decidableUnmarked cs
    decidable_of_iff' _ unmarked_cons_iff

theorem Unmarked.untilMark_eq : ∀ {cs : List Char}, Unmarked cs → untilMark cs = cs
  | [], _ => rfl
  | c :: cs, h => by
    rw [untilMark, h.mark?_eq]
    exact congrArg (c :: ·) h.tail.untilMark_eq

/-- Text without marks is one token. -/
theorem scan_unmarked {c : Char} {cs : List Char} (h : Unmarked (c :: cs)) (line : Nat) :
    scan (.outside false) line (c :: cs) = ⟨[⟨.plain (String.ofList (c :: cs)), line⟩], none⟩ := by
  have hstep : step (.outside false) c cs = .ok ⟨.outside false, cs.length, some (.plain (String.ofList (c :: cs)))⟩ := by
    have hcontrol : control ((c :: cs).drop ((c :: cs).length + 2)) = (false, 0) := by
      rw [List.drop_eq_nil_of_le (Nat.le_add_right _ 2)]
      rfl
    unfold step outsideStep
    dsimp only
    rw [h.mark?_eq, h.untilMark_eq]
    dsimp only
    rw [hcontrol]
    rfl
  rw [scan_cons hstep, List.drop_length, scan_nil]
  rfl

end Folio.Template
