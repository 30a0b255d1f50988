import Folio.Proofs.Template.Scanning
import Folio.Proofs.Template.Tags
/-!
# A brace in front of a tag

When the last character of a source is an opening brace, it makes another mark of the mark behind it: one that prints.  A
source that ends outside of marked stretches is scanned up to there as it is alone, so no tag is in the tokens that was not
there before (`scan_brace`).
-/
namespace Folio.Template

/-! ## The last characters of marked stretches -/

theorem getLast?_of_prefix_drop {p cs : List Char} {n : Nat} (h : p <+: cs.drop n) (hp : p ≠ [])
    (hlength : cs.length ≤ n + p.length) : cs.getLast? = p.getLast? := by
  have heq : p = cs.drop n := h.eq_of_length_le (by rw [List.length_drop]; omega)
  have hne : cs.drop n ≠ [] := heq ▸ hp
  rw [heq, List.getLast?_drop, if_neg]
  intro hle
  exact hne (List.drop_eq_nil_of_le hle)

theorem closing?_getLast? {first : Char} {cs : List Char} {length : Nat} {trim : Bool}
    (h : closing? first cs = some (length, trim)) (hall : cs.length ≤ length - 1 + 1) : cs.getLast? = some '}' := by
  unfold closing? at h
  dsimp only at h
  split at h
  · rename_i hend
    cases h
    exact getLast?_of_prefix_drop (List.isPrefixOf_iff_prefix.1 hend) (List.cons_ne_nil _ _) hall
  · split at h
    · rename_i hend
      cases h
      exact getLast?_of_prefix_drop (n := 0) (List.isPrefixOf_iff_prefix.1 hend) (List.cons_ne_nil _ _)
        (by rw [Nat.zero_add]; exact hall)
    · cases h

theorem cutAt?_prefix {needle : List Char} : ∀ {cs front rest : List Char}, Text.cutAt? needle cs = some (front, rest) →
    needle <+: cs.drop front.length
  | [], front, rest, h => by
    unfold Text.cutAt? at h
    split at h
    · rename_i he
      cases h
      rw [List.isEmpty_iff.1 he]
      exact List.nil_prefix
    · cases h
  | c :: cs, front, rest, h => by
    unfold Text.cutAt? at h
    split at h
    · rename_i hp
      cases h
      exact List.isPrefixOf_iff_prefix.1 hp
    · obtain ⟨⟨front', rest'⟩, hcut, he⟩ := Option.map_eq_some_iff.1 h
      cases he
      have hprefix := cutAt?_prefix hcut
      exact hprefix

theorem wordTag?_prefix {word cs : List Char} {length : Nat} {trim : Bool} (h : wordTag? word cs = some (length, trim)) :
    2 ≤ length ∧ ['%', '}'] <+: cs.drop (length - 2) := by
  unfold wordTag? at h
  dsimp only at h
  split at h
  · generalize hafter : ((cs.dropWhile isSpace).drop word.length).dropWhile isSpace = after at h
    have hsuffix : after <:+ cs := by
      rw [← hafter]
      exact (List.dropWhile_suffix _).trans ((List.drop_suffix _ _).trans (List.dropWhile_suffix _))
    split at h
    · rename_i hend
      cases h
      have hend := List.isPrefixOf_iff_prefix.1 hend
      have hle := hend.length_le
      have hdrop := (List.drop_suffix (control after).2 after).trans hsuffix
      have hcs := hdrop.length_le
      rw [List.length_drop] at hle hcs
      simp only [List.length_cons, List.length_nil] at hle
      refine ⟨by omega, ?_⟩
      have heq := List.suffix_iff_eq_drop.1 hdrop
      rw [List.length_drop] at heq
      have hn : cs.length - (after.length - (control after).2 - 2) - 2 = cs.length - (after.length - (control after).2) := by
        omega
      rw [hn, ← heq]
      exact hend
    · cases h
  · cases h

theorem rawEnd?_prefix : ∀ {cs text : List Char} {trim : Bool} {length : Nat} {trimAfter : Bool},
    rawEnd? cs = some (text, trim, length, trimAfter) → 2 ≤ length ∧ ['%', '}'] <+: cs.drop (text.length + length - 2)
  | [], _, _, _, _, h => nomatch h
  | c :: cs, text, trim, length, trimAfter, h => by
    unfold rawEnd? at h
    dsimp only at h
    split at h
    · rename_i k trimmed hm hw
      cases h
      obtain ⟨hle, hprefix⟩ := wordTag?_prefix hw
      refine ⟨by omega, ?_⟩
      rw [List.drop_drop, List.drop_drop] at hprefix
      generalize (control ((c :: cs).drop 2)).2 = n at hprefix ⊢
      have hindex : ([] : List Char).length + (k + n + 2) - 2 = 2 + (n + (k - 2)) := by
        rw [List.length_nil]
        omega
      rw [hindex]
      exact hprefix
    · obtain ⟨⟨text', rest⟩, hrest, he⟩ := Option.map_eq_some_iff.1 h
      cases he
      obtain ⟨hle, hprefix⟩ := rawEnd?_prefix hrest
      refine ⟨hle, ?_⟩
      have hindex : (c :: text').length + length - 2 = text'.length + length - 2 + 1 := by
        rw [List.length_cons]
        omega
      rw [hindex]
      exact hprefix

/-! ## The step that takes the last character -/

section
variable {c : Char} {cs : List Char} {s : Step}

/-- A step at a mark that leads outside takes a brace last. -/
theorem atMark_getLast? {m : Mark} {cs : List Char} (h : atMark m cs = .ok s) (hnext : s.next.isOutside = true)
    (hall : cs.length ≤ s.more + 1) : cs.getLast? = some '}' := by
  unfold atMark at h
  dsimp only at h
  generalize (control (cs.drop 2)).2 = n at h
  cases m with
  | emit =>
    cases h
    cases hnext
  | comment =>
    cases hcut : Text.cutAt? ['#', '}'] (cs.drop (2 + n)) with
    | none =>
      rw [hcut] at h
      cases h
    | some found =>
      rw [hcut] at h
      cases h
      have hprefix := cutAt?_prefix hcut
      rw [List.drop_drop] at hprefix
      refine getLast?_of_prefix_drop hprefix (List.cons_ne_nil _ _) ?_
      simp only [List.length_cons, List.length_nil] at hall ⊢
      omega
  | tag =>
    dsimp only at h
    cases hword : wordTag? ['r', 'a', 'w'] (cs.drop (2 + n)) with
    | none =>
      rw [hword] at h
      cases h
      cases hnext
    | some found =>
      obtain ⟨length, trim⟩ := found
      rw [hword] at h
      dsimp only at h
      cases hraw : rawEnd? ((cs.drop (2 + n)).drop length) with
      | none =>
        rw [hraw] at h
        cases h
      | some found =>
        obtain ⟨text, trimEnd, endLength, trimAfter⟩ := found
        rw [hraw] at h
        cases h
        obtain ⟨hle, hprefix⟩ := rawEnd?_prefix hraw
        rw [List.drop_drop, List.drop_drop] at hprefix
        refine getLast?_of_prefix_drop hprefix (List.cons_ne_nil _ _) ?_
        simp only [List.length_cons, List.length_nil] at hall ⊢
        omega

/-- A text that takes all there is. -/
theorem untilMark_eq_self : ∀ {cs : List Char}, cs.length ≤ (untilMark cs).length → untilMark cs = cs
  | [], _ => rfl
  | c :: cs, h => by
    unfold untilMark at h ⊢
    split at h
    · cases h
    · rename_i hm
      rw [if_neg hm, untilMark_eq_self (Nat.le_of_succ_le_succ h)]

/-- A step inside a marked stretch stays there. -/
theorem insideStep_stays {here : Nat → Where} {depth : Nat} (h : insideStep here depth c cs = .ok s) :
    ∃ depth, s.next = here depth := by
  unfold insideStep at h
  split at h
  · cases h
    exact ⟨_, rfl⟩
  split at h
  · cases h
    exact ⟨_, rfl⟩
  split at h
  · cases h
    exact ⟨_, rfl⟩
  split at h
  · split at h
    · cases h
    · split at h
      · cases h
        exact ⟨_, rfl⟩
      · cases h
  split at h
  · split at h
    · cases h
      exact ⟨_, rfl⟩
    · cases h
  split at h
  · cases h
    exact ⟨_, rfl⟩
  · cases h

/-- **A step that takes an opening brace last and leads outside takes text.** -/
theorem step_brace {w : Where} (h : step w c cs = .ok s) (hlast : (c :: cs).getLast? = some '{') (hall : cs.length ≤ s.more)
    (hnext : s.next.isOutside = true) :
    ∃ trim, w = .outside trim ∧ (trim && Text.isBlank c) = false ∧ mark? (c :: cs) = none ∧
      untilMark (c :: cs) = c :: cs := by
  have hbrace : (c :: cs).getLast? ≠ some '}' := by
    rw [hlast]
    decide
  have hclosed : ∀ {first length trim}, closing? first (c :: cs) = some (length, trim) → cs.length ≤ length - 1 → False :=
    fun hc hle => hbrace (closing?_getLast? hc (Nat.succ_le_succ hle))
  cases w with
  | outside trim =>
    refine ⟨trim, rfl, ?_⟩
    unfold step outsideStep at h
    dsimp only at h
    split at h
    · -- A blank is taken by itself, and is no brace.
      rename_i hblank
      cases h
      obtain rfl : cs = [] := List.eq_nil_of_length_eq_zero (Nat.le_zero.1 hall)
      obtain rfl : c = '{' := Option.some.inj hlast
      have hbrace : Text.isBlank '{' = false := by decide
      rw [hbrace, Bool.and_false] at hblank
      cases hblank
    · rename_i hblank
      refine ⟨Bool.eq_false_iff.2 hblank, ?_⟩
      cases hm : mark? (c :: cs) with
      | some m =>
        rw [hm] at h
        exact absurd (atMark_getLast? h hnext (Nat.succ_le_succ hall)) hbrace
      | none =>
        rw [hm] at h
        cases h
        have htext : untilMark (c :: cs) = c :: untilMark cs := by
          rw [untilMark, hm]
          rfl
        have hall : cs.length ≤ (untilMark (c :: cs)).length - 1 := hall
        rw [htext] at hall
        refine ⟨rfl, ?_⟩
        rw [htext, untilMark_eq_self hall]
  | emit depth =>
    unfold step at h
    dsimp only at h
    split at h
    · rename_i hc
      cases h
      exact (hclosed hc hall).elim
    · obtain ⟨inner, hinner⟩ := insideStep_stays h
      rw [hinner] at hnext
      cases hnext
  | tag depth =>
    unfold step at h
    dsimp only at h
    split at h
    · rename_i hc
      cases h
      exact (hclosed hc hall).elim
    · obtain ⟨inner, hinner⟩ := insideStep_stays h
      rw [hinner] at hnext
      cases hnext

end

/-! ## The tokens of a source that runs into a tag -/

/-- Lexemes whose tags are among those of others, also if the mark of a tag stands in front of them. -/
structure Among (ls ls' : List Lexeme) : Prop where
  first : ∀ w, firstWord? ls = some w → firstWord? ls' = some w
  words : tagWords ls ⊆ tagWords ls'

/-- Lexemes that have no tags and begin with no word. -/
structure Inert (ls : List Lexeme) : Prop where
  first : firstWord? ls = none
  words : tagWords ls = []

theorem Inert.among {ls : List Lexeme} (h : Inert ls) (ls' : List Lexeme) : Among ls ls' where
  first w hw := by
    rw [h.first] at hw
    cases hw
  words := by
    rw [h.words]
    exact List.nil_subset _

/-- A piece of text in front, if it is one. -/
theorem Inert.behind_plain {ls : Lexemes} (h : Inert ls.items) (trim : Bool) (text : List Char) (line : Nat) :
    Inert (ls.behind (plainToken trim text) line).items := by
  unfold plainToken
  generalize (if trim then Text.trimEnd text else text) = kept
  dsimp only
  split
  · exact h
  · exact ⟨rfl, h.words⟩

theorem Among.behind {ls ls' : Lexemes} (h : Among ls.items ls'.items) (token : Option Token) (line : Nat) :
    Among (ls.behind token line).items (ls'.behind token line).items := by
  cases token with
  | none => exact h
  | some t =>
    show Among (⟨t, line⟩ :: ls.items) (⟨t, line⟩ :: ls'.items)
    cases t with
    | tagStart =>
      refine ⟨fun w hw => hw, List.append_subset.2 ⟨?_, ?_⟩⟩
      · intro w hw
        rw [Option.mem_toList] at hw
        exact List.mem_append_left _ (Option.mem_toList.2 (h.first w hw))
      · exact List.Subset.trans h.words (List.subset_append_right _ _)
    | _ => exact ⟨fun w hw => hw, h.words⟩

section
variable {tag : List Char} (htag : IsTag tag)
include htag

/-- A text that ends with a brace loses it to the tag. -/
theorem untilMark_brace : ∀ {cs : List Char}, untilMark cs = cs → cs.getLast? = some '{' →
    untilMark (cs ++ tag) = cs.dropLast
  | [], _, h => nomatch h
  | [c], _, h => by
    obtain ⟨rest, rfl⟩ := htag
    obtain rfl : c = '{' := Option.some.inj h
    rfl
  | c :: d :: cs, hself, h => by
    have hm : mark? (c :: d :: cs) = none := by
      cases hm : mark? (c :: d :: cs) with
      | none => rfl
      | some m =>
        rw [untilMark, hm] at hself
        cases hself
    have hm' : mark? (c :: d :: (cs ++ tag)) = none := by
      rw [mark?_cons_cons, ← mark?_cons_cons c d cs]
      exact hm
    rw [untilMark, hm] at hself
    have ih := untilMark_brace (List.cons.inj hself).2 (by rwa [List.getLast?_cons_cons] at h)
    rw [List.cons_append, List.cons_append, untilMark, hm']
    exact congrArg (c :: ·) ih

/-- **The tags of a source that runs into a tag** are its own, if what the two make has none. -/
theorem scan_brace (hinert : ∀ trim line, Inert (scan (.outside trim) line ('{' :: tag)).items) :
    ∀ (cs : List Char) (w : Where) (line : Nat), cs.getLast? = some '{' → (scan w line cs).fault = none →
      endsOutside w ((scan w line cs).items.getLast?.map (·.token)) = true →
      Among (scan w line (cs ++ tag)).items (scan w line cs).items
  | [], _, _, hlast, _, _ => nomatch hlast
  | c :: cs, w, line, hlast, hfault, hends => by
    cases hs : step w c cs with
    | error fault => exact absurd hfault (fault_scan_cons_of_error hs line)
    | ok s =>
      rw [scan_cons hs, fault_behind] at hfault
      rw [scan_cons hs, endsOutside_behind (step_next hs)] at hends
      by_cases hmore : s.more < cs.length
      · obtain ⟨happend, hle⟩ := step_append htag hs (.inr hmore)
        have hrest : (cs.drop s.more).getLast? = some '{' := by
          rw [List.getLast?_drop, if_neg (Nat.not_le.2 hmore)]
          have hne : cs ≠ [] := List.ne_nil_of_length_pos (Nat.zero_lt_of_lt hmore)
          rwa [List.getLast?_cons_of_ne_nil hne] at hlast
        have ih := scan_brace hinert (cs.drop s.more) s.next (line + newlines ((c :: cs).take (s.more + 1))) hrest hfault hends
        have htake : (c :: (cs ++ tag)).take (s.more + 1) = (c :: cs).take (s.more + 1) := by
          rw [← List.cons_append, List.take_append_of_le_length (Nat.succ_le_succ hle)]
        rw [List.cons_append, scan_cons happend, scan_cons hs, htake, List.drop_append_of_le_length hle]
        exact ih.behind s.token line
      · -- The step takes the brace, so it takes text.
        refine Inert.among ?_ _
        have hall := Nat.not_lt.1 hmore
        rw [List.drop_eq_nil_of_le hall, scan_nil] at hends
        obtain ⟨trim, rfl, hblank, hmark, hself⟩ := step_brace hs hlast hall hends
        cases cs with
        | nil =>
          obtain rfl : c = '{' := Option.some.inj hlast
          exact hinert trim line
        | cons d cs =>
          have htext : untilMark (c :: (d :: cs ++ tag)) = c :: (d :: cs).dropLast := untilMark_brace htag hself hlast
          have hmark : mark? (c :: (d :: cs ++ tag)) = none := by
            rw [List.cons_append, mark?_cons_cons, ← mark?_cons_cons c d cs]
            exact hmark
          have hstep : ∃ trimEnd, step (.outside trim) c (d :: cs ++ tag) =
              .ok ⟨.outside false, (d :: cs).dropLast.length, plainToken trimEnd (c :: (d :: cs).dropLast)⟩ := by
            unfold step outsideStep
            dsimp only
            rw [hblank, if_neg Bool.false_ne_true, hmark, htext]
            exact ⟨_, rfl⟩
          have hdrop : (d :: cs ++ tag).drop (d :: cs).dropLast.length = '{' :: tag := by
            rw [List.getLast?_cons_cons] at hlast
            obtain ⟨front, hfront⟩ := List.getLast?_eq_some_iff.1 hlast
            rw [hfront, List.dropLast_concat, List.append_assoc, List.drop_left]
            rfl
          obtain ⟨trimEnd, hstep⟩ := hstep
          rw [List.cons_append, scan_cons hstep, hdrop]
          exact (hinert _ _).behind_plain _ _ _
termination_by cs => cs.length
decreasing_by
  rw [List.length_drop, List.length_cons]
  omega

end
end Folio.Template
