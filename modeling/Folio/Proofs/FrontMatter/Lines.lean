import Folio.Proofs.FrontMatter.Grammar
/-!
# The line of the body

Splitting counts lines beside the octets it goes through.  The two stay in step: the lines before the one where the body is
said to begin are those of the block, so that dropping them leaves the body (`bodyLine_locates`).  Lines are meant here as
a text is cut by hand, after each of its newlines (`CutAfterNewlines`), which can be done in one way only.
-/
namespace Folio.FrontMatter

/-- Lines of which each but the last ends in its only newline, and which make up a text. -/
inductive CutAfterNewlines : List (List Char) → List Char → Prop
  | none : CutAfterNewlines [] []
  | unfinished {l : List Char} (h : '\n' ∉ l) (hne : l ≠ []) : CutAfterNewlines [l] l
  | cons {l text : List Char} {ls : List (List Char)} (h : IsLine l) (hls : CutAfterNewlines ls text) :
    CutAfterNewlines (l :: ls) (l ++ text)

theorem CutAfterNewlines.eq_lines {ls : List (List Char)} {text : List Char} (h : CutAfterNewlines ls text) :
    ls = lines text := by
  induction h with
  | none => rfl
  | unfinished h hne => rw [lines_of_not_mem h hne]
  | cons h _ ih => rw [lines_append_line h, ← ih]

theorem cutAfterNewlines_lines : ∀ {ls : List (List Char)} {text : List Char}, lines text = ls →
    CutAfterNewlines ls text
  | [], text, h => by
    have htext := flatten_lines text
    rw [h] at htext
    rw [← htext]
    exact .none
  | l :: ls, text, h => by
    have htext := flatten_lines text
    rw [h, List.flatten_cons] at htext
    obtain ⟨hl, hls⟩ := lines_eq_cons h
    rcases hl with hl | ⟨hl, rfl⟩
    · rw [← htext]
      exact .cons hl (cutAfterNewlines_lines hls)
    · rw [List.flatten_nil, List.append_nil] at htext
      subst htext
      refine .unfinished hl fun hnil => ?_
      subst hnil
      cases h

/-- The lines of a text with a block: those of its opening, its YAML, its closing and its rest.  A byte order mark is on
the line of the opening. -/
theorem Parts.IsCut.lines_eq {p : Parts} {raw : List Char} (hp : p.IsCut raw) :
    lines raw = (p.mark ++ p.opening) :: (lines p.yaml ++ p.closing :: lines p.rest) := by
  obtain ⟨rfl, f, h⟩ := hp
  have hopening : IsLine (p.mark ++ p.opening) := by
    rcases h.mark with hm | hm <;> rw [hm]
    · exact h.opening
    · exact h.opening.cons (by decide)
  rw [Parts.text, ← List.append_assoc]
  exact h.lines_front hopening

/-- **The line of the body locates it.**  However a text is cut after each of its newlines, the lines before the one on which
the body begins are there, and dropping them leaves the body and nothing else. -/
theorem bodyLine_locates (raw : List Char) :
    1 ≤ (split raw).bodyLine ∧ (∃ ls, CutAfterNewlines ls raw) ∧
    ∀ ls, CutAfterNewlines ls raw → (split raw).bodyLine ≤ ls.length + 1 ∧
      (ls.drop ((split raw).bodyLine - 1)).flatten = (split raw).body.toList := by
  have hlines : 1 ≤ (split raw).bodyLine ∧ (split raw).bodyLine ≤ (lines raw).length + 1 ∧
      ((lines raw).drop ((split raw).bodyLine - 1)).flatten = (split raw).body.toList := by
    by_cases hcut : ∃ p : Parts, p.IsCut raw
    · obtain ⟨p, hp⟩ := hcut
      -- a closing line counts as one also where the text ends with it, without a newline
      have hfront : lines raw = ((p.mark ++ p.opening) :: lines p.yaml ++ [p.closing]) ++ lines p.rest := by
        rw [hp.lines_eq]
        simp
      have hlength : ((p.mark ++ p.opening) :: lines p.yaml ++ [p.closing]).length = (lines p.yaml).length + 3 - 1 := by
        simp
      rw [hp.split_eq, hfront]
      refine ⟨Nat.le_add_left _ _, ?_, ?_⟩
      · rw [List.length_append, hlength]
        dsimp only
        omega
      · rw [List.drop_left' hlength, flatten_lines, String.toList_ofList]
    · rw [split_eq_of_no_cut hcut]
      simp [flatten_lines]
  obtain ⟨hone, hle, hdrop⟩ := hlines
  refine ⟨hone, ⟨_, cutAfterNewlines_lines rfl⟩, fun ls hls => ?_⟩
  rw [hls.eq_lines]
  exact ⟨hle, hdrop⟩

/-- A byte order mark, endings of two characters, and a closing line that ends the text. -/
theorem bodyLine_locates_marked :
    (split "\ufeff---\r\na: 1\r\n...".toList).bodyLine = 4 ∧
    CutAfterNewlines ["\ufeff---\r\n".toList, "a: 1\r\n".toList, "...".toList] "\ufeff---\r\na: 1\r\n...".toList ∧
    (["\ufeff---\r\n".toList, "a: 1\r\n".toList, "...".toList].drop 3).flatten =
      (split "\ufeff---\r\na: 1\r\n...".toList).body.toList := by
  have hline : (split "\ufeff---\r\na: 1\r\n...".toList).bodyLine = 4 := by decide +kernel
  have hcut : CutAfterNewlines ["\ufeff---\r\n".toList, "a: 1\r\n".toList, "...".toList]
      "\ufeff---\r\na: 1\r\n...".toList := cutAfterNewlines_lines (by decide +kernel)
  obtain ⟨-, -, hlocates⟩ := bodyLine_locates "\ufeff---\r\na: 1\r\n...".toList
  have hdrop := (hlocates _ hcut).2
  rw [hline] at hdrop
  exact ⟨hline, hcut, hdrop⟩

end Folio.FrontMatter
