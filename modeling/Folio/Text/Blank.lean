/-!
# Blank characters and trimming

A character is blank when it has the Unicode property `White_Space`.  Trimming drops the longest blank run
at an end of a text and nothing else: `trimEnd_append_of_blank` says what it drops, `trimEnd_concat` what it keeps.
-/
namespace Folio.Text

/-- The Unicode property `White_Space`. -/
def isBlank (c : Char) : Bool :=
  let n := c.toNat
  (9 ≤ n && n ≤ 13) || n == 0x20 || n == 0x85 || n == 0xA0 || n == 0x1680 || (0x2000 ≤ n && n ≤ 0x200A)
    || n == 0x2028 || n == 0x2029 || n == 0x202F || n == 0x205F || n == 0x3000

theorem range_of_isAlphanum {c : Char} (h : c.isAlphanum = true) :
    (48 ≤ c.toNat ∧ c.toNat ≤ 57) ∨ (65 ≤ c.toNat ∧ c.toNat ≤ 90) ∨ (97 ≤ c.toNat ∧ c.toNat ≤ 122) := by
  -- The library states no bounds for these kinds: they are read off its definitions.
  have hkind : ((c.isUpper || c.isLower) || c.isDigit) = true := h
  rw [Bool.or_eq_true, Bool.or_eq_true] at hkind
  rcases hkind with (hupper | hlower) | hdigit
  · have hbounds := of_decide_eq_true hupper
    exact .inr (.inl ⟨UInt32.le_iff_toNat_le.1 hbounds.1, UInt32.le_iff_toNat_le.1 hbounds.2⟩)
  · have hbounds := Bool.and_eq_true_iff.1 hlower
    exact .inr (.inr ⟨UInt32.le_iff_toNat_le.1 (of_decide_eq_true hbounds.1),
      UInt32.le_iff_toNat_le.1 (of_decide_eq_true hbounds.2)⟩)
  · have hbounds := Bool.and_eq_true_iff.1 hdigit
    exact .inl ⟨UInt32.le_iff_toNat_le.1 (of_decide_eq_true hbounds.1),
      UInt32.le_iff_toNat_le.1 (of_decide_eq_true hbounds.2)⟩

theorem isBlank_of_isAlphanum {c : Char} (h : c.isAlphanum = true) : isBlank c = false := by
  have hrange := range_of_isAlphanum h
  unfold isBlank
  simp only [Bool.or_eq_false_iff, Bool.and_eq_false_iff, decide_eq_false_iff_not, beq_eq_false_iff_ne]
  omega

def trimStart (cs : List Char) : List Char := cs.dropWhile isBlank

def trimEnd (cs : List Char) : List Char := (cs.reverse.dropWhile isBlank).reverse

def trim (cs : List Char) : List Char := trimEnd (trimStart cs)

/-- A blank tail is dropped. -/
theorem trimEnd_append_of_blank (cs bs : List Char) (h : ∀ c ∈ bs, isBlank c = true) :
    trimEnd (cs ++ bs) = trimEnd cs := by
  unfold trimEnd
  rw [List.reverse_append, List.dropWhile_append_of_pos]
  intro c hc
  exact h c (List.mem_reverse.1 hc)

/-- A text that ends in a character which is not blank is kept whole. -/
theorem trimEnd_concat (cs : List Char) (c : Char) (h : isBlank c = false) : trimEnd (cs ++ [c]) = cs ++ [c] := by
  simp [trimEnd, h]

theorem trim_ne_nil {c : Char} (h : isBlank c = false) (cs : List Char) : trim (c :: cs) ≠ [] := by
  have hstart : trimStart (c :: cs) = c :: cs := List.dropWhile_cons_of_neg (by rw [h]; exact Bool.false_ne_true)
  rw [trim, hstart, trimEnd, List.reverse_cons, List.dropWhile_append]
  split <;> simp [h]

@[simp] theorem trimEnd_nil : trimEnd [] = [] := rfl

/-- What is kept stands at the start. -/
theorem trimEnd_prefix (cs : List Char) : trimEnd cs <+: cs :=
  List.reverse_suffix.1 (by rw [trimEnd, List.reverse_reverse]; exact List.dropWhile_suffix _)

end Folio.Text
