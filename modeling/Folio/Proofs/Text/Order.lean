import Folio.Proofs.Text.Octets
/-!
# The order of texts is the order of their octets

A character with a greater number has a greater first octet, or the same one and a greater octet after some that are the
same (`utf8EncodeChar_lt`).  So the octets of texts are in the order of the texts (`Bytes.ofText_lt`), and what is
sorted by one is sorted by the other.
-/
namespace Folio.Text

/-- The first octet of a character. -/
def lead (v : Nat) : Nat :=
  if v < 0x80 then v else if v ≤ 0x7FF then 0xC0 + v / 64 else if v ≤ 0xFFFF then 0xE0 + v / 64 ^ 2
  else 0xF0 + v / 64 ^ 3

/-- How many octets follow the first one of a character. -/
def tailCount (v : Nat) : Nat := if v < 0x80 then 0 else if v ≤ 0x7FF then 1 else if v ≤ 0xFFFF then 2 else 3

theorem utf8EncodeChar_eq_lead {v : Nat} (hv : v.isValidChar) :
    String.utf8EncodeChar (Char.ofNat v) = UInt8.ofNat (lead v) :: tails (tailCount v) v := by
  have hmax : v ≤ 0x10FFFF := by
    unfold Nat.isValidChar at hv
    omega
  unfold lead tailCount
  by_cases h1 : v < 0x80
  · rw [if_pos h1, if_pos h1]
    exact utf8EncodeChar_one h1
  rw [if_neg h1, if_neg h1]
  by_cases h2 : v ≤ 0x7FF
  · rw [if_pos h2, if_pos h2]
    exact utf8EncodeChar_two (by omega) h2
  rw [if_neg h2, if_neg h2]
  by_cases h3 : v ≤ 0xFFFF
  · rw [if_pos h3, if_pos h3]
    exact utf8EncodeChar_three hv (by omega) h3
  · rw [if_neg h3, if_neg h3]
    exact utf8EncodeChar_four (by omega) hmax

theorem utf8EncodeChar_char (c : Char) :
    String.utf8EncodeChar c = UInt8.ofNat (lead c.toNat) :: tails (tailCount c.toNat) c.toNat := by
  have hlead := utf8EncodeChar_eq_lead (v := c.toNat) c.valid
  rwa [Char.ofNat_toNat] at hlead

theorem lead_lt {v : Nat} (hv : v ≤ 0x10FFFF) : lead v < 256 := by
  unfold lead
  split
  · omega
  split
  · omega
  split <;> omega

/-- First octets do not fall, and where they stay the same as many octets follow, and the bits are the same so far. -/
theorem lead_lt_or {v w : Nat} (h : v < w) (hw : w ≤ 0x10FFFF) : lead v < lead w ∨
    lead v = lead w ∧ ∃ n, tailCount v = n ∧ tailCount w = n ∧ v / 64 ^ n = w / 64 ^ n := by
  -- Leads start anew above all those with fewer octets behind them.
  have hgap : tailCount v < tailCount w → lead v < lead w := by
    unfold lead tailCount
    intro hlt
    split_ifs at hlt ⊢ <;> omega
  have hsame : tailCount v = tailCount w → lead v < lead w ∨
      lead v = lead w ∧ v / 64 ^ tailCount w = w / 64 ^ tailCount w := by
    unfold lead tailCount
    intro heq
    split_ifs at heq ⊢ <;> omega
  have hle : tailCount v ≤ tailCount w := by
    unfold tailCount
    split_ifs <;> omega
  rcases Nat.lt_or_eq_of_le hle with hlt | heq
  · exact .inl (hgap hlt)
  · exact (hsame heq).imp_right fun hlead => ⟨hlead.1, tailCount w, heq, rfl, hlead.2⟩

theorem ofNat_lt_ofNat {a b : Nat} (h : a < b) (hb : b < 256) : UInt8.ofNat a < UInt8.ofNat b := by
  rw [UInt8.lt_iff_toNat_lt, toNat_ofNat_of_lt (Nat.lt_trans h hb), toNat_ofNat_of_lt hb]
  exact h

/-- Tails that agree up to their first bits are in the order of their characters. -/
theorem tails_lt {v w : Nat} (h : v < w) (xs ys : Bytes) : ∀ n : Nat, v / 64 ^ n = w / 64 ^ n →
    tails n v ++ xs < tails n w ++ ys
  | 0, heq => by
    rw [Nat.pow_zero, Nat.div_one, Nat.div_one] at heq
    omega
  | n + 1, heq => by
    have hle : v / 64 ^ n ≤ w / 64 ^ n := Nat.div_le_div_right (Nat.le_of_lt h)
    have hv := div_pow_succ v n
    have hw := div_pow_succ w n
    rw [tails, tails, List.cons_append, List.cons_append, List.cons_lt_cons_iff]
    rcases Nat.lt_or_eq_of_le hle with hlt | hsame
    · exact .inl (ofNat_lt_ofNat (by omega) (by omega))
    · exact .inr ⟨by rw [hsame], tails_lt h xs ys n hsame⟩

/-- **Octets of characters are in the order of the characters**, whatever follows. -/
theorem utf8EncodeChar_lt {c d : Char} (h : c < d) (xs ys : Bytes) :
    String.utf8EncodeChar c ++ xs < String.utf8EncodeChar d ++ ys := by
  have hlt : c.toNat < d.toNat := h
  have hmax : d.toNat ≤ 0x10FFFF := by
    have hvalid : d.toNat.isValidChar := d.valid
    unfold Nat.isValidChar at hvalid
    omega
  rw [utf8EncodeChar_char c, utf8EncodeChar_char d, List.cons_append, List.cons_append, List.cons_lt_cons_iff]
  rcases lead_lt_or hlt hmax with hlead | ⟨hlead, n, hc, hd, hbits⟩
  · exact .inl (ofNat_lt_ofNat hlead (lead_lt hmax))
  · rw [hlead, hc, hd]
    exact .inr ⟨rfl, tails_lt hlt xs ys n hbits⟩

theorem append_lt_append_left {xs ys : Bytes} (h : xs < ys) : ∀ before : Bytes, before ++ xs < before ++ ys
  | [] => h
  | b :: before => by
    rw [List.cons_append, List.cons_append, List.cons_lt_cons_iff]
    exact .inr ⟨rfl, append_lt_append_left h before⟩

theorem encode_lt : ∀ {cs ds : List Char}, cs < ds → encode cs < encode ds
  | cs, [], h => absurd h (List.not_lt_nil cs)
  | [], d :: ds, _ => by
    show [] < String.utf8EncodeChar d ++ encode ds
    rw [utf8EncodeChar_char]
    exact List.nil_lt_cons _ _
  | c :: cs, d :: ds, h => by
    show String.utf8EncodeChar c ++ encode cs < String.utf8EncodeChar d ++ encode ds
    rcases List.cons_lt_cons_iff.1 h with hlt | ⟨rfl, hrest⟩
    · exact utf8EncodeChar_lt hlt _ _
    · exact append_lt_append_left (encode_lt hrest) _

end Folio.Text

namespace Folio

/-- **The octets of texts are in the order of the texts.** -/
theorem Bytes.ofText_lt {a b : String} (h : a < b) : Bytes.ofText a < Bytes.ofText b :=
  Text.encode_lt h

end Folio
