import Folio.Proofs.Text.Octets
import Mathlib.Data.List.Forall2
/-!
# Letters of either case

Two texts that differ in the case of letters of ASCII only are the same in small letters (`recased_iff`), and so are their
octets (`recasedOctets_iff`).  Reading octets as text keeps the two together (`decode?_small`): the octets of a character
outside ASCII are no letters, so octets are UTF-8 in one case exactly if they are in the other.
-/
namespace Folio.Text

/-- Numbers of the same character, or of the capital and the small form of one letter of ASCII. -/
def SameLetter (n k : Nat) : Prop :=
  n = k ∨ (65 ≤ n ∧ n ≤ 90 ∧ k = n + 32) ∨ (65 ≤ k ∧ k ≤ 90 ∧ n = k + 32)

def Recased (cs ds : List Char) : Prop := List.Forall₂ (fun c d => SameLetter c.toNat d.toNat) cs ds

def RecasedOctets (bs cs : Bytes) : Prop := List.Forall₂ (fun b c => SameLetter b.toNat c.toNat) bs cs

/-! ## Small letters -/

/-- The number of the small form of a letter. -/
def smallNumber (n : Nat) : Nat := if 65 ≤ n ∧ n ≤ 90 then n + 32 else n

theorem smallNumber_eq_iff {n k : Nat} : smallNumber n = smallNumber k ↔ SameLetter n k := by
  unfold smallNumber SameLetter
  split <;> split <;> omega

theorem toNat_toLower (c : Char) : c.toLower.toNat = smallNumber c.toNat := by
  unfold Char.toLower smallNumber
  by_cases h : 65 ≤ c.toNat ∧ c.toNat ≤ 90
  · rw [dif_pos ⟨h.1, h.2⟩, if_pos h]
    show (c.toNat + 32) % 2 ^ 32 = c.toNat + 32
    omega
  · rw [dif_neg fun hcapital => h ⟨hcapital.1, hcapital.2⟩, if_neg h]

def small (b : UInt8) : UInt8 := UInt8.ofNat (smallNumber b.toNat)

theorem toNat_small (b : UInt8) : (small b).toNat = smallNumber b.toNat := by
  have hlt := b.toNat_lt
  refine toNat_ofNat_of_lt ?_
  unfold smallNumber
  split <;> omega

theorem toLower_eq_iff {c d : Char} : c.toLower = d.toLower ↔ SameLetter c.toNat d.toNat := by
  rw [← Char.toNat_inj, toNat_toLower, toNat_toLower, smallNumber_eq_iff]

theorem small_eq_iff {b c : UInt8} : small b = small c ↔ SameLetter b.toNat c.toNat := by
  rw [← UInt8.toNat_inj, toNat_small, toNat_small, smallNumber_eq_iff]

/-- **What differs in the case of letters is the same in small letters.** -/
theorem recased_iff {cs ds : List Char} : Recased cs ds ↔ cs.map Char.toLower = ds.map Char.toLower := by
  rw [← List.forall₂_eq_eq_eq, List.forall₂_map_left_iff, List.forall₂_map_right_iff]
  simp only [toLower_eq_iff]
  rfl

theorem recasedOctets_iff {bs cs : Bytes} : RecasedOctets bs cs ↔ bs.map small = cs.map small := by
  rw [← List.forall₂_eq_eq_eq, List.forall₂_map_left_iff, List.forall₂_map_right_iff]
  simp only [small_eq_iff]
  rfl

theorem sameLetter_iff_eq {n k : Nat} (h : k < 65) : SameLetter n k ↔ n = k := by
  unfold SameLetter
  omega

theorem toLower_eq_dot_iff {c : Char} : c.toLower = '.' ↔ c = '.' := by
  have hdot : c.toLower = '.'.toLower ↔ c.toNat = '.'.toNat := by
    rw [toLower_eq_iff, sameLetter_iff_eq (by decide)]
  rwa [Char.toNat_inj] at hdot

theorem small_eq_iff_of_lt {b d : UInt8} (h : d.toNat < 65) : small b = d ↔ b = d := by
  have hd : small d = d := by
    rw [← UInt8.toNat_inj, toNat_small, smallNumber, if_neg (by omega)]
  conv_lhs => rw [← hd]
  rw [small_eq_iff, sameLetter_iff_eq h, UInt8.toNat_inj]

theorem toLower_toLower (c : Char) : c.toLower.toLower = c.toLower := by
  rw [← Char.toNat_inj, toNat_toLower, toNat_toLower]
  unfold smallNumber
  split_ifs <;> omega

/-! ## Octets of texts in small letters -/

theorem le_of_mem_tails {b : UInt8} {v : Nat} : ∀ {n : Nat}, b ∈ tails n v → 0x80 ≤ b.toNat
  | n + 1, h => by
    rcases List.mem_cons.1 h with rfl | h
    · rw [toNat_ofNat_of_lt (by omega)]
      omega
    · exact le_of_mem_tails h

theorem le_of_mem_utf8EncodeChar {c : Char} (hc : 0x80 ≤ c.toNat) {b : UInt8} (hb : b ∈ String.utf8EncodeChar c) :
    0x80 ≤ b.toNat := by
  rcases utf8EncodeChar_cases (v := c.toNat) c.valid with ⟨hlt, -⟩ | ⟨lead, q, hspelling, hfirst, -, -⟩
  · omega
  rw [Char.ofNat_toNat] at hspelling
  rw [hspelling] at hb
  rcases List.mem_cons.1 hb with rfl | hb
  · obtain ⟨-, ⟨h, -⟩ | ⟨h, -⟩ | ⟨h, -⟩⟩ := of_first_eq_some hfirst <;> omega
  · exact le_of_mem_tails hb

theorem small_eq_self {b : UInt8} (h : 0x80 ≤ b.toNat) : small b = b := by
  rw [← UInt8.toNat_inj, toNat_small, smallNumber, if_neg (by omega)]

theorem utf8EncodeChar_ascii {c : Char} (h : c.toNat < 0x80) : String.utf8EncodeChar c = [UInt8.ofNat c.toNat] := by
  have hone := utf8EncodeChar_one h
  rwa [Char.ofNat_toNat] at hone

theorem map_small_utf8EncodeChar (c : Char) :
    (String.utf8EncodeChar c).map small = String.utf8EncodeChar c.toLower := by
  have hsmall := toNat_toLower c
  by_cases hc : c.toNat < 0x80
  · have hlt : smallNumber c.toNat < 0x80 := by
      unfold smallNumber
      split <;> omega
    rw [utf8EncodeChar_ascii hc, utf8EncodeChar_ascii (hsmall ▸ hlt), hsmall, List.map_singleton, small,
      toNat_ofNat_of_lt (by omega)]
  · have hsame : c.toLower = c := by
      rw [← Char.toNat_inj, hsmall, smallNumber, if_neg (by omega)]
    rw [hsame]
    exact (List.map_congr_left fun b hb => small_eq_self (le_of_mem_utf8EncodeChar (by omega) hb)).trans (List.map_id _)

theorem map_small_encode (cs : List Char) : (encode cs).map small = encode (cs.map Char.toLower) := by
  simp only [encode, List.map_flatMap, List.flatMap_map, map_small_utf8EncodeChar]

/-- What is UTF-8 in small letters is UTF-8. -/
theorem exists_encode_of_map_small : ∀ {ds : List Char} {bs : Bytes}, bs.map small = encode ds → ∃ cs, bs = encode cs
  | [], bs, h => ⟨[], List.map_eq_nil_iff.1 h⟩
  | d :: ds, bs, h => by
    obtain ⟨xs, ys, rfl, hxs, hys⟩ := List.map_eq_append_iff.1 (h : bs.map small = String.utf8EncodeChar d ++ encode ds)
    obtain ⟨cs, rfl⟩ := exists_encode_of_map_small hys
    by_cases hd : d.toNat < 0x80
    · rw [utf8EncodeChar_ascii hd, List.map_eq_singleton_iff] at hxs
      obtain ⟨b, rfl, hb⟩ := hxs
      have hlt : b.toNat < 0x80 := by
        have hnumber := congrArg UInt8.toNat hb
        rw [toNat_small, toNat_ofNat_of_lt (by omega), smallNumber] at hnumber
        split at hnumber <;> omega
      refine ⟨Char.ofNat b.toNat :: cs, ?_⟩
      show [b] ++ encode cs = String.utf8EncodeChar (Char.ofNat b.toNat) ++ encode cs
      rw [utf8EncodeChar_one hlt, UInt8.ofNat_toNat]
    · -- Octets outside ASCII are no letters.
      have hsame : xs.map small = xs := by
        refine (List.map_congr_left fun b hb => ?_).trans (List.map_id _)
        have hle := le_of_mem_utf8EncodeChar (by omega : 0x80 ≤ d.toNat) (hxs ▸ List.mem_map_of_mem hb)
        rw [toNat_small, smallNumber] at hle
        refine small_eq_self ?_
        split at hle <;> omega
      rw [hsame] at hxs
      exact ⟨d :: cs, by rw [hxs]; rfl⟩

/-- **Octets and their text are brought into small letters alike**, and the case of letters does not make them UTF-8. -/
theorem decode?_small (bs : Bytes) : decode? (bs.map small) = (decode? bs).map (·.map Char.toLower) := by
  cases hcs : decode? bs with
  | some cs =>
    rw [← encode_of_decode? hcs, map_small_encode, decode?_encode]
    rfl
  | none =>
    cases hds : decode? (bs.map small) with
    | none => rfl
    | some ds =>
      obtain ⟨cs, rfl⟩ := exists_encode_of_map_small (encode_of_decode? hds).symm
      rw [decode?_encode] at hcs
      cases hcs

end Folio.Text
