import Mathlib.Tactic.IntervalCases
import Folio.Text.Utf8
/-!
# Text and its octets

A character begun by some octets may still be any of those whose spelling goes on from there (`Partial.Opens`), and each
octet that is accepted keeps it so (`pending_step`).  So the octets of a text that was read strictly are the octets that
were read (`encode_of_decode?`), the text of encoded characters is these characters (`decode?_encode`), and octets survive
being read as text and written again exactly if they are UTF-8 (`encode_decode_eq_iff`).
-/
namespace Folio.Text

/-! ## Spelling -/

/-- The last `n` octets of the character with a number, six bits in each. -/
def tails : Nat → Nat → Bytes
  | 0, _ => []
  | n + 1, v => UInt8.ofNat (0x80 + v / 64 ^ n % 64) :: tails n v

theorem toNat_ofNat_of_lt {n : Nat} (h : n < 256) : (UInt8.ofNat n).toNat = n := by
  rw [UInt8.toNat_ofNat']
  exact Nat.mod_eq_of_lt h

theorem ofNat_eq_of_toNat {n : Nat} {b : UInt8} (h : n = b.toNat) : UInt8.ofNat n = b := by
  rw [h, UInt8.ofNat_toNat]

theorem toNat_ofNat_of_isValidChar {v : Nat} (h : v.isValidChar) : (Char.ofNat v).val.toNat = v := by
  rw [Char.ofNat, dif_pos h]
  rfl

theorem div_pow_succ (v n : Nat) : v / 64 ^ (n + 1) * 64 + v / 64 ^ n % 64 = v / 64 ^ n := by
  rw [Nat.pow_succ, ← Nat.div_div_eq_div_mul]
  omega

section
variable {v : Nat}

theorem utf8EncodeChar_one (h : v < 0x80) : String.utf8EncodeChar (Char.ofNat v) = [UInt8.ofNat v] := by
  have hv : v.isValidChar := Or.inl (by omega)
  rw [String.utf8EncodeChar, toNat_ofNat_of_isValidChar hv]
  simp only [if_pos (show v ≤ 127 by omega)]

theorem utf8EncodeChar_two (h : 0x80 ≤ v) (h' : v ≤ 0x7FF) :
    String.utf8EncodeChar (Char.ofNat v) = UInt8.ofNat (0xC0 + v / 64) :: tails 1 v := by
  have hv : v.isValidChar := Or.inl (by omega)
  rw [String.utf8EncodeChar, toNat_ofNat_of_isValidChar hv]
  simp only [tails, Nat.pow_zero, Nat.div_one]
  rw [if_neg (by omega), if_pos (by omega), Nat.mod_eq_of_lt (by omega), Nat.add_comm _ 0xC0, Nat.add_comm _ 0x80]

theorem utf8EncodeChar_three (hv : v.isValidChar) (h : 0x800 ≤ v) (h' : v ≤ 0xFFFF) :
    String.utf8EncodeChar (Char.ofNat v) = UInt8.ofNat (0xE0 + v / 64 ^ 2) :: tails 2 v := by
  rw [String.utf8EncodeChar, toNat_ofNat_of_isValidChar hv]
  simp only [tails, Nat.pow_zero, Nat.div_one, Nat.pow_one, Nat.reducePow]
  rw [if_neg (by omega), if_neg (by omega), if_pos (by omega), Nat.mod_eq_of_lt (by omega), Nat.add_comm _ 0xE0,
    Nat.add_comm _ 0x80, Nat.add_comm _ 0x80]

theorem utf8EncodeChar_four (h : 0x10000 ≤ v) (h' : v ≤ 0x10FFFF) :
    String.utf8EncodeChar (Char.ofNat v) = UInt8.ofNat (0xF0 + v / 64 ^ 3) :: tails 3 v := by
  have hv : v.isValidChar := Or.inr ⟨by omega, by omega⟩
  rw [String.utf8EncodeChar, toNat_ofNat_of_isValidChar hv]
  simp only [tails, Nat.pow_zero, Nat.div_one, Nat.pow_one, Nat.reducePow]
  rw [if_neg (by omega), if_neg (by omega), if_neg (by omega), Nat.mod_eq_of_lt (by omega), Nat.add_comm _ 0xF0,
    Nat.add_comm _ 0x80, Nat.add_comm _ 0x80, Nat.add_comm _ 0x80]

end

/-! ## Characters begun -/

/-- A character with this number may still be read. -/
structure Partial.Allows (p : Partial) (v : Nat) : Prop where
  bits : v / 64 ^ p.owed = p.bits
  low : p.low ≤ 0x80 + v / 64 ^ (p.owed - 1) % 64
  high : 0x80 + v / 64 ^ (p.owed - 1) % 64 ≤ p.high

/-- All octets that are owed are tails. -/
structure Partial.Sound (p : Partial) : Prop where
  owed : 0 < p.owed
  low : 0x80 ≤ p.low
  high : p.high ≤ 0xBF

/-- The characters that may still be read are those that `read` begins. -/
structure Partial.Opens (p : Partial) (read : Bytes) : Prop extends p.Sound where
  spells : ∀ v, p.Allows v → v.isValidChar ∧ String.utf8EncodeChar (Char.ofNat v) = read ++ tails p.owed v

/-! ### First octets -/

/-- Behind the first of two octets. -/
def afterTwo (b : Nat) : Partial := ⟨1, 0x80, 0xBF, b - 0xC0⟩

/-- Behind the first of three octets; neither longer spellings than needed nor surrogates are read. -/
def afterThree (b : Nat) : Partial :=
  ⟨2, if b = 0xE0 then 0xA0 else 0x80, if b = 0xED then 0x9F else 0xBF, b - 0xE0⟩

/-- Behind the first of four octets; neither longer spellings than needed nor numbers out of range are read. -/
def afterFour (b : Nat) : Partial :=
  ⟨3, if b = 0xF0 then 0x90 else 0x80, if b = 0xF4 then 0x8F else 0xBF, b - 0xF0⟩

theorem sound_afterTwo (b : Nat) : (afterTwo b).Sound := ⟨Nat.one_pos, Nat.le_refl _, Nat.le_refl _⟩

theorem sound_afterThree (b : Nat) : (afterThree b).Sound := by
  refine ⟨Nat.succ_pos _, ?_, ?_⟩
  · dsimp only [afterThree]
    split <;> omega
  · dsimp only [afterThree]
    split <;> omega

theorem sound_afterFour (b : Nat) : (afterFour b).Sound := by
  refine ⟨Nat.succ_pos _, ?_, ?_⟩
  · dsimp only [afterFour]
    split <;> omega
  · dsimp only [afterFour]
    split <;> omega

section
variable {b : Nat}

theorem first_one (h : b < 0x80) : first b = ([Char.ofNat b], none) := by simp [first, h]

theorem first_two (h : 0xC2 ≤ b) (h' : b ≤ 0xDF) : first b = ([], some (afterTwo b)) := by
  simp [first, afterTwo, h, h', show ¬ b < 0x80 by omega]

theorem first_three (h : 0xE0 ≤ b) (h' : b ≤ 0xEF) : first b = ([], some (afterThree b)) := by
  interval_cases b <;> rfl

theorem first_four (h : 0xF0 ≤ b) (h' : b ≤ 0xF4) : first b = ([], some (afterFour b)) := by
  interval_cases b <;> rfl

/-- **All that an octet can begin.** -/
theorem of_first_eq_some {cs : List Char} {p : Partial} (h : first b = (cs, some p)) :
    cs = [] ∧ ((0xC2 ≤ b ∧ b ≤ 0xDF ∧ p = afterTwo b) ∨ (0xE0 ≤ b ∧ b ≤ 0xEF ∧ p = afterThree b) ∨
      (0xF0 ≤ b ∧ b ≤ 0xF4 ∧ p = afterFour b)) := by
  by_cases h2 : 0xC2 ≤ b ∧ b ≤ 0xDF
  · rw [first_two h2.1 h2.2] at h
    cases h
    exact ⟨rfl, Or.inl ⟨h2.1, h2.2, rfl⟩⟩
  by_cases h3 : 0xE0 ≤ b ∧ b ≤ 0xEF
  · rw [first_three h3.1 h3.2] at h
    cases h
    exact ⟨rfl, Or.inr (Or.inl ⟨h3.1, h3.2, rfl⟩)⟩
  by_cases h4 : 0xF0 ≤ b ∧ b ≤ 0xF4
  · rw [first_four h4.1 h4.2] at h
    cases h
    exact ⟨rfl, Or.inr (Or.inr ⟨h4.1, h4.2, rfl⟩)⟩
  -- No other octet begins anything.
  have hnone : (first b).2 = none := by
    by_cases h1 : b < 0x80
    · rw [first_one h1]
    · simp [first, h1, h2, show b ≠ 0xE0 by omega, show b ≠ 0xED by omega, show b ≠ 0xF0 by omega,
        show b ≠ 0xF4 by omega, show ¬ (0xE1 ≤ b ∧ b ≤ 0xEF) by omega, show ¬ (0xF1 ≤ b ∧ b ≤ 0xF3) by omega]
  rw [h] at hnone
  cases hnone

end

/-- **An octet that begins characters is their first one.** -/
theorem opens_of_first {b : UInt8} {cs : List Char} {p : Partial} (h : first b.toNat = (cs, some p)) :
    cs = [] ∧ p.Opens [b] := by
  obtain ⟨hcs, ⟨hlow, hhigh, rfl⟩ | ⟨hlow, hhigh, rfl⟩ | ⟨hlow, hhigh, rfl⟩⟩ := of_first_eq_some h
  · refine ⟨hcs, sound_afterTwo _, fun v hv => ?_⟩
    have hbits : v / 64 = b.toNat - 0xC0 := by simpa [afterTwo] using hv.bits
    refine ⟨Or.inl (by omega), ?_⟩
    rw [utf8EncodeChar_two (by omega) (by omega), ofNat_eq_of_toNat (b := b) (by omega)]
    rfl
  · refine ⟨hcs, sound_afterThree _, fun v hv => ?_⟩
    have hbits : v / 4096 = b.toNat - 0xE0 := by simpa [afterThree] using hv.bits
    have hnextLow := hv.low
    have hnextHigh := hv.high
    simp only [afterThree, Nat.reduceSub, Nat.pow_one] at hnextLow hnextHigh
    have hvalid : v.isValidChar ∧ 0x800 ≤ v := by
      unfold Nat.isValidChar
      split at hnextLow <;> split at hnextHigh <;> omega
    refine ⟨hvalid.1, ?_⟩
    rw [utf8EncodeChar_three hvalid.1 hvalid.2 (by omega), ofNat_eq_of_toNat (b := b) (by omega)]
    rfl
  · refine ⟨hcs, sound_afterFour _, fun v hv => ?_⟩
    have hbits : v / 262144 = b.toNat - 0xF0 := by simpa [afterFour] using hv.bits
    have hnextLow := hv.low
    have hnextHigh := hv.high
    simp only [afterFour, Nat.reduceSub, Nat.reducePow] at hnextLow hnextHigh
    have hvalid : 0x10000 ≤ v ∧ v ≤ 0x10FFFF := by
      split at hnextLow <;> split at hnextHigh <;> omega
    refine ⟨Or.inr ⟨by omega, by omega⟩, ?_⟩
    rw [utf8EncodeChar_four hvalid.1 hvalid.2, ofNat_eq_of_toNat (b := b) (by omega)]
    rfl

/-- **Every character is one octet, or is begun by its first one.** -/
theorem utf8EncodeChar_cases {v : Nat} (hv : v.isValidChar) :
    (v < 0x80 ∧ String.utf8EncodeChar (Char.ofNat v) = [UInt8.ofNat v]) ∨
    ∃ b p, String.utf8EncodeChar (Char.ofNat v) = b :: tails p.owed v ∧ first b.toNat = ([], some p) ∧
      p.Sound ∧ p.Allows v := by
  have hmax : v ≤ 0x10FFFF ∧ (v < 0xD800 ∨ 0xDFFF < v) := by
    unfold Nat.isValidChar at hv
    omega
  by_cases h1 : v < 0x80
  · exact Or.inl ⟨h1, utf8EncodeChar_one h1⟩
  refine Or.inr ?_
  by_cases h2 : v ≤ 0x7FF
  · have hb := toNat_ofNat_of_lt (n := 0xC0 + v / 64) (by omega)
    refine ⟨_, _, utf8EncodeChar_two (by omega) h2, first_two (by omega) (by omega), sound_afterTwo _, ?_⟩
    rw [hb]
    exact ⟨by simp [afterTwo], by simp [afterTwo], by simp [afterTwo]; omega⟩
  by_cases h3 : v ≤ 0xFFFF
  · have hb := toNat_ofNat_of_lt (n := 0xE0 + v / 64 ^ 2) (by omega)
    refine ⟨_, _, utf8EncodeChar_three hv (by omega) h3, first_three (by omega) (by omega), sound_afterThree _, ?_⟩
    rw [hb]
    refine ⟨by simp [afterThree], ?_, ?_⟩
    · simp only [afterThree, Nat.reduceSub, Nat.pow_one]
      split <;> omega
    · simp only [afterThree, Nat.reduceSub, Nat.pow_one]
      split <;> omega
  · have hb := toNat_ofNat_of_lt (n := 0xF0 + v / 64 ^ 3) (by omega)
    refine ⟨_, _, utf8EncodeChar_four (by omega) (by omega), first_four (by omega) (by omega), sound_afterFour _, ?_⟩
    rw [hb]
    refine ⟨by simp [afterFour], ?_, ?_⟩
    · simp only [afterFour, Nat.reduceSub, Nat.reducePow]
      split <;> omega
    · simp only [afterFour, Nat.reduceSub, Nat.reducePow]
      split <;> omega

/-! ## Reading octets strictly -/

theorem step_some {p : Partial} {b : UInt8} (h : p.low ≤ b.toNat ∧ b.toNat ≤ p.high) : step (some p) b =
    if p.owed ≤ 1 then ([Char.ofNat (p.bits * 64 + b.toNat % 64)], none)
    else ([], some ⟨p.owed - 1, 0x80, 0xBF, p.bits * 64 + b.toNat % 64⟩) := by
  rw [step, if_pos (by simpa using h)]

theorem decodeStrictFrom_cons {q : Option Partial} {b : UInt8} (bs : Bytes) (h : accepts q b = true) :
    decodeStrictFrom q (b :: bs) = ((step q b).1 ++ ·) <$> decodeStrictFrom (step q b).2 bs := by
  cases q <;> simp [decodeStrictFrom, h]

/-- **The tails of a character complete it.** -/
theorem decodeStrictFrom_tails {v : Nat} (rest : Bytes) : ∀ {n : Nat} {p : Partial}, p.owed = n + 1 → p.Sound → p.Allows v →
    decodeStrictFrom (some p) (tails (n + 1) v ++ rest) = (Char.ofNat v :: ·) <$> decodeStrictFrom none rest
  | n, p, howed, hsound, hallows => by
    have hlow := hallows.low
    have hhigh := hallows.high
    have hbits := hallows.bits
    have h64 := hsound.high
    rw [howed, Nat.add_sub_cancel] at hlow hhigh
    rw [howed] at hbits
    have hb := toNat_ofNat_of_lt (n := 0x80 + v / 64 ^ n % 64) (by omega)
    have hrange : p.low ≤ (UInt8.ofNat (0x80 + v / 64 ^ n % 64)).toNat ∧
        (UInt8.ofNat (0x80 + v / 64 ^ n % 64)).toNat ≤ p.high := by
      rw [hb]
      exact ⟨hlow, hhigh⟩
    have hnext : p.bits * 64 + (0x80 + v / 64 ^ n % 64) % 64 = v / 64 ^ n := by
      rw [← hbits, ← div_pow_succ v n]
      omega
    rw [tails, List.cons_append, decodeStrictFrom_cons _ (by simpa [accepts] using hrange), step_some hrange, hb, hnext]
    cases n with
    | zero =>
      rw [if_pos (by omega), Nat.pow_zero, Nat.div_one]
      rfl
    | succ n =>
      rw [if_neg (by omega)]
      simp only [List.nil_append, id_map']
      refine decodeStrictFrom_tails rest (by simp [howed]) ⟨by simp [howed], Nat.le_refl _, Nat.le_refl _⟩ ⟨?_, ?_, ?_⟩
      · simp [howed]
      · simp
      · simp
        omega

theorem decodeStrictFrom_utf8EncodeChar (c : Char) (rest : Bytes) :
    decodeStrictFrom none (String.utf8EncodeChar c ++ rest) = (c :: ·) <$> decodeStrictFrom none rest := by
  obtain ⟨v, hv, rfl⟩ : ∃ v, v.isValidChar ∧ Char.ofNat v = c := ⟨c.toNat, c.valid, Char.ofNat_toNat c⟩
  rcases utf8EncodeChar_cases hv with ⟨h1, hspelling⟩ | ⟨b, p, hspelling, hfirst, hsound, hallows⟩
  · have hb := toNat_ofNat_of_lt (n := v) (by omega)
    have hstep : step none (UInt8.ofNat v) = ([Char.ofNat v], none) := by
      rw [step, hb, first_one h1]
    rw [hspelling, List.singleton_append, decodeStrictFrom_cons _ (by simp [accepts, hb, h1]), hstep]
    rfl
  · have hstep : step none b = ([], some p) := hfirst
    obtain ⟨n, hn⟩ := Nat.exists_eq_add_of_lt hsound.owed
    rw [Nat.zero_add] at hn
    rw [hspelling, List.cons_append, decodeStrictFrom_cons _ (by simp [accepts, hfirst]), hstep]
    simp only [List.nil_append, id_map']
    rw [hn, decodeStrictFrom_tails rest hn hsound hallows]

/-- **Characters that were written are read again.** -/
theorem decode?_encode (cs : List Char) : decode? (encode cs) = some cs := by
  induction cs with
  | nil => rfl
  | cons c cs ih =>
    rw [decode?] at ih ⊢
    rw [encode, List.flatMap_cons, decodeStrictFrom_utf8EncodeChar, ← encode, ih]
    rfl

/-- The octets read of a character that is still open. -/
def Pending : Option Partial → Bytes → Prop
  | none, read => read = []
  | some p, read => p.Opens read

/-- **An octet that is accepted** ends what was read, or is read for the same character. -/
theorem pending_step {q : Option Partial} {read : Bytes} {b : UInt8} (hq : Pending q read) (hb : accepts q b = true) :
    ∃ read', Pending (step q b).2 read' ∧ encode (step q b).1 ++ read' = read ++ [b] := by
  cases q with
  | none =>
    obtain rfl : read = [] := hq
    cases hfirst : (first b.toNat).2 with
    | some p =>
      obtain ⟨hcs, hopens⟩ := opens_of_first (b := b) (Prod.ext rfl hfirst)
      refine ⟨[b], by rw [step, hfirst]; exact hopens, ?_⟩
      rw [show (step none b).1 = [] from hcs]
      rfl
    | none =>
      have hb1 : b.toNat < 0x80 := by simpa [accepts, hfirst] using hb
      refine ⟨[], by rw [step, first_one hb1]; rfl, ?_⟩
      simp [step, first_one hb1, encode, utf8EncodeChar_one hb1]
  | some p =>
    have hopens : p.Opens read := hq
    have hrange : p.low ≤ b.toNat ∧ b.toNat ≤ p.high := by simpa [accepts] using hb
    have hlow := hopens.low
    have hhigh := hopens.high
    have howed := hopens.owed
    -- Among the characters that may be read are those that go on with this octet.
    have hspells : ∀ v, v / 64 ^ (p.owed - 1) = p.bits * 64 + b.toNat % 64 → v.isValidChar ∧
        String.utf8EncodeChar (Char.ofNat v) = read ++ b :: tails (p.owed - 1) v := by
      intro v hv
      obtain ⟨n, hn⟩ := Nat.exists_eq_add_of_lt howed
      rw [Nat.zero_add] at hn
      have hbits := div_pow_succ v n
      rw [hn, Nat.add_sub_cancel] at hv
      have hallows : p.Allows v := by
        constructor
        · rw [hn]
          omega
        · rw [hn, Nat.add_sub_cancel]
          omega
        · rw [hn, Nat.add_sub_cancel]
          omega
      obtain ⟨hvalid, hspelling⟩ := hopens.spells v hallows
      rw [hn, tails, ofNat_eq_of_toNat (b := b) (by omega)] at hspelling
      exact ⟨hvalid, by rw [hn, Nat.add_sub_cancel, hspelling]⟩
    rw [step_some hrange]
    by_cases hlast : p.owed ≤ 1
    · have hone : p.owed - 1 = 0 := by omega
      obtain ⟨-, hspelling⟩ := hspells (p.bits * 64 + b.toNat % 64) (by rw [hone, Nat.pow_zero, Nat.div_one])
      rw [if_pos hlast]
      refine ⟨[], rfl, ?_⟩
      rw [encode, List.flatMap_singleton, hspelling, hone, tails, List.append_nil]
    · rw [if_neg hlast]
      refine ⟨read ++ [b], ⟨⟨by simp; omega, Nat.le_refl _, Nat.le_refl _⟩, fun v hv => ?_⟩, rfl⟩
      rw [List.append_assoc]
      exact hspells v hv.bits

theorem encode_of_decodeStrictFrom : ∀ {bs : Bytes} {q : Option Partial} {read : Bytes} {cs : List Char},
    Pending q read → decodeStrictFrom q bs = some cs → encode cs = read ++ bs
  | [], none, read, cs, hq, h => by
    obtain rfl : read = [] := hq
    obtain rfl := Option.some.inj h
    rfl
  | [], some _, _, _, _, h => by cases h
  | b :: bs, q, read, cs, hq, h => by
    by_cases hb : accepts q b = true
    · rw [decodeStrictFrom_cons bs hb, Option.map_eq_map, Option.map_eq_some_iff] at h
      obtain ⟨cs', hcs', rfl⟩ := h
      obtain ⟨read', hpending, hread⟩ := pending_step hq hb
      calc encode ((step q b).1 ++ cs') = encode (step q b).1 ++ encode cs' := List.flatMap_append
        _ = (encode (step q b).1 ++ read') ++ bs := by
          rw [encode_of_decodeStrictFrom hpending hcs', List.append_assoc]
        _ = read ++ b :: bs := by rw [hread, List.append_assoc, List.singleton_append]
    · cases q <;> simp [decodeStrictFrom, hb] at h

/-- **Octets that were read strictly are written again.** -/
theorem encode_of_decode? {bs : Bytes} {cs : List Char} (h : decode? bs = some cs) : encode cs = bs :=
  @encode_of_decodeStrictFrom bs none [] cs rfl h

/-! ## Reading octets whatever they are -/

theorem decodeFrom_of_decodeStrictFrom : ∀ {bs : Bytes} {q : Option Partial} {cs : List Char},
    decodeStrictFrom q bs = some cs → decodeFrom q bs = cs
  | [], none, _, h => Option.some.inj h
  | [], some _, _, h => by cases h
  | b :: bs, q, cs, h => by
    by_cases hb : accepts q b = true
    · rw [decodeStrictFrom_cons bs hb, Option.map_eq_map, Option.map_eq_some_iff] at h
      obtain ⟨cs', hcs', rfl⟩ := h
      have hrest := decodeFrom_of_decodeStrictFrom hcs'
      cases q <;> rw [decodeFrom, hrest]
    · cases q <;> simp [decodeStrictFrom, hb] at h

theorem decode_of_decode? {bs : Bytes} {cs : List Char} (h : decode? bs = some cs) : decode bs = cs :=
  decodeFrom_of_decodeStrictFrom h

/-- UTF-8 leaves no character open. -/
theorem openAfter_of_decodeStrictFrom : ∀ {bs : Bytes} {q : Option Partial} {cs : List Char},
    decodeStrictFrom q bs = some cs → openAfter q bs = none
  | [], none, _, _ => rfl
  | [], some _, _, h => by cases h
  | b :: bs, q, cs, h => by
    by_cases hb : accepts q b = true
    · rw [decodeStrictFrom_cons bs hb, Option.map_eq_map, Option.map_eq_some_iff] at h
      obtain ⟨cs', hcs', -⟩ := h
      have hrest : openAfter (step q b).2 bs = none := openAfter_of_decodeStrictFrom hcs'
      exact hrest
    · cases q <;> simp [decodeStrictFrom, hb] at h

/-- **Behind UTF-8 all octets are read as if they stood alone.** -/
theorem decode_append_of_decode? {xs : Bytes} {cs : List Char} (h : decode? xs = some cs) (ys : Bytes) :
    decode (xs ++ ys) = cs ++ decode ys := by
  rw [decode_append xs ys (openAfter_of_decodeStrictFrom h), decode_of_decode? h]

/-- **Octets survive as text exactly if they are UTF-8.** -/
theorem encode_decode_eq_iff (bs : Bytes) : encode (decode bs) = bs ↔ (decode? bs).isSome = true := by
  constructor
  · intro h
    rw [← h, decode?_encode]
    rfl
  · intro h
    obtain ⟨cs, hcs⟩ := Option.isSome_iff_exists.1 h
    rw [decode_of_decode? hcs, encode_of_decode? hcs]

end Folio.Text
