import Folio.Number.Notation
import Mathlib.Algebra.Order.Field.Power
import Mathlib.Data.Rat.Floor
/-!
# The whole part of a float

A finite float stands for one rational number, a whole number times a power of two (`value?`).  `truncate` takes the float
apart by the bits of its word, and what it leaves is that number without its fraction (`truncate_eq`).
-/
namespace Folio.Number

open Float.Model (UnpackedFloat)

def unpackedValue? : UnpackedFloat → Option ℚ
  | .finite sign mantissa exponent _ => some (sign.apply mantissa * (2 : ℚ) ^ exponent)
  | .zero _ => some 0
  | .infinity _ | .notANumber => none

/-- The number that a finite float stands for. -/
def value? (x : Float) : Option ℚ := unpackedValue? x.toModel.unpack

/-! ## Numbers without their fractions -/

/-- A number without its fraction. -/
def towardZero (q : ℚ) : Int := if q < 0 then ⌈q⌉ else ⌊q⌋

theorem towardZero_intCast (n : Int) : towardZero n = n := by
  simp [towardZero]

theorem towardZero_neg (q : ℚ) : towardZero (-q) = -towardZero q := by
  unfold towardZero
  rcases lt_trichotomy q 0 with h | rfl | h
  · rw [if_pos h, if_neg (not_lt.2 (neg_nonneg.2 h.le)), Int.floor_neg]
  · simp
  · rw [if_neg h.not_gt, if_pos (neg_lt_zero.2 h), Int.ceil_neg]

/-- A natural number shifted by places of base two, up or down. -/
theorem towardZero_shifted (m : Nat) (e : Int) : towardZero (m * (2 : ℚ) ^ e) =
    (if e ≥ 0 then m * Nat.pow 2 e.toNat else m / Nat.pow 2 (-e).toNat : Nat) := by
  have hpos : (0 : ℚ) ≤ m * (2 : ℚ) ^ e := by positivity
  rw [towardZero, if_neg hpos.not_gt]
  split
  · rename_i he
    obtain ⟨k, rfl⟩ := Int.eq_ofNat_of_zero_le he
    have hwhole : (m : ℚ) * 2 ^ (k : Int) = ((m * 2 ^ k : Nat) : ℚ) := by push_cast; rfl
    rw [hwhole, Int.floor_natCast]
    rfl
  · rename_i he
    obtain ⟨k, hk⟩ := Int.eq_ofNat_of_zero_le (by omega : 0 ≤ -e)
    obtain rfl : e = -(k : Int) := by omega
    have hquotient : (m : ℚ) * 2 ^ (-(k : Int)) = (m : ℚ) / ((2 ^ k : Nat) : ℚ) := by
      rw [zpow_neg, zpow_natCast, div_eq_mul_inv]
      push_cast
      rfl
    rw [hquotient, Rat.floor_natCast_div_natCast, Int.neg_neg]
    rfl

/-! ## The parts of a word -/

variable (x : Float)

theorem toNat_mantissa : (@UnpackedFloat.unpackMantissa .binary64 x.toBits.toBitVec).toNat =
    x.toBits.toNat % Nat.pow 2 52 := by
  simp [UnpackedFloat.unpackMantissa, BitVec.extractLsb_toNat]

theorem toNat_exponent : (@UnpackedFloat.unpackExponent .binary64 x.toBits.toBitVec).toNat =
    x.toBits.toNat / Nat.pow 2 52 % Nat.pow 2 11 := by
  simp [UnpackedFloat.unpackExponent, BitVec.extractLsb_toNat, Nat.shiftRight_eq_div_pow]

theorem toNat_sign : (@UnpackedFloat.unpackSign .binary64 x.toBits.toBitVec).toNat =
    x.toBits.toNat / Nat.pow 2 63 := by
  have hword := x.toBits.toNat_lt
  change (BitVec.cast _ (BitVec.extractLsb 63 63 x.toBits.toBitVec)).toNat = _
  simp [BitVec.extractLsb_toNat, Nat.shiftRight_eq_div_pow]
  omega

theorem apply_ofBitVec (s : BitVec 1) (n : Int) :
    (UnpackedFloat.Sign.ofBitVec s).apply n = if s.toNat == 1 then -n else n := by
  obtain rfl | rfl := BitVec.eq_zero_or_eq_one s <;> rfl

theorem toNat_one_append (m : BitVec 52) : (1#1 ++ m).toNat = m.toNat + Nat.pow 2 52 := by
  rw [BitVec.toNat_append, Nat.or_comm]
  exact Nat.or_two_pow_eq_add_of_lt m.isLt

/-- **The parts of a float make its number**: its sign, and the mantissa and exponent that its word is taken apart into. -/
theorem value?_eq {q : ℚ} (h : value? x = some q) :
    q = ((if isNegative x then -((Binary.ofFloat x).mantissa : Int) else (Binary.ofFloat x).mantissa : Int) : ℚ) *
      (2 : ℚ) ^ (Binary.ofFloat x).exponent := by
  change unpackedValue? (UnpackedFloat.unpack .binary64 x.toBits.toBitVec) = some q at h
  unfold UnpackedFloat.unpack at h
  unfold isNegative Binary.ofFloat
  dsimp only at h ⊢
  rw [← toNat_mantissa, ← toNat_exponent, ← toNat_sign]
  by_cases hinf : @UnpackedFloat.unpackExponent .binary64 x.toBits.toBitVec = -1#_
  · rw [if_pos hinf] at h
    split at h <;> cases h
  rw [if_neg hinf] at h
  by_cases hexponent : @UnpackedFloat.unpackExponent .binary64 x.toBits.toBitVec = 0#_
  · rw [if_pos hexponent] at h
    by_cases hmantissa : @UnpackedFloat.unpackMantissa .binary64 x.toBits.toBitVec = 0#_
    · rw [dif_pos hmantissa] at h
      cases h
      rw [hexponent, hmantissa]
      simp
    · rw [dif_neg hmantissa] at h
      cases h
      rw [hexponent, apply_ofBitVec]
      rfl
  · rw [if_neg hexponent] at h
    cases h
    have hscale : (@UnpackedFloat.unpackExponent .binary64 x.toBits.toBitVec).toNat ≠ 0 := fun h =>
      hexponent (BitVec.eq_of_toNat_eq h)
    rw [apply_ofBitVec, toNat_one_append, if_neg hscale]
    rfl

/-- **A float is truncated toward zero.** -/
theorem truncate_eq {q : ℚ} (h : value? x = some q) : truncate x = towardZero q := by
  rw [value?_eq x h]
  unfold truncate
  dsimp only
  rw [← towardZero_shifted]
  split
  · rw [Int.cast_neg, Int.cast_natCast, neg_mul, towardZero_neg]
  · rw [Int.cast_natCast]

end Folio.Number
