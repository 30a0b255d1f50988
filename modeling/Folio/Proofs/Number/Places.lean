import Folio.Number.Decimal
import Mathlib.Data.List.TakeWhile
/-!
# Numbers in so many places

A number filled up to a width that it does not exceed is so many digits, and these digits write it (`padded_writes`).  A reader
that takes so many digits takes these and leaves what follows.
-/
namespace Folio.Number

/-- So many digits that write a number. -/
structure Writes (width n : Nat) (ds : List Char) : Prop where
  length : ds.length = width
  digits : ∀ c ∈ ds, c.isDigit = true
  value : ofDigits ds = n

theorem ofDigits_eq (ds : List Char) : ofDigits ds = Nat.ofDigitChars 10 ds 0 := by
  rw [Nat.ofDigitChars_eq_foldl]
  refine congrArg (fun f => ds.foldl f 0) (funext fun n => funext fun c => ?_)
  rw [Nat.mul_comm]
  rfl

theorem padded_toList (width n : Nat) : (padded width n).toList =
    List.replicate (width - (Nat.toDigits 10 n).length) '0' ++ Nat.toDigits 10 n := by
  have hlength : (toString n).length = (Nat.toDigits 10 n).length := by
    rw [Nat.toString_eq_ofList_toDigits, String.length_ofList]
  unfold padded
  dsimp only
  rw [if_neg (by omega), Int.natAbs_natCast, String.toList_append, hlength, Nat.toString_eq_ofList_toDigits,
    String.toList_ofList]
  exact congrArg (· ++ _) String.toList_ofList

/-- **A filled number is written by its digits.** -/
theorem padded_writes {width n : Nat} (hwidth : 0 < width) (h : n < Nat.pow 10 width) :
    Writes width n (padded width n).toList := by
  have hlength : (Nat.toDigits 10 n).length ≤ width := (Nat.length_toDigits_le_iff (by decide) hwidth).2 h
  rw [padded_toList]
  constructor
  · rw [List.length_append, List.length_replicate]
    omega
  · intro c hc
    rcases List.mem_append.1 hc with hc | hc
    · obtain rfl := List.eq_of_mem_replicate hc
      rfl
    · exact Nat.isDigit_of_mem_toDigits (by decide) (by decide) hc
  · rw [ofDigits_eq, Nat.ofDigitChars_append, Nat.ofDigitChars_replicate_zero, Nat.mul_zero, Nat.ofDigitChars_ten_toDigits]

theorem Writes.takeWhile_take {width n : Nat} {ds rest : List Char} (h : Writes width n ds) :
    ((ds ++ rest).take width).takeWhile Char.isDigit = ds := by
  rw [List.take_left' h.length, List.takeWhile_eq_self_iff]
  exact h.digits

end Folio.Number
