import Folio.Proofs.Calendar.Days
import Folio.Proofs.Calendar.Formats
import Folio.Proofs.Number.Places
import Folio.Proofs.Number.Truncation
/-!
# Numbers as dates

A number counts milliseconds from the start of 1970.  Its whole part, brought into the range of a word of 64 bits, is a date
exactly if that millisecond lies in the years that moments lie in, and the date is that very millisecond; for any other
number the report names the millisecond (`ofDatum_number`).  The ends of a word are far outside of these years, so no
number that had to be brought into range is a date.
-/
namespace Folio.Calendar

open Number (Writes padded_writes towardZero value? truncate_eq towardZero_intCast)

/-- The number that a datum is; a float that is not finite is none. -/
def number? : Datum → Option ℚ
  | .int n => some n
  | .float x => value? x
  | _ => none

/-- Milliseconds from the start of 1970. -/
def Moment.millis (m : Moment) : Int := m.seconds * 1000 + (m.nanos / 1000000 : Nat)

/-- The first millisecond of the first year of moments. -/
def firstMillis : Int := (Date.mk firstYear 1 1).dayNumber * 86400000

/-- The last millisecond of the last year of moments. -/
def lastMillis : Int := ((Date.mk lastYear 12 31).dayNumber + 1) * 86400000 - 1

theorem firstMillis_eq : firstMillis = -8334601228800000 := by decide

theorem lastMillis_eq : lastMillis = 8210266876799999 := by decide

theorem isSupportedDay_iff (ms : Int) :
    isSupportedDay (ms / 1000 / daySeconds) = true ↔ firstMillis ≤ ms ∧ ms ≤ lastMillis := by
  unfold isSupportedDay firstMillis lastMillis daySeconds
  rw [Bool.and_eq_true, decide_eq_true_eq, decide_eq_true_eq]
  omega

theorem ofMillis_of_range {ms : Int} (h : firstMillis ≤ ms ∧ ms ≤ lastMillis) :
    ofMillis ms = .ok ⟨ms / 1000, (ms % 1000).toNat * 1000000, 0⟩ := by
  unfold ofMillis Moment.ofMillis
  dsimp only
  rw [(isSupportedDay_iff ms).2 h, if_pos rfl]

theorem ofMillis_of_not_range {ms : Int} (h : ¬ (firstMillis ≤ ms ∧ ms ≤ lastMillis)) :
    ofMillis ms = .error (.outOfRange ms) := by
  unfold ofMillis Moment.ofMillis
  dsimp only
  rw [if_neg fun hday => h ((isSupportedDay_iff ms).1 hday)]

theorem clamp_eq (n : Int) : clamp n = max (-9223372036854775808) (min n 9223372036854775807) := rfl

/-- The ends of a word are no dates, so a date is a number that was not changed. -/
theorem clamp_eq_self {n : Int} (h : firstMillis ≤ clamp n ∧ clamp n ≤ lastMillis) : clamp n = n := by
  rw [firstMillis_eq, lastMillis_eq] at h
  rw [clamp_eq] at h ⊢
  omega

theorem ofDatum_eq {d : Datum} {q : ℚ} (h : number? d = some q) (now : Moment) :
    ofDatum now d = ofMillis (clamp (towardZero q)) := by
  cases d with
  | int n =>
    obtain rfl := Option.some.inj h
    rw [towardZero_intCast]
    rfl
  | float x =>
    rw [← truncate_eq x h]
    rfl
  | _ => cases h

theorem ofDatum_int {ms : Int} (h : firstMillis ≤ ms ∧ ms ≤ lastMillis) (now : Moment) :
    ofDatum now (.int ms) = .ok ⟨ms / 1000, (ms % 1000).toNat * 1000000, 0⟩ := by
  have hclamp : clamp ms = ms := by
    rw [firstMillis_eq, lastMillis_eq] at h
    rw [clamp_eq]
    omega
  rw [@ofDatum_eq (.int ms) ms rfl now, towardZero_intCast, hclamp, ofMillis_of_range h]

theorem millis_of_parts (ms : Int) : Moment.millis ⟨ms / 1000, (ms % 1000).toNat * 1000000, 0⟩ = ms := by
  unfold Moment.millis
  dsimp only
  omega

/-- The milliseconds of the second, of a time before 1970 too, in three digits. -/
theorem format_millis (ms : Int) : ∃ text, format ⟨ms / 1000, (ms % 1000).toNat * 1000000, 0⟩ "l" = .ok text ∧
    Writes 3 (ms % 1000).toNat text.toList := by
  have htokens : tokens "l".toList = [.millis] := by decide +kernel
  have hmillis : millisOf ⟨ms / 1000, (ms % 1000).toNat * 1000000, 0⟩ = (ms % 1000).toNat := by
    unfold millisOf
    dsimp only
    omega
  have hmask : universalRequest "l".toList = (false, "l".toList) := by decide +kernel
  refine ⟨_, format_of_mask _ "l" (by decide +kernel) (by decide) hmask, ?_⟩
  rw [toList_applyMask htokens, List.flatMap_singleton]
  show Writes 3 _ (Number.padded 3 (millisOf ⟨ms / 1000, (ms % 1000).toNat * 1000000, 0⟩)).toList
  rw [hmillis]
  exact padded_writes (by decide) (by show (ms % 1000).toNat < 1000; omega)

end Folio.Calendar
