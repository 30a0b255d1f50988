import Folio.Calendar.Mask
import Folio.Proofs.Number.Places
import Mathlib.Data.List.Basic
/-!
# Masks as formats

A format without a percent sign that names no mask is a mask itself (`format_of_mask`), and one with a character that is no
letter names none (`namedMask?_eq_none`).  A mask in front of which universal time is asked for is applied to the instant
alone: the offset of the clock plays no part in it, and what comes out is what the mask without the request writes
of the same instant in universal time (`format_universal`).
-/
namespace Folio.Calendar

open Number (Writes padded_writes)

/-! ## Numbers in places -/

theorem year_writes {year : Int} (hfirst : 0 ≤ year) (hlast : year ≤ 9999) :
    Writes 4 year.toNat (Number.padded 4 year).toList := by
  have hwrites := padded_writes (by decide : 0 < 4) (by omega : year.toNat < 10000)
  rwa [Int.toNat_of_nonneg hfirst] at hwrites

theorem places_writes {n : Nat} (h : n < 100) : Writes 2 n (places true n).toList := padded_writes (by decide) h

/-- Hours and minutes with a sign in front. -/
def signedMinutes (separator : String) (negative : Bool) (minutes : Nat) : String :=
  (if negative then "-" else "+") ++ Number.padded 2 (minutes / 60 : Nat) ++ separator ++ Number.padded 2 (minutes % 60 : Nat)

theorem signedMinutes_toList (separator : String) (negative : Bool) (minutes : Nat) :
    (signedMinutes separator negative minutes).toList = (if negative then '-' else '+') ::
      ((places true (minutes / 60)).toList ++ (separator.toList ++ (places true (minutes % 60)).toList)) := by
  cases negative <;> simp [signedMinutes, places]

section
variable {minutes minutes' : Nat} (h : minutes < 6000) (h' : minutes' < 6000) {separator : String} {negative : Bool}

include h in
theorem signedMinutes_length : (signedMinutes separator negative minutes).toList.length = separator.toList.length + 5 := by
  rw [signedMinutes_toList, List.length_cons, List.length_append, List.length_append,
    (places_writes (by omega : minutes / 60 < 100)).length, (places_writes (by omega : minutes % 60 < 100)).length]
  omega

include h h' in
theorem signedMinutes_inj :
    signedMinutes separator negative minutes = signedMinutes separator negative minutes' ↔ minutes = minutes' := by
  refine ⟨fun heq => ?_, fun heq => by rw [heq]⟩
  have hhours := places_writes (by omega : minutes / 60 < 100)
  have hhours' := places_writes (by omega : minutes' / 60 < 100)
  have hrest := places_writes (by omega : minutes % 60 < 100)
  have hrest' := places_writes (by omega : minutes' % 60 < 100)
  rw [← String.toList_inj, signedMinutes_toList, signedMinutes_toList] at heq
  obtain ⟨hfront, hback⟩ := List.append_inj (List.cons.inj heq).2 (hhours.length.trans hhours'.length.symm)
  rw [hfront] at hhours
  rw [List.append_cancel_left hback] at hrest
  have hsame : minutes / 60 = minutes' / 60 := hhours.value.symm.trans hhours'.value
  have hsame' : minutes % 60 = minutes' % 60 := hrest.value.symm.trans hrest'.value
  omega

end

theorem minuteOffset_eq (colon : Bool) (offset : Int) :
    minuteOffset colon offset = signedMinutes (if colon then ":" else "") (offset < 0) (offset.natAbs / 60) := by
  simp [minuteOffset, signedMinutes]

/-! ## Formats -/

theorem format_of_mask {spec : String} {universal : Bool} {cs : List Char} (m : Moment) (mask : String)
    (hname : (namedMask? spec).getD spec = mask) (hpercent : mask.toList.contains '%' = false)
    (hrequest : universalRequest mask.toList = (universal, cs)) :
    format m spec = .ok (applyMask (if universal then m.toUniversal else m) universal cs) := by
  unfold format
  dsimp only
  rw [hname, hpercent, if_neg Bool.false_ne_true, hrequest]

theorem toList_applyMask {m : Moment} {universal : Bool} {mask : List Char} {ts : List Token} (h : tokens mask = ts) :
    (applyMask m universal mask).toList = ts.flatMap fun t => (t.text universal m).toList := by
  rw [applyMask, h, String.toList_join, List.flatMap_map]

/-- Masks are named by letters. -/
theorem namedMask?_eq_none {spec : String} {c : Char} (hc : c ∈ spec.toList) (hletter : c.isAlpha = false) :
    namedMask? spec = none := by
  have hall : ∀ name ∈ Table.names namedMasks, name.toList.all Char.isAlpha = true := by decide +kernel
  apply Table.get?_eq_none_iff.2
  intro hmem
  have halpha := List.all_eq_true.1 (hall spec hmem) c hc
  rw [hletter] at halpha
  cases halpha

theorem universalRequest_eq_self {cs : List Char} (hutc : ¬ ['U', 'T', 'C', ':'] <+: cs)
    (hgmt : ¬ ['G', 'M', 'T', ':'] <+: cs) : universalRequest cs = (false, cs) := by
  unfold universalRequest
  split
  · exact absurd (by simp) hutc
  · exact absurd (by simp) hgmt
  · rfl

/-- **Only the name of the zone hears of the request**, and in universal time it says the same anyway. -/
theorem Token.text_universal {m : Moment} (hoffset : m.offset = 0) (t : Token) (universal : Bool) :
    t.text universal m = t.text false m := by
  cases t with
  | zone =>
    show (if universal || m.offset == 0 then "UTC" else _) = if false || m.offset == 0 then "UTC" else _
    simp [hoffset]
  | day width | month width => rcases width with _ | _ | _ | _ | _ <;> rfl
  | _ => rfl

theorem applyMask_universal {m : Moment} (hoffset : m.offset = 0) (universal : Bool) (mask : List Char) :
    applyMask m universal mask = applyMask m false mask := by
  unfold applyMask
  congr 2
  funext t
  exact t.text_universal hoffset universal

theorem format_requested {request mask : String} (hrequest : request = "UTC:" ∨ request = "GMT:") (m : Moment)
    (hpercent : '%' ∉ mask.toList) : format m (request ++ mask) = .ok (applyMask m.toUniversal false mask.toList) := by
  have hcolon : ':' ∈ (request ++ mask).toList := by
    rw [String.toList_append]
    rcases hrequest with rfl | rfl <;> exact List.mem_append_left _ (by decide)
  have hname : (namedMask? (request ++ mask)).getD (request ++ mask) = request ++ mask := by
    rw [namedMask?_eq_none hcolon (by decide)]
    rfl
  have hclear : (request ++ mask).toList.contains '%' = false := by
    rw [String.toList_append, List.contains_eq_mem, decide_eq_false_iff_not, List.mem_append, not_or]
    refine ⟨?_, hpercent⟩
    rcases hrequest with rfl | rfl <;> decide
  have hread : universalRequest (request ++ mask).toList = (true, mask.toList) := by
    rw [String.toList_append]
    rcases hrequest with rfl | rfl <;> rfl
  rw [format_of_mask m (request ++ mask) hname hclear hread, if_pos rfl, applyMask_universal rfl]

/-- **A request for universal time leaves the instant alone.**  Two moments of one instant, whatever the offsets of their
clocks, are written alike by a mask behind `UTC:`, and behind `GMT:` too; and unless the mask is the name of another one or
asks for universal time itself, this is what it writes of the instant on a clock of universal time. -/
theorem format_universal {m m' : Moment} (hseconds : m.seconds = m'.seconds) (hnanos : m.nanos = m'.nanos) {mask : String}
    (hpercent : '%' ∉ mask.toList) :
    ∃ text, format m ("UTC:" ++ mask) = .ok text ∧ format m' ("UTC:" ++ mask) = .ok text ∧
      format m ("GMT:" ++ mask) = .ok text ∧
      (namedMask? mask = none → ¬ "UTC:".toList <+: mask.toList → ¬ "GMT:".toList <+: mask.toList →
        format ⟨m.seconds, m.nanos, 0⟩ mask = .ok text) := by
  have hinstant : m'.toUniversal = m.toUniversal := by
    unfold Moment.toUniversal
    rw [← hseconds, ← hnanos]
  refine ⟨_, format_requested (.inl rfl) m hpercent, ?_, format_requested (.inr rfl) m hpercent, ?_⟩
  · rw [format_requested (.inl rfl) m' hpercent, hinstant]
  · intro hname hutc hgmt
    have hclear : mask.toList.contains '%' = false := by simpa using hpercent
    exact format_of_mask ⟨m.seconds, m.nanos, 0⟩ mask (by rw [hname]; rfl) hclear (universalRequest_eq_self hutc hgmt)

/-- Behind universal time by five hours and a half, the last evening of a year is the first night of the next one. -/
theorem format_universal_new_year :
    ∃ text, format ⟨1704080000, 0, -19800⟩ "UTC:yyyy WW dddd HH:MM o Z" = .ok text ∧
      format ⟨1704080000, 0, 3600⟩ "UTC:yyyy WW dddd HH:MM o Z" = .ok text ∧
      format ⟨1704080000, 0, -19800⟩ "GMT:yyyy WW dddd HH:MM o Z" = .ok text ∧
      format ⟨1704080000, 0, 0⟩ "yyyy WW dddd HH:MM o Z" = .ok text := by
  obtain ⟨text, hutc, hother, hgmt, hplain⟩ := @format_universal ⟨1704080000, 0, -19800⟩ ⟨1704080000, 0, 3600⟩ rfl rfl
    "yyyy WW dddd HH:MM o Z" (by decide)
  exact ⟨text, hutc, hother, hgmt, hplain (by decide +kernel) (by decide) (by decide)⟩

end Folio.Calendar
