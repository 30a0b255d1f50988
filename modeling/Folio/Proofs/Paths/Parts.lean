import Mathlib.Data.List.Basic
import Folio.Path
/-!
# The parts of paths

Splitting a path at separators does not depend on where it starts, and goes on anew behind every separator
(`stretches_append_separator`).  So the parts of a joined path are those of its two sides (`parts_join`), a path that is
made of names has just these as its parts (`parts_ofParts_names`), the parts of a path are those of a path above it
and of what `below?` leaves (`parts_of_below?`), and `parent?` takes the last one away (`isAbove_of_parent?`).
-/
namespace Folio.Path

/-! ## Stretches between separators -/

/-- The stretches between separators without their places. -/
def stretches (octets : Bytes) : List Bytes := (segmentsFrom 0 octets).map (·.octets)

theorem segmentsFrom_ne_nil (place : Nat) (bs : Bytes) : segmentsFrom place bs ≠ [] := by
  cases bs with
  | nil => simp [segmentsFrom]
  | cons b bs =>
    simp only [segmentsFrom]
    split
    · simp
    · split <;> simp

theorem map_octets_segmentsFrom (place : Nat) (bs : Bytes) :
    (segmentsFrom place bs).map (·.octets) = stretches bs := by
  -- Both places move on together.
  have hany : ∀ (bs : Bytes) (i j : Nat), (segmentsFrom i bs).map (·.octets) = (segmentsFrom j bs).map (·.octets) := by
    intro bs
    induction bs with
    | nil => intro i j; rfl
    | cons b bs ih =>
      intro i j
      have h := ih (i + 1) (j + 1)
      simp only [segmentsFrom]
      by_cases hb : b = separator
      · simp [hb, h]
      · cases hi : segmentsFrom (i + 1) bs with
        | nil => exact absurd hi (segmentsFrom_ne_nil _ _)
        | cons s ss =>
          cases hj : segmentsFrom (j + 1) bs with
          | nil => exact absurd hj (segmentsFrom_ne_nil _ _)
          | cons r rs =>
            rw [hi, hj] at h
            simp_all
  exact hany bs place 0

@[simp] theorem stretches_nil : stretches [] = [[]] := rfl

@[simp] theorem stretches_separator_cons (bs : Bytes) : stretches (separator :: bs) = [] :: stretches bs := by
  rw [stretches, segmentsFrom, if_pos rfl, List.map_cons, map_octets_segmentsFrom]

theorem stretches_cons_of_ne {b : UInt8} (hb : b ≠ separator) (bs : Bytes) :
    ∃ s ss, stretches bs = s :: ss ∧ stretches (b :: bs) = (b :: s) :: ss := by
  have h := map_octets_segmentsFrom 1 bs
  cases hs : segmentsFrom 1 bs with
  | nil => exact absurd hs (segmentsFrom_ne_nil _ _)
  | cons s ss =>
    rw [hs, List.map_cons] at h
    refine ⟨s.octets, ss.map (·.octets), h.symm, ?_⟩
    simp [stretches, segmentsFrom, hb, hs]

theorem stretches_ne_nil (bs : Bytes) : stretches bs ≠ [] := by
  simp [stretches, segmentsFrom_ne_nil]

/-- **Behind a separator the stretches start anew.** -/
theorem stretches_append_separator (xs ys : Bytes) :
    stretches (xs ++ separator :: ys) = stretches xs ++ stretches ys := by
  induction xs with
  | nil => simp
  | cons b xs ih =>
    by_cases hb : b = separator
    · simp [hb, ih]
    · obtain ⟨s, ss, hs, hbs⟩ := stretches_cons_of_ne hb xs
      obtain ⟨r, rs, hr, hbr⟩ := stretches_cons_of_ne hb (xs ++ separator :: ys)
      rw [ih, hs, List.cons_append, List.cons.injEq] at hr
      rw [List.cons_append, hbr, hbs, ← hr.1, ← hr.2, List.cons_append]

theorem separator_not_mem_stretch {bs s : Bytes} (hs : s ∈ stretches bs) : separator ∉ s := by
  induction bs generalizing s with
  | nil => simp_all
  | cons b bs ih =>
    by_cases hb : b = separator
    · rw [hb, stretches_separator_cons] at hs
      rcases List.mem_cons.1 hs with rfl | hs
      · simp
      · exact ih hs
    · obtain ⟨r, rs, hr, hbr⟩ := stretches_cons_of_ne hb bs
      rw [hbr] at hs
      rcases List.mem_cons.1 hs with rfl | hs
      · have := ih (hr ▸ List.mem_cons_self : r ∈ stretches bs)
        simp [this, Ne.symm hb]
      · exact ih (hr ▸ List.mem_cons_of_mem _ hs)

theorem stretches_of_not_mem {bs : Bytes} (h : separator ∉ bs) : stretches bs = [bs] := by
  induction bs with
  | nil => rfl
  | cons b bs ih =>
    obtain ⟨s, ss, hs, hbs⟩ := stretches_cons_of_ne (fun hb => h (hb ▸ List.mem_cons_self)) bs
    rw [ih fun hm => h (List.mem_cons_of_mem _ hm), List.cons.injEq] at hs
    rw [hbs, ← hs.1, ← hs.2]

theorem getLast?_stretches_ne_nil : ∀ {bs : Bytes}, bs ≠ [] → bs.getLast? ≠ some separator →
    (stretches bs).getLast? ≠ some []
  | [], h, _ => absurd rfl h
  | [b], _, h => by
    have hb : b ≠ separator := by simpa using h
    rw [stretches_of_not_mem (by simpa using hb.symm)]
    simp
  | b :: c :: bs, _, h => by
    have ih : (stretches (c :: bs)).getLast? ≠ some [] := getLast?_stretches_ne_nil (by simp) (by simpa using h)
    obtain ⟨r, rs, hr⟩ := List.exists_cons_of_ne_nil (stretches_ne_nil (c :: bs))
    by_cases hb : b = separator
    · rw [hb, stretches_separator_cons, hr, List.getLast?_cons_cons, ← hr]
      exact ih
    · obtain ⟨s, ss, hs, hbs⟩ := stretches_cons_of_ne hb (c :: bs)
      rw [hbs]
      rw [hs] at ih
      cases ss with
      | nil => simp
      | cons x xs => simpa [List.getLast?_cons_cons] using ih

/-! ## Parts -/

/-- What stands in front of the other parts: the root, or a leading `.`. -/
def opening (p : Path) : List Part :=
  if p.isAbsolute then [.root] else if (stretches p.octets).head? = some [dot] then [.here] else []

/-- The parts but the opening. -/
def inner (octets : Bytes) : List Part := (stretches octets).filterMap partOfSegment

theorem partOfSegment_eq_name_iff {s n : Bytes} :
    partOfSegment s = some (.name n) ↔ s = n ∧ n ≠ [] ∧ n ≠ [dot] ∧ n ≠ [dot, dot] := by
  unfold partOfSegment
  split
  · rename_i h
    constructor
    · intro hs; cases hs
    · rintro ⟨rfl, h1, h2, -⟩
      exact absurd h (by simp [h1, h2])
  · rename_i h
    split
    · rename_i hup
      constructor
      · intro hs; cases hs
      · rintro ⟨rfl, -, -, h3⟩
        exact absurd hup h3
    · rename_i hup
      constructor
      · intro hs
        cases hs
        exact ⟨rfl, fun hn => h (Or.inl hn), fun hn => h (Or.inr hn), hup⟩
      · rintro ⟨rfl, -⟩
        rfl

theorem partOfSegment_ne_root (s : Bytes) : partOfSegment s ≠ some .root := by
  unfold partOfSegment
  split
  · simp
  · split <;> simp

theorem partOfSegment_ne_here (s : Bytes) : partOfSegment s ≠ some .here := by
  unfold partOfSegment
  split
  · simp
  · split <;> simp

@[simp] theorem inner_nil : inner [] = [] := rfl

theorem inner_append_separator (xs ys : Bytes) : inner (xs ++ separator :: ys) = inner xs ++ inner ys := by
  rw [inner, stretches_append_separator, List.filterMap_append]
  rfl

theorem isAbsolute_iff {p : Path} : p.isAbsolute = true ↔ ∃ bs, p.octets = separator :: bs := by
  unfold isAbsolute
  cases p.octets with
  | nil => simp
  | cons b bs => simp

/-- **The parts of a path are its opening and what its stretches mean.** -/
theorem parts_eq (p : Path) : p.parts = p.opening ++ inner p.octets := by
  have hlater : ∀ ss : List Segment, (ss.filterMap fun s =>
      (partOfSegment s.octets).map fun part => (⟨part, s.start, s.stop⟩ : Placed)).map (·.part) =
        (ss.map (·.octets)).filterMap partOfSegment := by
    intro ss
    rw [List.map_filterMap, List.filterMap_map]
    congr 1
    funext s
    simp [Function.comp_def]
  unfold parts placed opening inner
  dsimp only
  rw [← map_octets_segmentsFrom 0, ← segments]
  split
  · rw [List.map_cons, hlater]
    rfl
  · cases hs : p.segments with
    | nil => exact absurd hs (segmentsFrom_ne_nil _ _)
    | cons s ss =>
      dsimp only
      by_cases hdot : s.octets = [dot]
      · rw [if_pos hdot, List.map_cons, hlater]
        simp [hdot, partOfSegment]
      · rw [if_neg hdot, hlater]
        simp [hdot]

theorem root_not_mem_inner (octets : Bytes) : .root ∉ inner octets := by
  intro h
  obtain ⟨s, -, hs⟩ := List.mem_filterMap.1 h
  exact partOfSegment_ne_root s hs

theorem here_not_mem_inner (octets : Bytes) : .here ∉ inner octets := by
  intro h
  obtain ⟨s, -, hs⟩ := List.mem_filterMap.1 h
  exact partOfSegment_ne_here s hs

theorem parts_of_isAbsolute {p : Path} (h : p.isAbsolute = true) : p.parts = .root :: inner p.octets := by
  rw [parts_eq, opening, if_pos h, List.singleton_append]

/-- Nothing but a `.` stands in front of the parts of a relative path. -/
theorem opening_of_not_isAbsolute {p : Path} (h : ¬ p.isAbsolute = true) : p.opening = [] ∨ p.opening = [.here] := by
  rw [opening, if_neg h]
  split
  · exact .inr rfl
  · exact .inl rfl

theorem root_mem_parts_iff {p : Path} : .root ∈ p.parts ↔ p.isAbsolute = true := by
  rw [parts_eq, List.mem_append]
  constructor
  · rintro (h | h)
    · by_contra habs
      rcases opening_of_not_isAbsolute habs with hopening | hopening
      all_goals simp [hopening] at h
    · exact absurd h (root_not_mem_inner _)
  · intro habs
    simp [opening, habs]

theorem opening_eq_nil {p : Path} {s : Bytes} {ss : List Bytes} (h : stretches p.octets = s :: ss) (hempty : s ≠ [])
    (hdot : s ≠ [dot]) : p.opening = [] := by
  have habs : ¬ p.isAbsolute = true := by
    intro habs
    obtain ⟨bs, hbs⟩ := isAbsolute_iff.1 habs
    rw [hbs, stretches_separator_cons, List.cons.injEq] at h
    exact hempty h.1.symm
  rw [opening, if_neg habs, h]
  simp [hdot]

theorem not_isAbsolute_of_opening {p : Path} (h : p.opening = []) : ¬ p.isAbsolute = true := by
  intro habs
  rw [opening, if_pos habs] at h
  cases h

/-! ## Names -/

/-- A name that leads from a directory to something in it. -/
structure IsPlain (name : Bytes) : Prop where
  nonempty : name ≠ []
  ne_here : name ≠ [dot]
  ne_up : name ≠ [dot, dot]
  whole : separator ∉ name

theorem IsPlain.partOfSegment_eq {n : Bytes} (h : IsPlain n) : partOfSegment n = some (.name n) :=
  partOfSegment_eq_name_iff.2 ⟨rfl, h.nonempty, h.ne_here, h.ne_up⟩

theorem isPlain_of_mem_parts {p : Path} {n : Bytes} (h : .name n ∈ p.parts) : IsPlain n := by
  rw [parts_eq, List.mem_append] at h
  rcases h with h | h
  · simp only [opening] at h
    split at h
    · simp at h
    · split at h <;> simp at h
  · obtain ⟨s, hs, hpart⟩ := List.mem_filterMap.1 h
    obtain ⟨rfl, h1, h2, h3⟩ := partOfSegment_eq_name_iff.1 hpart
    exact ⟨h1, h2, h3, separator_not_mem_stretch hs⟩

/-- A part that is written as a stretch of its own wherever it stands. -/
inductive IsStep : Part → Prop where
  | up : IsStep .up
  | name {n : Bytes} (plain : IsPlain n) : IsStep (.name n)

namespace IsStep

variable {p : Part}

theorem partOfSegment_eq (h : IsStep p) : partOfSegment (ofParts.octetsOf p) = some p := by
  cases h with
  | up => rfl
  | name plain => exact plain.partOfSegment_eq

theorem separator_not_mem (h : IsStep p) : separator ∉ ofParts.octetsOf p := by
  cases h with
  | up => decide
  | name plain => exact plain.whole

theorem octetsOf_ne (h : IsStep p) : ofParts.octetsOf p ≠ [] ∧ ofParts.octetsOf p ≠ [dot] := by
  cases h with
  | up => decide
  | name plain => exact ⟨plain.nonempty, plain.ne_here⟩

end IsStep

theorem isStep_of_plain {names : List Bytes} (h : ∀ n ∈ names, IsPlain n) : ∀ p ∈ names.map Part.name, IsStep p :=
  List.forall_mem_map.2 fun n hn => .name (h n hn)

theorem stretches_body : ∀ {ps : List Part}, ps ≠ [] → (∀ p ∈ ps, IsStep p) →
    stretches (ofParts.body ps) = ps.map ofParts.octetsOf
  | [], h, _ => absurd rfl h
  | [p], _, h => stretches_of_not_mem (h p List.mem_cons_self).separator_not_mem
  | p :: q :: ps, _, h => by
    have hrest : stretches (ofParts.body (q :: ps)) = (q :: ps).map ofParts.octetsOf :=
      stretches_body (List.cons_ne_nil q ps) fun r hr => h r (List.mem_cons_of_mem _ hr)
    show stretches (ofParts.octetsOf p ++ separator :: ofParts.body (q :: ps)) = _
    rw [stretches_append_separator, hrest, stretches_of_not_mem (h p List.mem_cons_self).separator_not_mem]
    rfl

/-- **What is written as steps has just these as its parts.** -/
theorem inner_body {ps : List Part} (h : ∀ p ∈ ps, IsStep p) : inner (ofParts.body ps) = ps := by
  cases ps with
  | nil => rfl
  | cons p ps =>
    have hpart : ∀ q ∈ p :: ps, (partOfSegment ∘ ofParts.octetsOf) q = some q := fun q hq => (h q hq).partOfSegment_eq
    rw [inner, stretches_body (List.cons_ne_nil p ps) h, List.filterMap_map, List.filterMap_congr hpart]
    exact List.filterMap_some

theorem opening_body {ps : List Part} (h : ∀ p ∈ ps, IsStep p) : (⟨ofParts.body ps⟩ : Path).opening = [] := by
  cases ps with
  | nil => rfl
  | cons p ps =>
    obtain ⟨hempty, hdot⟩ := (h p List.mem_cons_self).octetsOf_ne
    exact opening_eq_nil (stretches_body (List.cons_ne_nil p ps) h) hempty hdot

theorem ofParts_steps {ps : List Part} (h : ∀ p ∈ ps, IsStep p) : ofParts ps = ⟨ofParts.body ps⟩ := by
  cases ps with
  | nil => rfl
  | cons p ps => cases h p List.mem_cons_self <;> rfl

/-- **A path that is made of steps has just these as its parts**, behind the root if it has one. -/
theorem parts_ofParts_steps (rooted : Bool) {ps : List Part} (h : ∀ p ∈ ps, IsStep p) :
    (ofParts ((if rooted then [.root] else []) ++ ps)).parts = (if rooted then [.root] else []) ++ ps := by
  have hinner := inner_body h
  have hopening := opening_body h
  rw [parts_eq]
  cases rooted with
  | true =>
    have hwritten : ofParts ([.root] ++ ps) = ⟨separator :: ofParts.body ps⟩ := rfl
    have hroot := inner_append_separator [] (ofParts.body ps)
    rw [List.nil_append, inner_nil, List.nil_append, hinner] at hroot
    show (ofParts ([.root] ++ ps)).opening ++ inner (ofParts ([.root] ++ ps)).octets = [.root] ++ ps
    rw [hwritten, hroot]
    rfl
  | false =>
    show (ofParts ps).opening ++ inner (ofParts ps).octets = [] ++ ps
    rw [ofParts_steps h, hopening, hinner]

theorem body_append {ps qs : List Part} (hps : ps ≠ []) (hqs : qs ≠ []) :
    ofParts.body (ps ++ qs) = ofParts.body ps ++ separator :: ofParts.body qs := by
  induction ps with
  | nil => exact absurd rfl hps
  | cons p ps ih =>
    cases ps with
    | nil =>
      obtain ⟨q, qs, rfl⟩ := List.exists_cons_of_ne_nil hqs
      rfl
    | cons r ps =>
      show ofParts.octetsOf p ++ separator :: ofParts.body (r :: ps ++ qs) =
        (ofParts.octetsOf p ++ separator :: ofParts.body (r :: ps)) ++ _
      rw [ih (List.cons_ne_nil r ps), List.append_assoc, List.cons_append]

/-- Steps are written without a separator at the end. -/
theorem getLast?_body : ∀ {ps : List Part}, ps ≠ [] → (∀ p ∈ ps, IsStep p) →
    ∃ b, (ofParts.body ps).getLast? = some b ∧ b ≠ separator
  | [], h, _ => absurd rfl h
  | [p], _, h => by
    have hstep := h p List.mem_cons_self
    obtain ⟨b, hb⟩ := Option.ne_none_iff_exists'.1 (mt List.getLast?_eq_none_iff.1 hstep.octetsOf_ne.1)
    refine ⟨b, hb, ?_⟩
    rintro rfl
    exact hstep.separator_not_mem (List.mem_of_getLast? hb)
  | p :: q :: ps, _, h => by
    obtain ⟨b, hb, hne⟩ := getLast?_body (List.cons_ne_nil q ps) fun r hr => h r (List.mem_cons_of_mem _ hr)
    refine ⟨b, ?_, hne⟩
    show (ofParts.octetsOf p ++ separator :: ofParts.body (q :: ps)).getLast? = some b
    rw [List.getLast?_append, List.getLast?_cons, hb]
    rfl

/-- **A path that is made of plain names has just these as its parts.** -/
theorem parts_ofParts_names {names : List Bytes} (h : ∀ n ∈ names, IsPlain n) :
    inner (ofParts (names.map .name)).octets = names.map .name ∧ (ofParts (names.map .name)).opening = [] := by
  rw [ofParts_steps (isStep_of_plain h)]
  exact ⟨inner_body (isStep_of_plain h), opening_body (isStep_of_plain h)⟩

/-! ## Joined paths -/

theorem opening_append_separator {xs ys : Bytes} (hne : xs ≠ []) :
    (⟨xs ++ separator :: ys⟩ : Path).opening = (⟨xs⟩ : Path).opening := by
  obtain ⟨x, xs, rfl⟩ := List.exists_cons_of_ne_nil hne
  obtain ⟨s, ss, hs⟩ := List.exists_cons_of_ne_nil (stretches_ne_nil (x :: xs))
  unfold opening isAbsolute
  rw [stretches_append_separator, hs]
  rfl

/-- **What is joined to a path goes on behind its parts.**  Nothing but the leading `.` of the second path is lost. -/
theorem parts_join {p q : Path} (hq : ¬ q.isAbsolute = true) :
    (p.join q).parts = if p.octets = [] then q.parts else p.parts ++ inner q.octets := by
  unfold join
  rw [if_neg hq]
  by_cases hp : p.octets = []
  · simp [hp]
  rw [if_neg hp]
  -- A separator is put between the two only where there is none.
  by_cases hlast : p.octets.getLast? = some separator
  · obtain ⟨xs, hxs⟩ := List.getLast?_eq_some_iff.1 hlast
    rw [if_pos (Or.inr hlast), parts_eq, parts_eq p]
    obtain ⟨octets⟩ := p
    obtain rfl : octets = xs ++ [separator] := hxs
    have hopening : (⟨xs ++ [separator] ++ q.octets⟩ : Path).opening = (⟨xs ++ [separator]⟩ : Path).opening := by
      by_cases hx : xs = []
      · subst hx; rfl
      · rw [List.append_assoc, List.singleton_append, opening_append_separator hx, opening_append_separator hx]
    rw [hopening, List.append_assoc]
    dsimp only
    rw [List.append_assoc, List.singleton_append, inner_append_separator, inner_append_separator, inner_nil,
      List.append_nil]
  · rw [if_neg (by simp [hp, hlast]), parts_eq, parts_eq p, opening_append_separator hp, inner_append_separator,
      List.append_assoc]

theorem isAbsolute_join {p : Path} (hp : p.isAbsolute = true) (q : Path) : (p.join q).isAbsolute = true := by
  obtain ⟨bs, hbs⟩ := isAbsolute_iff.1 hp
  unfold join
  split
  · assumption
  · rw [hbs]
    split <;> rfl

/-- Steps that are joined to steps behind the root are written one behind the other. -/
theorem join_ofParts_steps {ps qs : List Part} (hps : ∀ p ∈ ps, IsStep p) (hqs : ∀ q ∈ qs, IsStep q) (hne : qs ≠ []) :
    (ofParts (.root :: ps)).join (ofParts qs) = ofParts (.root :: (ps ++ qs)) := by
  have hrelative : ¬ (⟨ofParts.body qs⟩ : Path).isAbsolute = true := not_isAbsolute_of_opening (opening_body hqs)
  rw [ofParts_steps hqs, join, if_neg hrelative]
  by_cases hempty : ps = []
  · subst hempty
    rfl
  · obtain ⟨b, hb, hsep⟩ := getLast?_body hempty hps
    have hopen : ¬ ((ofParts (.root :: ps)).octets = [] ∨ (ofParts (.root :: ps)).octets.getLast? = some separator) := by
      rintro (h | h)
      · cases h
      · change (separator :: ofParts.body ps).getLast? = some separator at h
        rw [List.getLast?_cons, hb] at h
        exact hsep (Option.some.inj h)
    rw [if_neg hopen]
    show (⟨separator :: ofParts.body ps ++ separator :: ofParts.body qs⟩ : Path) = ⟨separator :: ofParts.body (ps ++ qs)⟩
    rw [body_append hempty hne, List.cons_append]

/-- **Going through a joined path** is going on through the second one where the first one ends, for steps that stay at a
`.` and start anew at a root. -/
theorem foldl_parts_join {β : Type} {step : β → Part → β} (hhere : ∀ b, step b .here = b)
    (hroot : ∀ b c, step b .root = step c .root) (p q : Path) (b : β) :
    (p.join q).parts.foldl step b = q.parts.foldl step (p.parts.foldl step b) := by
  by_cases hq : q.isAbsolute = true
  · rw [join, if_pos hq, parts_of_isAbsolute hq, List.foldl_cons, List.foldl_cons, hroot b]
  · have hinner : ∀ b, q.parts.foldl step b = (inner q.octets).foldl step b := by
      intro b
      rw [parts_eq]
      rcases opening_of_not_isAbsolute hq with hopening | hopening
      · rw [hopening, List.nil_append]
      · rw [hopening, List.singleton_append, List.foldl_cons, hhere]
    rw [parts_join hq]
    split
    · rename_i hp
      obtain rfl : p = ⟨[]⟩ := eq_of_octets_eq hp
      rfl
    · rw [List.foldl_append, hinner]

/-! ## What is left of a path below another one -/

/-- The segments that mean something, with what they mean. -/
def meanings (ss : List Segment) : List Placed :=
  ss.filterMap fun s => (partOfSegment s.octets).map (⟨·, s.start, s.stop⟩)

theorem map_part_meanings (ss : List Segment) :
    (meanings ss).map (·.part) = (ss.map (·.octets)).filterMap partOfSegment := by
  rw [meanings, List.map_filterMap, List.filterMap_map]
  congr 1
  funext s
  simp [Function.comp_def]

/-- Segments before some place and from it on belong to octets before and behind a separator. -/
theorem segmentsFrom_eq_append : ∀ {place : Nat} {bs : Bytes} {A B : List Segment},
    segmentsFrom place bs = A ++ B → A ≠ [] → B ≠ [] →
      ∃ xs ys, bs = xs ++ separator :: ys ∧ segmentsFrom place xs = A ∧
        segmentsFrom (place + xs.length + 1) ys = B
  | place, [], A, B, h, hA, hB => by
    have hlen := congrArg List.length h
    have := List.length_pos_of_ne_nil hA
    have := List.length_pos_of_ne_nil hB
    simp [segmentsFrom] at hlen
    omega
  | place, b :: bs, a :: A, B, h, _, hB => by
    simp only [segmentsFrom] at h
    split at h
    · rename_i hb
      subst hb
      rw [List.cons_append, List.cons.injEq] at h
      obtain ⟨rfl, h⟩ := h
      by_cases hA : A = []
      · subst hA
        exact ⟨[], bs, rfl, rfl, h⟩
      · obtain ⟨xs, ys, rfl, hxs, hys⟩ := segmentsFrom_eq_append h hA hB
        refine ⟨separator :: xs, ys, rfl, by simp [segmentsFrom, hxs], ?_⟩
        rw [List.length_cons, show place + (xs.length + 1) + 1 = place + 1 + xs.length + 1 by omega]
        exact hys
    · rename_i hb
      split at h
      · rename_i hnil
        exact absurd hnil (segmentsFrom_ne_nil _ _)
      · rename_i s ss hs
        rw [List.cons_append, List.cons.injEq] at h
        obtain ⟨rfl, rfl⟩ := h
        obtain ⟨xs, ys, rfl, hxs, hys⟩ := segmentsFrom_eq_append (A := s :: A) hs (by simp) hB
        refine ⟨b :: xs, ys, rfl, by simp [segmentsFrom, hb, hxs], ?_⟩
        rw [List.length_cons, show place + (xs.length + 1) + 1 = place + 1 + xs.length + 1 by omega]
        exact hys

theorem start_of_segmentsFrom_eq_cons {place : Nat} {bs : Bytes} {s : Segment} {ss : List Segment}
    (h : segmentsFrom place bs = s :: ss) : s.start = place := by
  have hhead : (segmentsFrom place bs).head?.map (·.start) = some place := by
    cases bs with
    | nil => rfl
    | cons b bs =>
      simp only [segmentsFrom]
      split
      · rfl
      · split <;> rfl
  rw [h] at hhead
  simpa using hhead

theorem stop_of_getLast?_segmentsFrom : ∀ {place : Nat} {bs : Bytes} {s : Segment},
    (segmentsFrom place bs).getLast? = some s → s.stop = place + bs.length
  | place, [], s, h => by
    obtain rfl : ⟨place, []⟩ = s := by simpa [segmentsFrom] using h
    rfl
  | place, b :: bs, s, h => by
    obtain ⟨r, rs, hr⟩ := List.exists_cons_of_ne_nil (segmentsFrom_ne_nil (place + 1) bs)
    have hrec : ∀ s, (segmentsFrom (place + 1) bs).getLast? = some s → s.stop = place + 1 + bs.length :=
      fun s => stop_of_getLast?_segmentsFrom
    have hstart := start_of_segmentsFrom_eq_cons hr
    simp only [segmentsFrom] at h
    rw [hr] at h hrec
    rw [List.length_cons]
    split at h
    · rw [List.getLast?_cons_cons] at h
      have := hrec s h
      omega
    · dsimp only at h
      cases rs with
      | nil =>
        obtain rfl : ⟨place, b :: r.octets⟩ = s := by simpa using h
        have := hrec r rfl
        simp only [Segment.stop, List.length_cons] at this ⊢
        omega
      | cons r' rs =>
        rw [List.getLast?_cons_cons] at h
        have := hrec s (by rw [List.getLast?_cons_cons]; exact h)
        omega

theorem segmentsFrom_take {bs : Bytes} {A C : List Segment} {l : Segment} (h : segmentsFrom 0 bs = A ++ C)
    (hl : A.getLast? = some l) : segmentsFrom 0 (bs.take l.stop) = A := by
  have hA : A ≠ [] := by
    rintro rfl
    simp at hl
  by_cases hC : C = []
  · subst hC
    rw [List.append_nil] at h
    have hstop := stop_of_getLast?_segmentsFrom (h ▸ hl)
    rw [hstop, Nat.zero_add, List.take_length, h]
  · obtain ⟨xs, ys, rfl, hxs, -⟩ := segmentsFrom_eq_append h hA hC
    have hstop := stop_of_getLast?_segmentsFrom (hxs ▸ hl)
    rw [hstop, Nat.zero_add, List.take_left, hxs]

theorem segmentsFrom_drop {bs : Bytes} {A B : List Segment} {s : Segment} (h : segmentsFrom 0 bs = A ++ s :: B) :
    segmentsFrom s.start (bs.drop s.start) = s :: B := by
  by_cases hA : A = []
  · subst hA
    have hstart := start_of_segmentsFrom_eq_cons h
    rw [hstart, List.drop_zero]
    exact h
  · obtain ⟨xs, ys, rfl, -, hys⟩ := segmentsFrom_eq_append h hA (by simp)
    have hstart := start_of_segmentsFrom_eq_cons hys
    rw [Nat.zero_add] at hys hstart
    rw [hstart, ← List.drop_drop, List.drop_left, List.drop_one, List.tail_cons, hys]

/-- The placed parts are an opening of one octet and what the segments mean. -/
theorem exists_placed_eq (p : Path) : ∃ o : List Placed, p.placed = o ++ meanings p.segments ∧
    o.map (·.part) = p.opening ∧ o.length ≤ 1 ∧ ∀ x ∈ o, x.start = 0 ∧ x.stop = 1 := by
  unfold placed opening
  rw [← map_octets_segmentsFrom 0, ← segments]
  dsimp only
  by_cases habs : p.isAbsolute = true
  · exact ⟨[⟨.root, 0, 1⟩], by simp [habs, meanings]⟩
  obtain ⟨s, ss, hs⟩ := List.exists_cons_of_ne_nil (segmentsFrom_ne_nil 0 p.octets)
  rw [show p.segments = s :: ss from hs]
  by_cases hdot : s.octets = [dot]
  · exact ⟨[⟨.here, 0, 1⟩], by simp [habs, hdot, meanings, partOfSegment]⟩
  · exact ⟨[], by simp [habs, hdot, meanings]⟩

/-- Meanings in a row are those of segments in a row, of which the first and the last mean something. -/
theorem exists_segments_of_meanings {ss : List Segment} {before : List Placed} {first : Placed} {rest : List Placed}
    (h : meanings ss = before ++ first :: rest) :
    ∃ (A mid C : List Segment) (s l : Segment), ss = A ++ (s :: mid) ++ C ∧ (s :: mid).getLast? = some l ∧
      partOfSegment s.octets = some first.part ∧ s.start = first.start ∧
      l.stop = ((rest.getLast?).getD first).stop ∧ partOfSegment l.octets ≠ none ∧
      meanings A = before ∧ meanings (s :: mid) = first :: rest := by
  obtain ⟨A, D, rfl, hA, hD⟩ := List.filterMap_eq_append_iff.1 h
  obtain ⟨A', s, E, rfl, hA', hs, hE⟩ := List.filterMap_eq_cons_iff.1 hD
  obtain ⟨part, hpart, rfl⟩ := Option.map_eq_some_iff.1 hs
  have hAA : meanings (A ++ A') = before := by
    rw [meanings, List.filterMap_append, List.filterMap_eq_nil_iff.2 hA', List.append_nil, hA]
  -- The last meaning cuts off the segments behind it that mean nothing.
  rcases List.eq_nil_or_concat rest with rfl | ⟨rest, last, rfl⟩
  · refine ⟨A ++ A', [], E, s, s, by simp, rfl, hpart, rfl, rfl, by simp [hpart], hAA, ?_⟩
    simp [meanings, hpart]
  · rw [List.concat_eq_append] at hE ⊢
    obtain ⟨X, Y, rfl, hX, hY⟩ := List.filterMap_eq_append_iff.1 hE
    obtain ⟨Y', l, C, rfl, hY', hl, hC⟩ := List.filterMap_eq_cons_iff.1 hY
    obtain ⟨lpart, hlpart, rfl⟩ := Option.map_eq_some_iff.1 hl
    refine ⟨A ++ A', X ++ Y' ++ [l], C, s, l, by simp, ?_, hpart, rfl, by simp, by simp [hlpart], hAA, ?_⟩
    · rw [List.getLast?_cons, List.getLast?_concat, Option.getD_some]
    · have hmid : meanings (X ++ Y') = rest := by
        rw [meanings, List.filterMap_append, List.filterMap_eq_nil_iff.2 hY', List.append_nil, hX]
      have hcons : meanings (s :: (X ++ Y' ++ [l])) = ⟨part, s.start, s.stop⟩ :: (meanings (X ++ Y') ++ meanings [l]) := by
        rw [← List.singleton_append, meanings, List.filterMap_append, List.filterMap_append]
        simp [hpart, meanings]
      rw [hcons, hmid]
      simp [meanings, hlpart]

theorem parts_slice {p : Path} {A mid C : List Segment} {s l : Segment} {part : Part}
    (h : p.segments = A ++ (s :: mid) ++ C) (hl : (s :: mid).getLast? = some l)
    (hs : partOfSegment s.octets = some part) :
    (p.slice s.start l.stop).parts = (meanings (s :: mid)).map (·.part) := by
  have htake : segmentsFrom 0 (p.octets.take l.stop) = A ++ s :: mid :=
    segmentsFrom_take h (by rw [List.getLast?_append, hl, Option.some_or])
  have hstretches : stretches (p.slice s.start l.stop).octets = (s :: mid).map (·.octets) := by
    rw [← map_octets_segmentsFrom s.start, slice, segmentsFrom_drop htake]
  have hopening : (p.slice s.start l.stop).opening = [] := by
    refine opening_eq_nil hstretches ?_ ?_
    · intro hnil
      simp [hnil, partOfSegment] at hs
    · intro hdot
      simp [hdot, partOfSegment] at hs
  rw [parts_eq, hopening, inner, hstretches, map_part_meanings, List.nil_append]

theorem stretches_take {p : Path} {A mid C : List Segment} {s l : Segment} (h : p.segments = A ++ (s :: mid) ++ C)
    (hl : (s :: mid).getLast? = some l) : stretches (p.slice 0 l.stop).octets = (A ++ s :: mid).map (·.octets) := by
  have htake : segmentsFrom 0 (p.octets.take l.stop) = A ++ s :: mid :=
    segmentsFrom_take h (by rw [List.getLast?_append, hl, Option.some_or])
  rw [← map_octets_segmentsFrom 0, slice, List.drop_zero, htake]

/-- A path is cut behind a segment that means something without harm to its opening. -/
theorem parts_take {p : Path} {A mid C : List Segment} {s l : Segment} (h : p.segments = A ++ (s :: mid) ++ C)
    (hl : (s :: mid).getLast? = some l) (hpart : partOfSegment l.octets ≠ none) :
    (p.slice 0 l.stop).parts = p.opening ++ (meanings (A ++ s :: mid)).map (·.part) := by
  have hne : l.octets ≠ [] := fun hnil => hpart (by simp [hnil, partOfSegment])
  have hstretches := stretches_take h hl
  have hall : stretches p.octets = (A ++ (s :: mid) ++ C).map (·.octets) := by
    rw [← h, segments, map_octets_segmentsFrom]
  have hhead : (stretches (p.slice 0 l.stop).octets).head? = (stretches p.octets).head? := by
    rw [hstretches, hall]
    cases A <;> simp
  have habs : (p.slice 0 l.stop).isAbsolute = p.isAbsolute := by
    obtain ⟨k, hk⟩ : ∃ k, l.stop = k + 1 := by
      have := List.length_pos_of_ne_nil hne
      exact ⟨l.stop - 1, by unfold Segment.stop; omega⟩
    unfold isAbsolute slice
    rw [hk, List.drop_zero]
    cases p.octets <;> rfl
  have hopening : (p.slice 0 l.stop).opening = p.opening := by
    unfold opening
    rw [habs, hhead]
  rw [parts_eq, hopening, inner, hstretches, map_part_meanings]

theorem parts_slice_opening {p : Path} (h : p.opening ≠ []) : (p.slice 0 1).parts = p.opening := by
  obtain ⟨octets⟩ := p
  cases octets with
  | nil => exact absurd rfl h
  | cons b bs =>
    show (⟨[b]⟩ : Path).parts = _
    by_cases hb : b = separator
    · subst hb
      rfl
    · obtain ⟨s, ss, hs, hbs⟩ := stretches_cons_of_ne hb bs
      have habs : ¬ (⟨b :: bs⟩ : Path).isAbsolute = true := by simp [isAbsolute, hb]
      simp only [opening, if_neg habs, hbs, List.head?_cons] at h ⊢
      by_cases hdot : b :: s = [dot]
      · obtain ⟨rfl, rfl⟩ : b = dot ∧ s = [] := by simpa using hdot
        rfl
      · simp [hdot] at h

theorem parts_slice_meanings {p : Path} {before tail : List Placed} {first : Placed}
    (h : meanings p.segments = before ++ first :: tail) :
    (p.slice first.start ((tail.getLast?).getD first).stop).parts = (first :: tail).map (·.part) := by
  obtain ⟨A, mid, C, s, l, hsegments, hl, hs, hstart, hstop, -, -, hmid⟩ := exists_segments_of_meanings h
  rw [← hstart, ← hstop, parts_slice hsegments hl hs, hmid]

/-- A path is left whole when it is cut behind its last part. -/
theorem parts_slice_whole {p : Path} {x : Placed} (hx : p.opening = [x.part]) (hstop : x.stop = 1) :
    (p.slice 0 (((meanings p.segments).getLast?).getD x).stop).parts =
      p.opening ++ (meanings p.segments).map (·.part) := by
  rcases List.eq_nil_or_concat (meanings p.segments) with hnil | ⟨init, last, hlast⟩
  · rw [hnil, List.getLast?_nil, Option.getD_none, hstop, parts_slice_opening (by simp [hx])]
    simp
  · rw [List.concat_eq_append] at hlast
    obtain ⟨A, mid, C, s, l, hsegments, hl, -, -, hstop, hne, hA, hmid⟩ := exists_segments_of_meanings hlast
    have hall : meanings (A ++ s :: mid) = init ++ [last] := by
      rw [meanings, List.filterMap_append, ← meanings, ← meanings, hA, hmid]
    rw [hlast, List.getLast?_concat, Option.getD_some, ← show l.stop = last.stop from hstop,
      parts_take hsegments hl hne, hall]

/-- **What is left of a path below another one has the parts that follow.** -/
theorem parts_of_below? {p base rest : Path} (h : p.below? base = some rest) : p.parts = base.parts ++ rest.parts := by
  unfold below? at h
  dsimp only at h
  split at h
  swap
  · cases h
  rename_i hbegins
  have hparts : p.parts = base.parts ++ (p.placed.drop base.parts.length).map (·.part) := by
    rw [List.map_drop]
    exact (List.prefix_iff_eq_append.1 (List.isPrefixOf_iff_prefix.1 hbegins)).symm
  rw [hparts]
  congr 1
  obtain ⟨o, hplaced, hopening, hlen, hfront⟩ := exists_placed_eq p
  cases hdrop : p.placed.drop base.parts.length with
  | nil =>
    rw [hdrop] at h
    obtain rfl : ⟨[]⟩ = rest := by simpa using h
    rfl
  | cons first tail =>
    rw [hdrop] at h
    obtain rfl : p.slice first.start ((tail.getLast?).getD first).stop = rest := by simpa using h
    rw [hplaced] at hdrop
    by_cases hskip : o.drop base.parts.length = []
    -- The opening belongs to the path above, so what is left starts with a segment.
    · rw [List.drop_append, hskip, List.nil_append] at hdrop
      have hmeanings := List.take_append_drop (base.parts.length - o.length) (meanings p.segments)
      rw [hdrop] at hmeanings
      exact (parts_slice_meanings hmeanings.symm).symm
    -- The path above is empty, and all of the path is left.
    · obtain ⟨x, rfl⟩ : ∃ x, o = [x] := by
        cases o with
        | nil => simp at hskip
        | cons x o =>
          obtain rfl : o = [] := by simpa using hlen
          exact ⟨x, rfl⟩
      have hzero : base.parts.length = 0 := by
        by_contra hne
        obtain ⟨k, hk⟩ := Nat.exists_eq_succ_of_ne_zero hne
        rw [hk] at hskip
        simp at hskip
      obtain ⟨hxstart, hxstop⟩ := hfront x List.mem_cons_self
      rw [hzero, List.drop_zero, List.cons_append, List.nil_append, List.cons.injEq] at hdrop
      obtain ⟨rfl, rfl⟩ := hdrop
      rw [hxstart, parts_slice_whole hopening.symm hxstop, ← hopening]
      rfl

/-! ## The path above -/

/-- Nothing is written behind the last part: the last stretch is a part, unless none is. -/
def Trimmed (ss : List Bytes) : Prop :=
  ∀ s, ss.getLast? = some s → partOfSegment s = none → ss.filterMap partOfSegment = []

namespace Trimmed

variable {s : Bytes} {ss : List Bytes}

theorem tail (h : Trimmed (s :: ss)) : Trimmed ss := by
  intro r hr hnone
  have hlast : (s :: ss).getLast? = some r := by rw [List.getLast?_cons, hr, Option.getD_some]
  have hall := h r hlast hnone
  rw [List.filterMap_eq_nil_iff] at hall ⊢
  exact fun x hx => hall x (List.mem_cons_of_mem _ hx)

/-- Behind a part there is another one or nothing. -/
theorem eq_nil (h : Trimmed (s :: ss)) (hs : partOfSegment s ≠ none) (hrest : ss.filterMap partOfSegment = []) :
    ss = [] := by
  by_contra hne
  obtain ⟨r, hr⟩ := Option.ne_none_iff_exists'.1 (mt List.getLast?_eq_none_iff.1 hne)
  have hnone : partOfSegment r = none := List.filterMap_eq_nil_iff.1 hrest r (List.mem_of_getLast? hr)
  have hlast : (s :: ss).getLast? = some r := by rw [List.getLast?_cons, hr, Option.getD_some]
  exact hs (List.filterMap_eq_nil_iff.1 (h r hlast hnone) s List.mem_cons_self)

end Trimmed

/-- Octets in front of others have stretches in front of theirs, the last of which may be cut short. -/
theorem stretches_of_isPrefix {xs bs : Bytes} (h : xs <+: bs) : ∃ front s r back,
    stretches xs = front ++ [s] ∧ stretches bs = front ++ r :: back ∧ s <+: r := by
  obtain ⟨ys, rfl⟩ := h
  induction xs with
  | nil =>
    obtain ⟨r, back, hr⟩ := List.exists_cons_of_ne_nil (stretches_ne_nil ys)
    exact ⟨[], [], r, back, rfl, hr, List.nil_prefix⟩
  | cons b xs ih =>
    obtain ⟨front, s, r, back, hxs, hbs, hs⟩ := ih
    by_cases hb : b = separator
    · subst hb
      exact ⟨[] :: front, s, r, back, by simp [hxs], by simp [hbs], hs⟩
    obtain ⟨x, xs', hx, hbx⟩ := stretches_cons_of_ne hb xs
    obtain ⟨y, ys', hy, hby⟩ := stretches_cons_of_ne hb (xs ++ ys)
    rw [hxs] at hx
    rw [hbs] at hy
    rw [List.cons_append, hbx, hby]
    cases front with
    | nil =>
      obtain ⟨rfl, rfl⟩ := List.cons.inj hx
      obtain ⟨rfl, rfl⟩ := List.cons.inj hy
      exact ⟨[], b :: s, b :: r, back, rfl, rfl, List.cons_prefix_cons.2 ⟨rfl, hs⟩⟩
    | cons f front =>
      obtain ⟨rfl, rfl⟩ := List.cons.inj hx
      obtain ⟨rfl, rfl⟩ := List.cons.inj hy
      exact ⟨(b :: f) :: front, s, r, back, rfl, rfl, hs⟩

/-- A path whose parts are an opening has nothing behind it. -/
theorem inner_eq_nil_of_parts {p q : Path} (h : p.parts = q.opening) : inner p.octets = [] := by
  have hopening : ∀ x ∈ q.opening, x = .root ∨ x = .here := by
    unfold opening
    split
    · simp
    · split <;> simp
  rw [List.eq_nil_iff_forall_not_mem]
  intro x hx
  rw [parts_eq] at h
  rcases hopening x (h ▸ List.mem_append_right _ hx) with rfl | rfl
  · exact root_not_mem_inner _ hx
  · exact here_not_mem_inner _ hx

/-- Only the root and the empty path have nothing above them. -/
theorem dropLast_parts_of_parent?_eq_none {p : Path} (h : p.parent? = none) : p.parts.dropLast = [] := by
  unfold parent? at h
  rcases List.eq_nil_or_concat p.placed with hnil | ⟨before, last, hplaced⟩
  · rw [parts, hnil]
    rfl
  rw [hplaced, List.concat_eq_append, List.reverse_concat] at h
  dsimp only at h
  split at h
  swap
  · split at h <;> cases h
  rename_i hroot
  have hlast : p.parts.getLast? = some .root := by
    rw [parts, hplaced, List.concat_eq_append, List.map_append, List.map_singleton, hroot, List.getLast?_concat]
  -- The root is the opening, so nothing follows it.
  have hinner : inner p.octets = [] := by
    by_contra hne
    rw [parts_eq, List.getLast?_append_of_ne_nil _ hne] at hlast
    exact root_not_mem_inner _ (List.mem_of_getLast? hlast)
  rw [parts_of_isAbsolute (root_mem_parts_iff.1 (List.mem_of_getLast? hlast)), hinner]
  rfl

/-- One path is another one without its last part, and without what is written behind the part before. -/
structure IsAbove (above p : Path) : Prop where
  front : above.octets <+: p.octets
  trimmed : Trimmed (stretches above.octets)
  nonempty : p.parts ≠ []
  parts : above.parts = p.parts.dropLast

theorem IsAbove.length_lt {above p : Path} (h : above.IsAbove p) : above.octets.length < p.octets.length := by
  by_contra hle
  have heq : above = p := eq_of_octets_eq (h.front.eq_of_length_le (Nat.le_of_not_lt hle))
  have hlength := congrArg List.length (heq ▸ h.parts)
  have := List.length_pos_of_ne_nil h.nonempty
  rw [List.length_dropLast] at hlength
  omega

/-- A path that is cut behind its last part but one. -/
theorem slice_of_placed {p : Path} {before : List Placed} {b last : Placed} (h : p.placed = before ++ [b] ++ [last]) :
    Trimmed (stretches (p.slice 0 b.stop).octets) ∧ (p.slice 0 b.stop).parts = (before ++ [b]).map (·.part) := by
  obtain ⟨o, hplaced, hopening, hlen, hfront⟩ := exists_placed_eq p
  rw [h] at hplaced
  rcases List.eq_nil_or_concat (meanings p.segments) with hnil | ⟨ms, m, hms⟩
  · have := congrArg List.length hplaced
    simp [hnil] at this
    omega
  rw [hms, List.concat_eq_append, ← List.append_assoc] at hplaced
  obtain ⟨hbefore, -⟩ := List.append_inj' hplaced rfl
  rw [hbefore]
  rcases List.eq_nil_or_concat ms with rfl | ⟨ms, m', rfl⟩
  -- Only the opening is left.
  · rw [List.append_nil] at hbefore ⊢
    have hb : b ∈ o := hbefore ▸ List.mem_concat_self
    have hparts : (p.slice 0 1).parts = p.opening := parts_slice_opening (by rw [← hopening, ← hbefore]; simp)
    rw [(hfront b hb).2, hopening]
    exact ⟨fun _ _ _ => inner_eq_nil_of_parts hparts, hparts⟩
  -- The path is cut behind the segment of the part before the last.
  · rw [List.concat_eq_append, ← List.append_assoc] at hbefore
    obtain ⟨-, hm⟩ := List.append_inj' hbefore rfl
    obtain rfl : b = m' := List.singleton_inj.1 hm
    obtain ⟨X, Y, hXY, hX, -⟩ := List.filterMap_eq_append_iff.1
      (show meanings p.segments = (ms ++ [b]) ++ [m] by simp [hms])
    obtain ⟨A, mid, C, s, l, hsegments, hl, -, -, hstop, hpart, hA, hmid⟩ :=
      exists_segments_of_meanings (show meanings X = ms ++ [b] from hX)
    have hcut : p.segments = A ++ (s :: mid) ++ (C ++ Y) := by rw [hXY, hsegments]; simp
    have hall : meanings (A ++ s :: mid) = ms ++ [b] := by
      rw [meanings, List.filterMap_append, ← meanings, ← meanings, hA, hmid]
    rw [← show l.stop = b.stop from hstop, parts_take hcut hl hpart, hall, ← hopening, stretches_take hcut hl]
    refine ⟨fun r hr hnone => ?_, by simp⟩
    rw [List.getLast?_map, List.getLast?_append, hl, Option.some_or, Option.map_some, Option.some.injEq] at hr
    exact absurd (hr ▸ hnone) hpart

theorem isAbove_of_parent? {p above : Path} (h : p.parent? = some above) : above.IsAbove p := by
  unfold parent? at h
  rcases List.eq_nil_or_concat p.placed with hnil | ⟨before, last, hplaced⟩
  · rw [hnil] at h
    cases h
  rw [List.concat_eq_append] at hplaced
  have hparts : p.parts = before.map (·.part) ++ [last.part] := by
    rw [Path.parts, hplaced, List.map_append, List.map_singleton]
  have hdrop : p.parts.dropLast = before.map (·.part) := by rw [hparts, List.dropLast_concat]
  have hne : p.parts ≠ [] := by simp [hparts]
  rw [hplaced, List.reverse_concat] at h
  dsimp only at h
  split at h
  · cases h
  rcases List.eq_nil_or_concat before with rfl | ⟨before, b, rfl⟩
  · obtain rfl := Option.some.inj h
    exact ⟨List.nil_prefix, fun _ _ _ => rfl, hne, hdrop.symm⟩
  · rw [List.concat_eq_append] at hplaced hdrop h
    rw [List.reverse_concat] at h
    obtain rfl := Option.some.inj h
    obtain ⟨htrimmed, hslice⟩ := slice_of_placed hplaced
    exact ⟨List.take_prefix _ _, htrimmed, hne, hslice.trans hdrop.symm⟩

end Folio.Path
