import Folio.ContentFile
import Folio.Proofs.Paths.Parts
import Folio.Proofs.Text.Letters
import Mathlib.Data.List.DropRight
import Mathlib.Data.List.TakeWhile
/-!
# What is HTML by its extension

The extension of a path is what its last part has after its last dot, if that part is a name with something before the dot
(`extension?_eq_some_iff`).  Neither the separator nor the dot is a letter, so a path in small letters has the same parts in
small letters (`parts_small`), and the same extension.  Configured extensions have a normal form of which the case and the
leading dots are gone (`normalExtensions_recased`), so a path is HTML by the spelling of neither (`html_detection`).
-/
namespace Folio

open Text (Recased RecasedOctets small)

/-! ## Extensions -/

/-- What stands behind the last occurrence of something in a list, or the whole list. -/
theorem lastStretch_eq_iff {α : Type} [BEq α] [LawfulBEq α] {d : α} {cs e : List α} (he : d ∉ e) :
    (cs.reverse.takeWhile (· != d)).reverse = e ↔ ∃ stem, (stem = [] ∨ ∃ s, stem = s ++ [d]) ∧ cs = stem ++ e := by
  constructor
  · rintro rfl
    refine ⟨(cs.reverse.dropWhile (· != d)).reverse, ?_, ?_⟩
    · cases hrest : cs.reverse.dropWhile (· != d) with
      | nil => exact .inl rfl
      | cons c ds =>
        have hc := List.head?_dropWhile_not (· != d) cs.reverse
        rw [hrest] at hc
        obtain rfl : c = d := by simpa using hc
        exact .inr ⟨ds.reverse, List.reverse_cons⟩
    · rw [← List.reverse_append, List.takeWhile_append_dropWhile, List.reverse_reverse]
  · rintro ⟨stem, hstem, rfl⟩
    have hall : ∀ c ∈ e.reverse, (c != d) = true := by
      intro c hc
      simp only [bne_iff_ne]
      rintro rfl
      exact he (List.mem_reverse.1 hc)
    have hnone : stem.reverse.takeWhile (· != d) = [] := by
      rcases hstem with rfl | ⟨s, rfl⟩
      · rfl
      · simp
    rw [List.reverse_append, List.takeWhile_append_of_pos hall, hnone, List.append_nil, List.reverse_reverse]

namespace Path

theorem fileName?_eq_some_iff {p : Path} {name : Bytes} :
    p.fileName? = some name ↔ p.parts.getLast? = some (.name name) := by
  unfold fileName?
  cases p.parts.getLast? with
  | none => simp
  | some last => cases last <;> simp

/-- **A name is cut at its last dot**, unless it begins with it. -/
theorem extensionOfName_eq_some_iff {name ext : Bytes} :
    extensionOfName name = some ext ↔ ∃ stem, name = stem ++ dot :: ext ∧ stem ≠ [] ∧ dot ∉ ext := by
  unfold extensionOfName
  dsimp only
  constructor
  · intro h
    have hafter : dot ∉ (name.reverse.takeWhile (· != dot)).reverse := fun hmem => by
      simpa using List.mem_takeWhile_imp (List.mem_reverse.1 hmem)
    obtain ⟨front, hfront, hname⟩ := (lastStretch_eq_iff hafter).1 rfl
    generalize name.reverse.takeWhile (· != dot) = after at h hafter hname
    rcases hfront with rfl | ⟨stem, rfl⟩
    · rw [if_pos (.inl (by rw [hname, List.nil_append, List.length_reverse]))] at h
      cases h
    · have hbefore : name.reverse.drop (after.length + 1) = stem.reverse := by
        rw [hname, List.reverse_append, List.reverse_reverse, List.reverse_append, ← List.append_assoc]
        exact List.drop_left' (by simp)
      rw [hbefore] at h
      by_cases hstem : stem = []
      · rw [if_pos (.inr (by rw [hstem, List.reverse_nil]))] at h
        cases h
      have hlength : ¬ after.length = name.length := by
        simp [hname]
        omega
      rw [if_neg (not_or.2 ⟨hlength, by simpa using hstem⟩)] at h
      obtain rfl := Option.some.inj h
      exact ⟨stem, by rw [hname, List.append_assoc, List.singleton_append], hstem, hafter⟩
  · rintro ⟨stem, rfl, hstem, hext⟩
    have hafter := (lastStretch_eq_iff hext).2 ⟨stem ++ [dot], .inr ⟨stem, rfl⟩, List.append_cons stem dot ext⟩
    rw [hafter, ← List.length_reverse, hafter, if_neg]
    simp [hstem]
    omega

theorem extension?_eq_some_iff {p : Path} {ext : Bytes} : p.extension? = some ext ↔
    ∃ stem, p.parts.getLast? = some (.name (stem ++ dot :: ext)) ∧ stem ≠ [] ∧ dot ∉ ext := by
  simp only [extension?, Option.bind_eq_some_iff, fileName?_eq_some_iff, extensionOfName_eq_some_iff]
  constructor
  · rintro ⟨name, hlast, stem, rfl, hstem, hext⟩
    exact ⟨stem, hlast, hstem, hext⟩
  · rintro ⟨stem, hlast, hstem, hext⟩
    exact ⟨_, hlast, stem, rfl, hstem, hext⟩

/-! ## Paths in small letters -/

def Part.small : Part → Part
  | .name n => .name (n.map Text.small)
  | p => p

theorem small_eq_separator_iff {b : UInt8} : small b = separator ↔ b = separator := Text.small_eq_iff_of_lt (by decide)

theorem small_eq_dot_iff {b : UInt8} : small b = dot ↔ b = dot := Text.small_eq_iff_of_lt (by decide)

theorem stretches_small (bs : Bytes) : stretches (bs.map small) = (stretches bs).map (·.map small) := by
  induction bs with
  | nil => rfl
  | cons b bs ih =>
    by_cases hb : b = separator
    · rw [List.map_cons, small_eq_separator_iff.2 hb, hb, stretches_separator_cons, stretches_separator_cons, ih]
      rfl
    · obtain ⟨s, ss, hs, hbs⟩ := stretches_cons_of_ne hb bs
      obtain ⟨r, rs, hr, hbr⟩ := stretches_cons_of_ne (mt small_eq_separator_iff.1 hb) (bs.map small)
      rw [ih, hs, List.map_cons, List.cons.injEq] at hr
      rw [List.map_cons, hbr, hbs, ← hr.1, ← hr.2]
      rfl

theorem map_small_eq_dot_iff {s : Bytes} : s.map small = [dot] ↔ s = [dot] := by
  simp [List.map_eq_singleton_iff, small_eq_dot_iff]

theorem partOfSegment_small (s : Bytes) : partOfSegment (s.map small) = (partOfSegment s).map Part.small := by
  have hup : s.map small = [dot, dot] ↔ s = [dot, dot] := by
    simp [List.map_eq_cons_iff, small_eq_dot_iff]
  unfold partOfSegment
  simp only [List.map_eq_nil_iff, map_small_eq_dot_iff, hup]
  split
  · rfl
  · split <;> rfl

theorem inner_small (bs : Bytes) : inner (bs.map small) = (inner bs).map Part.small := by
  unfold inner
  rw [stretches_small, List.filterMap_map, List.map_filterMap]
  exact List.filterMap_congr fun s _ => partOfSegment_small s

theorem opening_small (p : Path) : (⟨p.octets.map small⟩ : Path).opening = p.opening.map Part.small := by
  have habs : (⟨p.octets.map small⟩ : Path).isAbsolute = p.isAbsolute := by
    unfold isAbsolute
    cases p.octets with
    | nil => rfl
    | cons b bs =>
      rw [Bool.eq_iff_iff]
      simp [small_eq_separator_iff]
  have hhere : (stretches (p.octets.map small)).head? = some [dot] ↔ (stretches p.octets).head? = some [dot] := by
    rw [stretches_small, List.head?_map]
    cases (stretches p.octets).head? with
    | none => simp
    | some s => simp only [Option.map_some, Option.some.injEq, map_small_eq_dot_iff]
  unfold opening
  rw [habs]
  split
  · rfl
  · simp only [hhere]
    split <;> rfl

/-- **A path in small letters has the same parts in small letters.** -/
theorem parts_small (p : Path) : (⟨p.octets.map small⟩ : Path).parts = p.parts.map Part.small := by
  rw [parts_eq, parts_eq, List.map_append, opening_small, inner_small]

theorem extensionOfName_small (name : Bytes) :
    extensionOfName (name.map small) = (extensionOfName name).map (·.map small) := by
  have hdots : ((· != dot) ∘ small) = (· != dot) := funext fun b => by
    rw [Function.comp_apply, Bool.eq_iff_iff, bne_iff_ne, bne_iff_ne, ne_eq, ne_eq, small_eq_dot_iff]
  unfold extensionOfName
  simp only [← List.map_reverse, List.takeWhile_map, hdots, List.length_map, ← List.map_drop, List.map_eq_nil_iff]
  split <;> rfl

theorem fileName?_small (p : Path) : (⟨p.octets.map small⟩ : Path).fileName? = p.fileName?.map (·.map small) := by
  unfold fileName?
  rw [parts_small, List.getLast?_map]
  cases p.parts.getLast? with
  | none => rfl
  | some last => cases last <;> rfl

theorem extension?_small (p : Path) : (⟨p.octets.map small⟩ : Path).extension? = p.extension?.map (·.map small) := by
  unfold extension?
  rw [fileName?_small]
  cases p.fileName? with
  | none => rfl
  | some name => exact extensionOfName_small name

end Path

theorem Text.lowerAscii_ofList (cs : List Char) : lowerAscii (String.ofList cs) = String.ofList (cs.map Char.toLower) := by
  rw [lowerAscii, String.toList_ofList]

theorem Path.lowerExtension?_small (p : Path) :
    (⟨p.octets.map small⟩ : Path).lowerExtension? = p.lowerExtension? := by
  unfold lowerExtension?
  rw [extension?_small]
  cases p.extension? with
  | none => rfl
  | some ext =>
    rw [Option.map_some, Option.bind_some, Option.bind_some, Text.decode?_small, Option.map_map]
    congr 1
    funext cs
    simp only [Function.comp_apply, Text.lowerAscii_ofList, List.map_map, Function.comp_def, Text.toLower_toLower]

/-- **The case of letters in a path has no say in what it is taken for.** -/
theorem isHtml_recased {p q : Path} (h : RecasedOctets p.octets q.octets) (extensions : List String) :
    isHtml q extensions = isHtml p extensions := by
  unfold isHtml
  rw [← p.lowerExtension?_small, ← q.lowerExtension?_small, Text.recasedOctets_iff.1 h]

theorem isHtml_of_fileName? {p q : Path} (h : p.fileName? = q.fileName?) (extensions : List String) :
    isHtml p extensions = isHtml q extensions := by
  unfold isHtml Path.lowerExtension? Path.extension?
  rw [h]

theorem isHtml_of_no_name {p : Path} (h : p.fileName? = none) (extensions : List String) :
    isHtml p extensions = false := by
  unfold isHtml Path.lowerExtension? Path.extension?
  rw [h]
  rfl

theorem isHtml_iff {p : Path} {extensions : List String} : isHtml p extensions = true ↔
    ∃ ext e, p.extension? = some ext ∧ Text.decode? ext = some e ∧ String.ofList (e.map Char.toLower) ∈ extensions := by
  unfold isHtml Path.lowerExtension?
  cases hext : p.extension? with
  | none => simp
  | some ext =>
    cases he : Text.decode? ext with
    | none => simp [he]
    | some e => simp [he, Text.lowerAscii_ofList]

/-! ## Configured extensions -/

/-- A configured extension without its leading dots, in small letters. -/
def normalExtension (entry : String) : String := Text.lowerAscii (String.ofList (entry.toList.dropWhile (· == '.')))

theorem toList_normalExtension (entry : String) :
    (normalExtension entry).toList = (entry.toList.map Char.toLower).dropWhile (· == '.') := by
  have hdots : ((· == '.') ∘ Char.toLower) = (· == '.') := funext fun c => by
    rw [Function.comp_apply, Bool.eq_iff_iff, beq_iff_eq, beq_iff_eq, Text.toLower_eq_dot_iff]
  rw [normalExtension, Text.lowerAscii_ofList, String.toList_ofList, List.dropWhile_map, hdots]

theorem normalExtension_normalExtension (entry : String) :
    normalExtension (normalExtension entry) = normalExtension entry := by
  have hsmall : ((entry.toList.map Char.toLower).dropWhile (· == '.')).map Char.toLower =
      (entry.toList.map Char.toLower).dropWhile (· == '.') := by
    refine (List.map_congr_left fun c hc => ?_).trans (List.map_id _)
    obtain ⟨d, -, rfl⟩ := List.mem_map.1 ((List.dropWhile_suffix _).subset hc)
    exact Text.toLower_toLower d
  rw [← String.toList_inj, toList_normalExtension, toList_normalExtension, hsmall]
  exact List.dropWhile_idempotent _ _

theorem normalExtension_recased {a b : String} (h : Recased a.toList b.toList) : normalExtension a = normalExtension b := by
  rw [← String.toList_inj, toList_normalExtension, toList_normalExtension, Text.recased_iff.1 h]

theorem normalExtensions_eq (entries : List String) :
    normalExtensions entries = (entries.map normalExtension).filter (· != "") := rfl

theorem mem_normalExtensions {e : String} {entries : List String} :
    e ∈ normalExtensions entries ↔ (∃ entry ∈ entries, normalExtension entry = e) ∧ e ≠ "" := by
  simp [normalExtensions_eq]

theorem normalExtensions_normalExtensions (entries : List String) :
    normalExtensions (normalExtensions entries) = normalExtensions entries := by
  have hsame : (normalExtensions entries).map normalExtension = normalExtensions entries := by
    refine (List.map_congr_left fun e he => ?_).trans (List.map_id _)
    obtain ⟨⟨entry, -, rfl⟩, -⟩ := mem_normalExtensions.1 he
    exact normalExtension_normalExtension entry
  rw [normalExtensions_eq (normalExtensions entries), hsame, normalExtensions_eq, List.filter_filter]
  simp

theorem normalExtensions_recased {entries entries' : List String}
    (h : List.Forall₂ (fun a b : String => Recased a.toList b.toList) entries entries') :
    normalExtensions entries = normalExtensions entries' := by
  have hsame : entries.map normalExtension = entries'.map normalExtension := by
    rw [← List.forall₂_eq_eq_eq, List.forall₂_map_left_iff, List.forall₂_map_right_iff]
    exact h.imp fun _ _ => normalExtension_recased
  rw [normalExtensions_eq, normalExtensions_eq, hsame]

theorem dropWhile_dots_iff {cs rest : List Char} :
    cs.dropWhile (· == '.') = rest ↔ ∃ n, cs = List.replicate n '.' ++ rest ∧ rest.head? ≠ some '.' := by
  constructor
  · rintro rfl
    refine ⟨(cs.takeWhile (· == '.')).length, ?_, fun hhead => ?_⟩
    · have hdots : cs.takeWhile (· == '.') = List.replicate (cs.takeWhile (· == '.')).length '.' :=
        List.eq_replicate_iff.2 ⟨rfl, fun c hc => by simpa using List.mem_takeWhile_imp hc⟩
      rw [← hdots, List.takeWhile_append_dropWhile]
    · have hnot := List.head?_dropWhile_not (· == '.') cs
      rw [hhead] at hnot
      cases hnot
  · rintro ⟨n, rfl, hhead⟩
    rw [List.dropWhile_append_of_pos fun c hc => beq_iff_eq.2 (List.eq_of_mem_replicate hc)]
    cases rest with
    | nil => rfl
    | cons c rest => exact List.dropWhile_cons_of_neg (by simpa using hhead)

/-- **An entry names an extension** if what it has behind its leading dots is the extension, but for the case of letters. -/
theorem names_extension_iff {entry : String} {e : List Char} :
    normalExtension entry = String.ofList (e.map Char.toLower) ∧ String.ofList (e.map Char.toLower) ≠ "" ↔
      ∃ dots rest, entry.toList = List.replicate dots '.' ++ rest ∧ rest.head? ≠ some '.' ∧ rest ≠ [] ∧ Recased rest e := by
  have hempty : String.ofList (e.map Char.toLower) ≠ "" ↔ e.map Char.toLower ≠ [] := by
    rw [ne_eq, ← String.toList_inj, String.toList_ofList]
    rfl
  rw [hempty, normalExtension, Text.lowerAscii_ofList, String.ofList_inj]
  constructor
  · rintro ⟨hsame, hne⟩
    obtain ⟨dots, hentry, hhead⟩ := dropWhile_dots_iff.1 rfl
    refine ⟨dots, _, hentry, hhead, ?_, Text.recased_iff.2 hsame⟩
    rw [← hsame] at hne
    simpa using hne
  · rintro ⟨dots, rest, hentry, hhead, hne, hsame⟩
    rw [dropWhile_dots_iff.2 ⟨dots, hentry, hhead⟩, Text.recased_iff.1 hsame]
    refine ⟨rfl, ?_⟩
    rw [← Text.recased_iff.1 hsame]
    simpa using hne

/-! ## Detection -/

theorem isHtml_normalExtensions_iff {p : Path} {entries : List String} : isHtml p (normalExtensions entries) = true ↔
    ∃ stem ext e, p.parts.getLast? = some (.name (stem ++ Path.dot :: ext)) ∧ stem ≠ [] ∧ Path.dot ∉ ext ∧
      Text.decode? ext = some e ∧ ∃ entry ∈ entries, ∃ dots rest, entry.toList = List.replicate dots '.' ++ rest ∧
        rest.head? ≠ some '.' ∧ rest ≠ [] ∧ Recased rest e := by
  rw [isHtml_iff]
  simp only [Path.extension?_eq_some_iff, mem_normalExtensions, ← names_extension_iff]
  constructor
  · rintro ⟨ext, e, ⟨stem, hlast, hstem, hext⟩, he, ⟨entry, hentry, hsame⟩, hne⟩
    exact ⟨stem, ext, e, hlast, hstem, hext, he, entry, hentry, hsame, hne⟩
  · rintro ⟨stem, ext, e, hlast, hstem, hext, he, entry, hentry, hsame, hne⟩
    exact ⟨ext, e, ⟨stem, hlast, hstem, hext⟩, he, ⟨entry, hentry, hsame⟩, hne⟩

/-- Nothing is an extension if a dot is missing, is the only one and in front, or is at the end. -/
theorem Path.ext_eq_nil {name stem ext : Bytes} (hname : name = stem ++ dot :: ext) (hstem : stem ≠ []) (hext : dot ∉ ext)
    (hshape : dot ∉ name ∨ (∃ rest, name = dot :: rest ∧ dot ∉ rest) ∨ (∃ front, name = front ++ [dot])) : ext = [] := by
  rcases hshape with hnone | ⟨rest, hrest, honly⟩ | ⟨front, hfront⟩
  · exact absurd (hname ▸ List.mem_append_right _ List.mem_cons_self) hnone
  · -- The last dot is not the first octet of the name.
    obtain ⟨b, stem, rfl⟩ := List.exists_cons_of_ne_nil hstem
    rw [hname, List.cons_append, List.cons.injEq] at hrest
    exact absurd (hrest.2 ▸ List.mem_append_right _ List.mem_cons_self) honly
  · rcases List.eq_nil_or_concat ext with rfl | ⟨ext, b, rfl⟩
    · rfl
    · rw [List.concat_eq_append] at hname hext
      rw [hname, ← List.cons_append, ← List.append_assoc, List.append_singleton_inj] at hfront
      exact absurd (List.mem_append_right _ (List.mem_singleton.2 hfront.2.symm)) hext

/-- **A path is HTML by its extension, in any case, and a configured one, in any case and with any dots in front.**  The
extension is what the last part of the path has after its last dot, if that part is a name with something before the dot and
the extension is UTF-8.  So a path whose last part is `..` is never HTML, nor is one that ends in a name without a dot, with
its only dot in front or with a dot at its end.  The case of letters changes nothing, in the path or in what is configured;
and what is configured has a normal form that is its own. -/
theorem html_detection (p : Path) (entries : List String) :
    (isHtml p (normalExtensions entries) = true ↔
      ∃ stem ext e, p.parts.getLast? = some (.name (stem ++ Path.dot :: ext)) ∧ stem ≠ [] ∧ Path.dot ∉ ext ∧
        Text.decode? ext = some e ∧ ∃ entry ∈ entries, ∃ dots rest, entry.toList = List.replicate dots '.' ++ rest ∧
          rest.head? ≠ some '.' ∧ rest ≠ [] ∧ Recased rest e) ∧
    ((∀ name, p.parts.getLast? ≠ some (.name name)) → isHtml p (normalExtensions entries) = false) ∧
    (∀ name, p.parts.getLast? = some (.name name) →
      Path.dot ∉ name ∨ (∃ rest, name = Path.dot :: rest ∧ Path.dot ∉ rest) ∨ (∃ front, name = front ++ [Path.dot]) →
      isHtml p (normalExtensions entries) = false) ∧
    (∀ q entries', RecasedOctets p.octets q.octets →
      List.Forall₂ (fun a b : String => Recased a.toList b.toList) entries entries' →
      isHtml q (normalExtensions entries') = isHtml p (normalExtensions entries)) ∧
    normalExtensions (normalExtensions entries) = normalExtensions entries := by
  refine ⟨isHtml_normalExtensions_iff, fun hlast => ?_, fun name hname hshape => ?_, fun q entries' hpath hentries => ?_,
    normalExtensions_normalExtensions entries⟩
  · rw [Bool.eq_false_iff, ne_eq, isHtml_normalExtensions_iff]
    rintro ⟨stem, ext, e, hname, -⟩
    exact hlast _ hname
  · rw [Bool.eq_false_iff, ne_eq, isHtml_normalExtensions_iff]
    rintro ⟨stem, ext, e, hlast, hstem, hext, he, entry, -, dots, rest, -, -, hne, hrecased⟩
    rw [hname] at hlast
    -- No entry is empty behind its dots.
    obtain rfl := Path.ext_eq_nil (Path.Part.name.inj (Option.some.inj hlast)) hstem hext hshape
    obtain rfl : [] = e := Option.some.inj ((Text.decode?_encode []).symm.trans he)
    exact hne (List.forall₂_nil_right_iff.1 hrecased)
  · rw [isHtml_recased hpath, normalExtensions_recased hentries]

/-- Directories of a path and separators at its end are no part of its extension, and letters of any case are the same. -/
theorem html_detection_spellings :
    isHtml (.ofText "a.md/Index.HTM/") (normalExtensions ["", "..", "..Htm"]) = true ∧
    isHtml (.ofText "a.md/iNDEX.htm/") (normalExtensions ["", "..", "..hTM"]) = true ∧
    isHtml (.ofText "a.htm/..") (normalExtensions ["", "..", "..Htm"]) = false ∧
    isHtml (.ofText "a/.htm") (normalExtensions ["", "..", "..Htm"]) = false ∧
    isHtml (.ofText "a.") (normalExtensions ["", "..", "..Htm"]) = false := by
  have hhtml : isHtml (.ofText "a.md/Index.HTM/") (normalExtensions ["", "..", "..Htm"]) = true := by
    refine (html_detection _ _).1.2 ⟨Bytes.ofText "Index", Bytes.ofText "HTM", "HTM".toList, ?_⟩
    refine ⟨by decide +kernel, by decide +kernel, by decide +kernel, by decide +kernel, "..Htm", by decide, ?_⟩
    exact ⟨2, "Htm".toList, by decide, by decide, by decide, Text.recased_iff.2 (by decide)⟩
  refine ⟨hhtml, ?_, ?_, ?_, ?_⟩
  · rw [← hhtml]
    refine (html_detection _ _).2.2.2.1 _ _ (Text.recasedOctets_iff.2 (by decide +kernel)) ?_
    have hrecased : Recased "..Htm".toList "..hTM".toList := Text.recased_iff.2 (by decide)
    exact .cons (Text.recased_iff.2 rfl) (.cons (Text.recased_iff.2 rfl) (.cons hrecased .nil))
  · have hup : (Path.ofText "a.htm/..").parts.getLast? = some .up := by decide +kernel
    refine (html_detection _ _).2.1 fun name hname => ?_
    rw [hup] at hname
    cases hname
  · have hlast : (Path.ofText "a/.htm").parts.getLast? = some (.name (Path.dot :: Bytes.ofText "htm")) := by decide +kernel
    exact (html_detection _ _).2.2.1 _ hlast (.inr (.inl ⟨_, rfl, by decide +kernel⟩))
  · have hlast : (Path.ofText "a.").parts.getLast? = some (.name (Bytes.ofText "a" ++ [Path.dot])) := by decide +kernel
    exact (html_detection _ _).2.2.1 _ hlast (.inr (.inr ⟨_, rfl⟩))

end Folio
