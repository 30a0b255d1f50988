import Folio.Proofs.FrontMatter.Grammar
import Folio.Proofs.Registry.History
import Folio.Proofs.Yaml.Entries
/-!
# Declared attributes

A block that declares attributes line by line is cut out by its fences, since no line of an entry closes one
(`isCut_block`), and its YAML is the mapping of the entries (`attributes_lines`).  So splitting gives back what was declared,
in whatever order, and leaves the body alone, even if that looks like a block itself (`split_declared`).
-/
namespace Folio.FrontMatter

open Yaml (IsEntry IsPlain IsQuotable entryLine)

/-! ## Lines of entries -/

theorem isLine_entryLine {e : String × String} (he : IsEntry e) : IsLine (entryLine e) := by
  have hnewline : ∀ c, Yaml.isBreak c = false → '\n' ≠ c := by
    rintro c hc rfl
    cases hc
  refine ⟨e.1.toList ++ ':' :: ' ' :: '"' :: (e.2.toList ++ ['"']), ?_, by simp [entryLine]⟩
  simp only [List.mem_append, List.mem_cons, List.not_mem_nil, or_false, not_or]
  exact ⟨fun h => hnewline _ (he.key _ h).isBreak rfl, by decide, by decide, by decide,
    fun h => hnewline _ (he.text _ h).isBreak rfl, by decide⟩

theorem trimEnd_entryLine (e : String × String) :
    Text.trimEnd (entryLine e) = e.1.toList ++ ':' :: ' ' :: '"' :: (e.2.toList ++ ['"']) := by
  have hquote := Text.trimEnd_concat (e.1.toList ++ ':' :: ' ' :: '"' :: e.2.toList) '"' (by decide)
  have hline : entryLine e = e.1.toList ++ ':' :: ' ' :: '"' :: e.2.toList ++ ['"'] ++ ['\n'] := by simp [entryLine]
  rw [hline, Text.trimEnd_append_of_blank _ _ (List.forall_mem_singleton.2 rfl), hquote]
  simp

/-- A line that starts with a letter closes no fence. -/
theorem trimEnd_entryLine_not_mem {e : String × String} (he : IsEntry e) (f : Fence) :
    Text.trimEnd (entryLine e) ∉ f.closings := by
  have hclosings : ∀ l ∈ f.closings, l.head?.any Char.isAlpha = false := by cases f <;> decide
  intro hmem
  obtain ⟨c, hc, hletter⟩ := he.letter
  have hhead : (Text.trimEnd (entryLine e)).head? = some c := by
    rw [trimEnd_entryLine, List.head?_append, hc]
    rfl
  have hsign := hclosings _ hmem
  rw [hhead, Option.any_some, hletter] at hsign
  cases hsign

section
variable {entries : List (String × String)} (h : ∀ e ∈ entries, IsEntry e)
include h

theorem lines_of_entries (f : Fence) : ∀ l ∈ entries.map entryLine, IsLine l ∧ Text.trimEnd l ∉ f.closings := by
  intro l hl
  obtain ⟨e, he, rfl⟩ := List.mem_map.1 hl
  exact ⟨isLine_entryLine (h e he), trimEnd_entryLine_not_mem (h e he) f⟩

theorem lines_entries : lines (entries.flatMap entryLine) = entries.map entryLine := by
  have hlines := lines_append_lines (fun l hl => (lines_of_entries h .dashes l hl).1) []
  rwa [List.append_nil, ← List.flatMap_def, lines, List.append_nil] at hlines

end

/-- The lines of entries between two lines of dashes. -/
def block (entries : List (String × String)) : List Char :=
  "---\n".toList ++ (entries.flatMap entryLine ++ "---\n".toList)

theorem isCut_block {entries : List (String × String)} (h : ∀ e ∈ entries, IsEntry e) (body : List Char) :
    Parts.IsCut ⟨[], "---\n".toList, entries.flatMap entryLine, "---\n".toList, body⟩ (block entries ++ body) := by
  have hdashes : IsLine "---\n".toList := ⟨"---".toList, by decide, by decide⟩
  have hopens : Text.trimEnd "---\n".toList ∈ Fence.dashes.openings := by decide
  have hcloses : Text.trimEnd "---\n".toList ∈ Fence.dashes.closings := by decide
  exact ⟨by simp [Parts.text, block], .dashes, .inl rfl, hdashes, hopens,
    ⟨entries.map entryLine, List.flatMap_def, lines_of_entries h .dashes⟩, .inl hdashes, hcloses⟩

/-! ## What a block declares -/

theorem attributes_lines {entries : List (String × String)} (h : ∀ e ∈ entries, IsEntry e) :
    attributes (entries.flatMap entryLine) = Table.ofEntries (entries.map fun e => (e.1, .text e.2)) := by
  cases entries with
  | nil => rfl
  | cons e es =>
    have hne : Text.trim ((e :: es).flatMap entryLine) ≠ [] := by
      obtain ⟨c, hc, hletter⟩ := (h e List.mem_cons_self).letter
      obtain ⟨tail, htail⟩ := List.head?_eq_some_iff.1 hc
      have hblank : Text.isBlank c = false := Text.isBlank_of_isAlphanum (by rw [Char.isAlphanum, hletter, Bool.true_or])
      rw [List.flatMap_cons, entryLine, htail]
      exact Text.trim_ne_nil hblank _
    rw [attributes, if_neg hne, Yaml.datum_lines h]

/-- Entries may come in any order, and repeat a key; then the last entry of it stands. -/
theorem split_entries {entries : List (String × String)} (h : ∀ e ∈ entries, IsEntry e) (body : List Char) :
    split (block entries ++ body) =
      ⟨Table.ofEntries (entries.map fun e => (e.1, .text e.2)), String.ofList body,
        some (String.ofList (entries.flatMap entryLine)), entries.length + 3⟩ := by
  rw [(isCut_block h body).split_eq, attributes_lines h, lines_entries h, List.length_map]

/-! ## Generated blocks -/

def isKeyChar (c : Char) : Bool := c.isLower || c.isDigit || c == '_'

/-- Keys of a `k` and at most a hundred small letters, digits and underscores behind it. -/
def IsKey (key : String) : Prop :=
  key.toList.head? = some 'k' ∧ key.toList.tail.length ≤ 100 ∧ key.toList.tail.all isKeyChar = true

/-- Texts of letters, digits and spaces. -/
def IsText (text : String) : Prop := (text.toList.all fun c => c.isAlphanum || c == ' ') = true

instance (key : String) : Decidable (IsKey key) := inferInstanceAs (Decidable (_ ∧ _ ∧ _))

instance (text : String) : Decidable (IsText text) := inferInstanceAs (Decidable (_ = true))

theorem isPermitted_of_isAlphanum {c : Char} (h : c.isAlphanum = true) : Yaml.isPermitted c = true := by
  have hrange := Text.range_of_isAlphanum h
  simp only [Yaml.isPermitted, Bool.or_eq_true, Bool.and_eq_true, beq_iff_eq, decide_eq_true_eq]
  omega

theorem isPlain_of_isAlphanum {c : Char} (h : c.isAlphanum = true) : IsPlain c := by
  have hne (d : Char) : d.isAlphanum = false → c ≠ d := Yaml.ne_of_kind h
  constructor
  case permitted => exact isPermitted_of_isAlphanum h
  all_goals simp [Yaml.isSpace, Yaml.isBreak, hne]

theorem isQuotable_of_isAlphanum {c : Char} (h : c.isAlphanum = true) : IsQuotable c := by
  have hne (d : Char) : d.isAlphanum = false → c ≠ d := Yaml.ne_of_kind h
  constructor
  case permitted => exact isPermitted_of_isAlphanum h
  all_goals simp [Yaml.isBreak, hne]

theorem isPlain_of_isKeyChar {c : Char} (h : isKeyChar c = true) : IsPlain c := by
  simp only [isKeyChar, Bool.or_eq_true, beq_iff_eq] at h
  rcases h with (hlower | hdigit) | rfl
  · have hkind : ((c.isUpper || c.isLower) || c.isDigit) = true := by simp [hlower]
    exact isPlain_of_isAlphanum hkind
  · have hkind : (c.isAlpha || c.isDigit) = true := by simp [hdigit]
    exact isPlain_of_isAlphanum hkind
  · constructor <;> decide

theorem IsKey.isEntry {key text : String} (hkey : IsKey key) (htext : IsText text) : IsEntry (key, text) := by
  obtain ⟨hhead, hlength, hchars⟩ := hkey
  obtain ⟨tail, htail⟩ := List.head?_eq_some_iff.1 hhead
  rw [htail, List.tail_cons] at hlength hchars
  constructor
  case letter => exact ⟨'k', by rw [htail]; rfl, by decide⟩
  case key =>
    rw [htail]
    exact List.forall_mem_cons.2
      ⟨isPlain_of_isAlphanum (by decide), fun c hc => isPlain_of_isKeyChar (List.all_eq_true.1 hchars c hc)⟩
  case length =>
    rw [htail, List.length_cons]
    omega
  case text =>
    intro c hc
    rcases Bool.or_eq_true_iff.1 (List.all_eq_true.1 htext c hc) with hletter | hspace
    · exact isQuotable_of_isAlphanum hletter
    · rw [beq_iff_eq.1 hspace]
      constructor <;> decide

/-- **A generated block yields what it declares.**  Its entries are those of a table, one on each line and in any order;
splitting gives back that table, with the texts as they were declared, and the body as it stands. -/
theorem split_declared {m : Table String} (hm : Table.Sorted m) (hkeys : ∀ e ∈ m, IsKey e.1)
    (htexts : ∀ e ∈ m, IsText e.2) {entries : List (String × String)} (h : entries.Perm m) (body : List Char) :
    split (block entries ++ body) =
      ⟨m.map fun e => (e.1, .text e.2), String.ofList body, some (String.ofList (entries.flatMap entryLine)),
        m.length + 3⟩ := by
  have hentries : ∀ e ∈ entries, IsEntry e := fun e he =>
    (hkeys e (h.mem_iff.1 he)).isEntry (htexts e (h.mem_iff.1 he))
  have hnames : Table.names (m.map fun e => (e.1, Datum.text e.2)) = Table.names m := List.map_map
  have hdata : Table.Sorted (m.map fun e => (e.1, Datum.text e.2)) := by rwa [Table.Sorted, hnames]
  rw [split_entries hentries, Table.ofEntries_of_perm hdata (h.map _), h.length_eq]

/-- A declared text is empty, another one has blanks around it, and the body is a block that comes again. -/
theorem split_declared_fenced :
    split "---\nk_9: \"\"\nk: \"  a  b \"\n---\n---\nk: \"x\"\n---\n".toList =
      ⟨[("k", .text "  a  b "), ("k_9", .text "")], "---\nk: \"x\"\n---\n", some "k_9: \"\"\nk: \"  a  b \"\n", 5⟩ := by
  have hsorted : Table.Sorted [("k", "  a  b "), ("k_9", "")] := by
    simp only [Table.Sorted, Table.names]
    decide
  have hsplit := split_declared hsorted (by decide) (by decide) (List.Perm.swap ("k", "  a  b ") ("k_9", "") [])
    "---\nk: \"x\"\n---\n".toList
  exact hsplit

end Folio.FrontMatter
