import Folio.Proofs.Yaml.Scanning
import Folio.Yaml.Reading
/-!
# Reading entries line by line

The tokens of entries are grouped into one mapping of scalars, and no line says anything of another one
(`blockEntries_lines`).  Reading the mapping inserts the entries into a table in their order (`datum_lines`).
-/
namespace Folio.Yaml

/-- The nodes of lines. -/
def linesNodes : Mark → List (String × String) → List (Node × Node)
  | _, [] => []
  | m, e :: es =>
    (.scalar m none e.1 true, .scalar (m.skip (e.1.toList.length + 2)) none e.2 false)
      :: linesNodes ((entryStop m e).newline 1) es

/-- Where lines end. -/
def linesStop : Mark → List (String × String) → Mark
  | m, [] => m
  | m, e :: es => linesStop ((entryStop m e).newline 1) es

namespace Grouping

/-- Tokens up to the end of the text, without directives and anchors in front of them. -/
def before (ts : List Token) : Grouping := ⟨ts, none, [], [], [], false⟩

section
variable (t : Token) (start m stop : Mark) (text : String) (plain : Bool) (ts : List Token)

@[simp] theorem tokens_before : (before ts).tokens = ts := rfl

@[simp] theorem peek_before : (before (t :: ts)).peek = .ok t := rfl

@[simp] theorem skip_before : (before (t :: ts)).skip = before ts := rfl

@[simp] theorem stuck_before : (before ts).stuck = false := rfl

/-- A scalar without anchor and tag is a node. -/
@[simp] theorem node_scalar (indentless : Bool) (fuel : Nat) :
    node true indentless (fuel + 1) (before (⟨.scalar text plain, m, stop⟩ :: ts)) =
      (.scalar m none text plain, before ts) := by
  simp [node, properties, resolveTag, declare, define]

/-- Behind a colon a scalar is the value. -/
@[simp] theorem blockValue_scalar (stop' : Mark) (fuel : Nat) :
    blockValue (fuel + 2) (before (⟨.value, start, stop'⟩ :: ⟨.scalar text plain, m, stop⟩ :: ts)) =
      (.scalar m none text plain, before ts) := by
  simp [blockValue, nextIs, isKeyOrEnd]

theorem blockEntries_line (e : String × String) (fuel : Nat) :
    blockEntries start (fuel + 3) (before (entryTokens m e ++ ts)) =
      let (entries, g) := blockEntries start (fuel + 2) (before ts)
      ((.scalar m none e.1 true, .scalar (m.skip (e.1.toList.length + 2)) none e.2 false) :: entries, g) := by
  rw [blockEntries]
  simp [entryTokens, nextIs, isKeyOrEnd]

theorem blockEntries_lines : ∀ (es : List (String × String)) (m : Mark) (fuel : Nat),
    blockEntries start (es.length + fuel + 2) (before (linesTokens m es)) =
      (linesNodes m es, before [⟨.streamEnd, linesStop m es, linesStop m es⟩])
  | [], _, _ => rfl
  | e :: es, m, fuel => by
    have hfuel : (e :: es).length + fuel + 2 = es.length + fuel + 3 := by simp; omega
    rw [hfuel, linesTokens, blockEntries_line, blockEntries_lines es]
    rfl

theorem node_lines (es : List (String × String)) (fuel : Nat) :
    node true false (es.length + fuel + 3) (before (⟨.blockMappingStart, start, stop⟩ :: linesTokens m es)) =
      (.mapping start none (linesNodes m es), before [⟨.streamEnd, linesStop m es, linesStop m es⟩]) := by
  have hentries := blockEntries_lines start es m fuel
  simp [node, properties, resolveTag, declare, define, hentries]

end

end Grouping

theorem length_linesTokens : ∀ (m : Mark) (es : List (String × String)), es.length ≤ (linesTokens m es).length
  | _, [] => Nat.zero_le _
  | m, e :: es => by
    have ih := length_linesTokens ((entryStop m e).newline 1) es
    simp [linesTokens, entryTokens]
    omega

theorem Document.ofTokens_lines (e : String × String) (es : List (String × String)) :
    ofTokens (⟨.blockMappingStart, .origin, .origin⟩ :: linesTokens .origin (e :: es)) none =
      ⟨some (.mapping .origin none (linesNodes .origin (e :: es))), [], .clean⟩ := by
  have hlength := length_linesTokens .origin (e :: es)
  obtain ⟨fuel, hfuel⟩ : ∃ n, 2 * ((linesTokens .origin (e :: es)).length + 1) + 8 = (e :: es).length + n + 3 :=
    ⟨2 * (linesTokens .origin (e :: es)).length + 7 - (e :: es).length, by omega⟩
  show ofContent (Grouping.before (⟨.blockMappingStart, .origin, .origin⟩ :: linesTokens .origin (e :: es))) = _
  rw [ofContent, Grouping.tokens_before, List.length_cons, hfuel, Grouping.node_lines]
  rfl

/-! ## Data -/

theorem Read.bind_ok {α β : Type} {x : Read α} {f : α → Read β} {s : Surroundings} {n k : Nat} {a : α}
    (h : x s n = .ok (a, k)) : (x >>= f) s n = f a s k := by
  simp only [Bind.bind, h]

section
variable (s : Surroundings) (n : Nat) (steps : List Step) (m : Mark) (text : String)

theorem readText_scalar (expected : String) (plain : Bool) :
    readText expected steps (.scalar m none text plain) s n = .ok (text, n) := rfl

/-- A quoted scalar is a text, on whatever level. -/
theorem readDatum_quoted (level : Nat) : readDatum level steps (.scalar m none text false) s n = .ok (.text text, n) := by
  cases level <;> rw [readDatum] <;> rfl

theorem readDatumFields_lines (level : Nat) : ∀ (es : List (String × String)) (m : Mark) (fields : Fields),
    readDatumFields level steps fields (linesNodes m es) s n =
      .ok (es.foldl (fun t e => Table.insert e.1 (.text e.2) t) fields, n)
  | [], m, fields => by rw [linesNodes, readDatumFields]; rfl
  | e :: es, m, fields => by
    have ih := readDatumFields_lines level es ((entryStop m e).newline 1) (Table.insert e.1 (.text e.2) fields)
    rw [linesNodes, readDatumFields, Read.bind_ok (readText_scalar s n steps m e.1 _ _),
      Read.bind_ok (readDatum_quoted s n _ _ e.2 level)]
    exact ih

theorem readDatum_mapping (level : Nat) (entries : List (Node × Node)) (fields : Fields)
    (h : readDatumFields level steps [] entries s n = .ok (fields, n)) :
    readDatum (level + 1) steps (.mapping m none entries) s n = .ok (.object fields, n) := by
  rw [readDatum]
  show Read.placed m steps (readDatumFields level steps [] entries >>= fun fields => pure (Datum.object fields)) s n = _
  rw [Read.placed, Read.bind_ok h]
  rfl

end

/-- **A text of entries is the table of them**; the last entry of a key stands. -/
theorem datum_lines {e : String × String} {es : List (String × String)} (h : ∀ d ∈ e :: es, IsEntry d) :
    datum (String.ofList ((e :: es).flatMap entryLine)) =
      .ok (.object (Table.ofEntries ((e :: es).map fun e => (e.1, .text e.2)))) := by
  have hdocument : Document.ofText ((e :: es).flatMap entryLine) =
      ⟨some (.mapping .origin none (linesNodes .origin (e :: es))), [], .clean⟩ := by
    rw [Document.ofText, tokens_lines h]
    exact Document.ofTokens_lines e es
  have hread (s : Surroundings) :=
    readDatum_mapping s 0 [] .origin 127 _ _ (readDatumFields_lines s 0 [] 127 (e :: es) .origin [])
  rw [datum, String.toList_ofList, readDocument, hdocument]
  dsimp only [deepestLevel]
  rw [hread]
  dsimp only
  rw [Table.ofEntries, Table.merge, List.foldl_map]

end Folio.Yaml
