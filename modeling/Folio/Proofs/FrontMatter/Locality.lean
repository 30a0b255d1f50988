import Folio.ContentFile
import Folio.Proofs.FrontMatter.Grammar
import Folio.Proofs.Text.Octets
import Mathlib.Data.List.Basic
/-!
# Front matter of octets

What closes a block is a complete line, so nothing behind it has a say in the block (`split_append`), and reading octets
that are UTF-8 leaves no character open, so nothing behind them has a say in their text.  A block in UTF-8 is found the same
whatever octets follow it (`splitOctets_append`).  The contents of a file in UTF-8 are its octets behind its block, none of
them changed (`exists_front`).
-/
namespace Folio

namespace FrontMatter

/-- What a text with a block has in front of its rest. -/
def Parts.front (p : Parts) : List Char := p.mark ++ (p.opening ++ (p.yaml ++ p.closing))

theorem Parts.text_eq (p : Parts) : p.text = p.front ++ p.rest := by
  simp only [text, front, List.append_assoc]

/-- A text that is a block and nothing else, with a newline at its end. -/
structure IsBlock (cs : List Char) : Prop where
  found : hasFrontMatter cs = true
  whole : (split cs).body = ""
  newline : cs.getLast? = some '\n'

/-- **The last line of a block is the one that closes it.** -/
theorem IsBlock.exists_isCut {cs : List Char} (h : IsBlock cs) : ∃ p : Parts, p.IsCut cs ∧ IsLine p.closing := by
  obtain ⟨p, hp⟩ := hasFrontMatter_iff.1 h.found
  have hrest : p.rest = [] := by
    have hbody := h.whole
    rwa [hp.split_eq, ← String.toList_inj, String.toList_ofList] at hbody
  refine ⟨p, hp, ?_⟩
  obtain ⟨htext, f, hf⟩ := hp
  rcases hf.closing with hclosing | ⟨hnone, -⟩
  · exact hclosing
  · have hlast := h.newline
    rw [← htext, Parts.text_eq, hrest, List.append_nil, Parts.front, ← List.append_assoc, ← List.append_assoc,
      List.getLast?_append_of_ne_nil _ hf.closing_ne_nil] at hlast
    exact absurd (List.mem_of_getLast? hlast) hnone

/-- **More text behind a block is more body**, once the line that closes the block is complete. -/
theorem split_append {p : Parts} {raw : List Char} (hp : p.IsCut raw) (hclosing : IsLine p.closing) (more : List Char) :
    split (raw ++ more) = { split raw with body := (split raw).body ++ String.ofList more } := by
  have hmore := hp.withRest hclosing (p.rest ++ more)
  have htext : Parts.text { p with rest := p.rest ++ more } = raw ++ more := by
    rw [← hp.1, Parts.text_eq, Parts.text_eq, List.append_assoc]
    rfl
  rw [htext] at hmore
  rw [hmore.split_eq, hp.split_eq, String.ofList_append]

/-! ## Octets -/

theorem splitOctets_of_decode? {octets : Bytes} {cs : List Char} (h : Text.decode? octets = some cs) :
    splitOctets octets = split cs := by
  rw [splitOctets, Text.decode_of_decode? h]

theorem splitOctets_append {octets : Bytes} {cs : List Char} (h : Text.decode? octets = some cs) (hblock : IsBlock cs)
    (more : Bytes) : splitOctets (octets ++ more) = { split cs with body := more.toText } := by
  obtain ⟨p, hp, hclosing⟩ := hblock.exists_isCut
  rw [splitOctets, Text.decode_append_of_decode? h, split_append hp hclosing, hblock.whole, String.empty_append]
  rfl

/-- **The body of a text is its octets behind those of the block.** -/
theorem exists_front {octets : Bytes} {cs : List Char} (h : Text.decode? octets = some cs) :
    ∃ front, octets = front ++ Bytes.ofText (split cs).body ∧ (hasFrontMatter cs = false → front = []) ∧
      ∀ p : Parts, p.IsCut cs → front = Text.encode p.front := by
  have hoctets := Text.encode_of_decode? h
  by_cases hcut : ∃ p : Parts, p.IsCut cs
  · obtain ⟨p, hp⟩ := hcut
    refine ⟨Text.encode p.front, ?_, fun hnone => ?_, fun q hq => by rw [hp.eq hq]⟩
    · rw [← hoctets, hp.split_eq, Bytes.ofText, String.toList_ofList, ← hp.1, Parts.text_eq]
      exact List.flatMap_append
    · rw [hasFrontMatter_iff.2 ⟨p, hp⟩] at hnone
      cases hnone
  · refine ⟨[], ?_, fun _ => rfl, fun p hp => absurd ⟨p, hp⟩ hcut⟩
    rw [(split_of_no_cut hcut).2.2, Bytes.ofText, String.toList_ofList, List.nil_append, hoctets]

end FrontMatter

/-- **Splitting octets is local.**  Octets that are UTF-8 are split as their text is.  If that text is a whole block with a
newline at its end, then any octets at all may follow: they leave the attributes, the block and the line of the body as they
are, and the body is the text of these octets alone.  And the contents of a file in UTF-8 are its octets behind those of the
block, or all of them if there is none. -/
theorem FrontMatter.splitOctets_local {octets : Bytes} {cs : List Char} (h : Text.decode? octets = some cs) :
    splitOctets octets = split cs ∧
    (IsBlock cs → ∀ more : Bytes, splitOctets (octets ++ more) = { split cs with body := more.toText }) ∧
    ∀ (t : FileTree) (times : Calendar.Moment) (path : Path), t.read path = .ok octets →
      ∃ f front rest, ContentFile.read t times path = .ok f ∧ f.contents = .buffer rest ∧ octets = front ++ rest ∧
        f.meta? = some (split cs).attributes ∧ (hasFrontMatter cs = false → front = []) ∧
        ∀ p : Parts, p.IsCut cs → front = Text.encode p.front := by
  refine ⟨splitOctets_of_decode? h, splitOctets_append h, fun t times path hread => ?_⟩
  obtain ⟨front, hoctets, hnone, hcut⟩ := exists_front h
  have hfile : ContentFile.read t times path = .ok ⟨path, .buffer (Bytes.ofText (split cs).body),
      some (split cs).attributes, { FileStat.at times with size := octets.length }⟩ := by
    rw [ContentFile.read, hread]
    dsimp only
    rw [splitOctets_of_decode? h]
  exact ⟨_, front, _, hfile, rfl, hoctets, rfl, hnone, hcut⟩

/-- A character that is not read to its end, and the line of a fence, behind a block; and a file with no block. -/
theorem FrontMatter.splitOctets_local_truncated :
    let raw := "\ufeff---\na: 1\n... \n"
    let t : FileTree := ⟨[([Bytes.ofText "x"], .file (Bytes.ofText "--\n"))], []⟩
    IsBlock raw.toList ∧
    (splitOctets (Bytes.ofText raw ++ [0xE2, 0x82, 0x2D, 0x2D, 0x2D, 0x0A])).block = some "a: 1\n" ∧
    (splitOctets (Bytes.ofText raw ++ [0xE2, 0x82, 0x2D, 0x2D, 0x2D, 0x0A])).bodyLine = 4 ∧
    (splitOctets (Bytes.ofText raw ++ [0xE2, 0x82, 0x2D, 0x2D, 0x2D, 0x0A])).body = "\ufffd---\n" ∧
    ∃ f, ContentFile.read t ⟨0, 0, 0⟩ (.ofText "x") = .ok f ∧ f.contents = .buffer (Bytes.ofText "--\n") := by
  intro raw t
  have hblock : IsBlock raw.toList := by
    constructor <;> decide +kernel
  have hsplit := (splitOctets_local (Text.decode?_encode raw.toList)).2.1 hblock [0xE2, 0x82, 0x2D, 0x2D, 0x2D, 0x0A]
  have hfile := (splitOctets_local (Text.decode?_encode "--\n".toList)).2.2 t ⟨0, 0, 0⟩ (.ofText "x") rfl
  obtain ⟨f, front, rest, hread, hcontents, hoctets, -, hnone, -⟩ := hfile
  obtain rfl := hnone (by decide +kernel)
  rw [Bytes.ofText, hsplit]
  refine ⟨hblock, by decide +kernel, by decide +kernel, by decide +kernel, f, hread, ?_⟩
  rw [hcontents, Bytes.ofText, hoctets, List.nil_append]

end Folio
