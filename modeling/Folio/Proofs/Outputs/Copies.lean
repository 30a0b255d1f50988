import Folio.Proofs.Outputs.Keeping
import Folio.Proofs.Text.Octets
/-!
# Files that are copied

A file that is not HTML and has no front matter is written as it was read, but it was read as text: what is written is the
text of its octets.  So it is copied octet by octet exactly if it is UTF-8, and everything that is not is replaced.
-/
namespace Folio

/-- What the octets of a file are as text. -/
def textOctets (octets : Bytes) : Bytes := Text.encode (Text.decode octets)

theorem ofText_body_splitOctets {octets : Bytes} (h : FrontMatter.hasFrontMatter (Text.decode octets) = false) :
    Bytes.ofText (FrontMatter.splitOctets octets).body = textOctets octets := by
  have hnone : FrontMatter.locate (Text.decode octets) = none := by simpa [FrontMatter.hasFrontMatter] using h
  simp [FrontMatter.splitOctets, FrontMatter.split, hnone, Bytes.ofText, textOctets]

theorem ContentFile.Stems.written_eq {t : FileTree} {extensions : List String} {p : Path} {f : ContentFile}
    (h : f.Stems t extensions p) (hhtml : isHtml p extensions = false) :
    ∃ octets, t.read p = .ok octets ∧
      (FrontMatter.hasFrontMatter (Text.decode octets) = false → f.written = textOctets octets) := by
  obtain ⟨octets, hread, hcontents⟩ := h.contents
  refine ⟨octets, hread, fun hplain => ?_⟩
  rw [written, hcontents hhtml, ← ofText_body_splitOctets hplain]
  rfl

/-- The files behind one of those that are handed over stem from the files behind its own. -/
theorem forall₂_split {α β : Type} {R : α → β → Prop} {front back : List α} {p : α} {out : List β}
    (h : List.Forall₂ R (front ++ p :: back) out) :
    ∃ front' f back', out = front' ++ f :: back' ∧ R p f ∧ List.Forall₂ R back back' := by
  have hdrop := (List.forall₂_drop_append out front (p :: back) h.flip).flip
  obtain ⟨f, back', hf, hback, heq⟩ := List.forall₂_cons_left_iff.1 hdrop
  exact ⟨out.take front.length, f, back', by rw [← heq, List.take_append_drop], hf, hback⟩

/-- **What is not rendered is copied as text.**  If a command line ends with code 0, each of its files that is neither
HTML nor begins with front matter was read, and the text of its octets was written: to the output if there is no output
directory, else to its output path, where it stays unless a later file is written there.  That text is the octets
themselves exactly if these are UTF-8. -/
theorem Arguments.copies_text {a : Arguments} {t : FileTree} {workingDirectory : Path} {now : Calendar.Moment}
    (hcode : (a.run t workingDirectory now).code = 0) :
    ∃ s root, a.settings t = .ok s ∧ root = (s.config workingDirectory).root ∧ ∀ front p back,
      a.files = front ++ p :: back → isHtml p (s.config workingDirectory).htmlExtensions = false →
      ∃ octets, t.read p = .ok octets ∧ (FrontMatter.hasFrontMatter (Text.decode octets) = false →
        (textOctets octets = octets ↔ (Text.decode? octets).isSome = true) ∧
        (a.out = none → (a.run t workingDirectory now).output = textOctets octets) ∧
        ∀ out, a.out = some out →
          (∃ t₁ rest, t₁.read (outputPath out root p) = .ok (textOctets octets) ∧ rest.map (·.path) = back ∧
            writeFiles out root t₁ rest = ((a.run t workingDirectory now).tree, none)) ∧
          ((∀ q ∈ back, t.landing (outputPath out root q) ≠ t.landing (outputPath out root p)) →
            (a.run t workingDirectory now).tree.read (outputPath out root p) = .ok (textOctets octets))) := by
  obtain ⟨s, files, sum, hs, -, -, hstems, hnone, hsome⟩ := Arguments.run_completed hcode
  refine ⟨s, _, hs, rfl, fun front p back hsplit hhtml => ?_⟩
  rw [hsplit] at hstems
  obtain ⟨front', f, back', hfiles, hf, hback⟩ := forall₂_split hstems
  obtain ⟨octets, hread, hwritten⟩ := hf.written_eq hhtml
  refine ⟨octets, hread, fun hplain => ⟨Text.encode_decode_eq_iff octets, fun hout => ?_, fun out hout => ?_⟩⟩
  · obtain ⟨hone, houtput⟩ := hnone hout
    -- A run without an output directory has this file only.
    rw [hsplit, hstems.length_eq, hfiles] at hone
    obtain ⟨rfl, rfl⟩ : front' = [] ∧ back' = [] := by
      simp only [List.length_append, List.length_cons] at hone
      exact ⟨List.eq_nil_of_length_eq_zero (by omega), List.eq_nil_of_length_eq_zero (by omega)⟩
    rw [houtput, hfiles, List.nil_append, List.flatMap_singleton, hwritten hplain]
  · have hall := hsome out hout
    rw [hfiles] at hall
    have hpaths := paths_of_stems hback
    constructor
    · obtain ⟨t₁, hhome, hrest, harrive⟩ := of_writeFiles_append hall
      refine ⟨t₁, back', ?_, hpaths, hrest⟩
      rw [FileTree.read_eq_ok_iff]
      rw [FileTree.landing, hhome, ← FileTree.landing]
      rw [hf.path, hwritten hplain] at harrive
      exact harrive
    · intro hlater
      have hlast := read_of_writeFiles hall
      rw [lastAt_eq_self, hf.path, hwritten hplain] at hlast
      · exact hlast
      · intro g hg
        rw [hf.path]
        exact hlater _ (hpaths ▸ List.mem_map_of_mem hg)

/-- A file of one octet that is no text. -/
def oneOctet : Arguments × FileTree :=
  (⟨none, [], [], none, none, false, 0, [.ofText "x.bin"]⟩, ⟨[([Bytes.ofText "x.bin"], .file [255])], []⟩)

/-- What is written for that octet are the three octets of U+FFFD. -/
theorem copy_of_octet_replaced :
    let (a, t) := oneOctet
    let outcome := a.run t (.ofText "/") ⟨0, 0, 0⟩
    outcome.code = 0 ∧ t.read (.ofText "x.bin") = .ok [255] ∧
    isHtml (.ofText "x.bin") (Settings.default.config (.ofText "/")).htmlExtensions = false ∧
    FrontMatter.hasFrontMatter (Text.decode [255]) = false ∧ outcome.output = [0xEF, 0xBF, 0xBD] := by
  refine ⟨?_, rfl, ?_, ?_, ?_⟩
  all_goals decide +kernel

theorem copies_text_one_octet :
    let (a, t) := oneOctet
    (a.run t (.ofText "/") ⟨0, 0, 0⟩).code = 0 ∧
    ∃ s root, a.settings t = .ok s ∧ root = (s.config (.ofText "/")).root ∧ ∀ front p back,
      a.files = front ++ p :: back → isHtml p (s.config (.ofText "/")).htmlExtensions = false →
      ∃ octets, t.read p = .ok octets ∧ (FrontMatter.hasFrontMatter (Text.decode octets) = false →
        (textOctets octets = octets ↔ (Text.decode? octets).isSome = true) ∧
        (a.run t (.ofText "/") ⟨0, 0, 0⟩).output = textOctets octets) := by
  have hcode : (oneOctet.1.run oneOctet.2 (.ofText "/") ⟨0, 0, 0⟩).code = 0 := by decide +kernel
  obtain ⟨s, root, hs, hroot, hfiles⟩ := Arguments.copies_text hcode
  refine ⟨hcode, s, root, hs, hroot, fun front p back hsplit hhtml => ?_⟩
  obtain ⟨octets, hread, hcopy⟩ := hfiles front p back hsplit hhtml
  exact ⟨octets, hread, fun hplain => ⟨(hcopy hplain).1, (hcopy hplain).2.1 rfl⟩⟩

end Folio
