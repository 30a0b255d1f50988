import Folio.Program
import Folio.Proofs.CommandLine.Choices
import Folio.Proofs.Registry.History
/-!
# Settings under a command line

A run is configured by a settings file and by options.  Directories of the file are meant from where it is, those of options
from the working directory; options add to the file's directories and variables, and what else they give stands
(`Arguments.Over`).  Options on different things can be given in any order (`settings_precedence`).
-/
namespace Folio

theorem Settings.config_eq_update (s : Settings) (workingDirectory : Path) :
    s.config workingDirectory = { Config.default workingDirectory with
      paths := s.paths
      globals := s.globals
      failOnError := s.failOnError
      htmlExtensions := normalExtensions s.htmlExtensions
      autoescape := s.autoescape
      root := s.root.getD workingDirectory
      markdown := s.markdown.converter } := by
  unfold Settings.config
  cases s.root <;> rfl

namespace Arguments

/-- The configuration of a run. -/
def configuration (a : Arguments) (t : FileTree) (workingDirectory : Path) : Except String Config :=
  (a.settings t).map (·.config workingDirectory)

/-- What arguments make of the settings of a file in a directory. -/
structure Over (a : Arguments) (directory : Path) (s : Settings) (workingDirectory : Path) (c : Config) : Prop where
  paths : c.paths = s.paths.map (fun p => if p.isAbsolute then p else directory.join p) ++ a.templates
  globals : ∀ name, Table.get? c.globals name = (Table.lastOf? a.globals name).or (Table.get? s.globals name)
  root : c.root = (a.root.or (s.root.map directory.join)).getD workingDirectory
  failOnError : c.failOnError = (s.failOnError || a.failOnError)
  htmlExtensions : c.htmlExtensions = normalExtensions s.htmlExtensions
  autoescape : c.autoescape = s.autoescape
  markdown : c.markdown = s.markdown.converter

theorem over_apply (a : Arguments) (directory : Path) (s : Settings) (workingDirectory : Path) :
    a.Over directory s workingDirectory
      ((a.apply { s with paths := s.paths.map directory.join, root := s.root.map directory.join }).config
        workingDirectory) := by
  have hjoin (p : Path) : directory.join p = if p.isAbsolute then p else directory.join p := by
    unfold Path.join
    split <;> rfl
  rw [Settings.config_eq_update]
  constructor
  case paths => exact congrArg (· ++ a.templates) (List.map_congr_left fun p _ => hjoin p)
  case globals => exact fun name => Table.get?_merge_entries name a.globals s.globals
  all_goals rfl

theorem configuration_of_file {a : Arguments} {t : FileTree} {p : Path} {text : String} {s : Settings}
    (hp : a.config = some p) (htext : t.readText p = .ok text) (hs : Settings.ofYaml text = .ok s)
    (workingDirectory : Path) :
    ∃ c, a.configuration t workingDirectory = .ok c ∧ a.Over (p.parent?.getD ⟨[]⟩) s workingDirectory c := by
  refine ⟨_, ?_, a.over_apply (p.parent?.getD ⟨[]⟩) s workingDirectory⟩
  simp only [configuration, settings, hp, Settings.ofFile, htext, hs]
  rfl

end Arguments

open CommandLine (Choice Kind Piece choices? held) in
/-- **Settings file and command line merge with one precedence.**  Arguments hold what the command line says, in its order,
and they are over the settings of the file that they name, whose paths are meant from its directory.  Pieces of the command
line can change places and lead to the same configuration, as long as directories of templates keep their order, and
variables theirs. -/
theorem settings_precedence {args : List Bytes} {a : Arguments} (h : CommandLine.read args = .ok (.render a)) :
    (∃ cs, choices? args = some cs ∧ ∀ k, held a k = cs.filter (·.kind = k)) ∧
    (∀ (t : FileTree) (p : Path) (text : String) (s : Settings) (workingDirectory : Path), a.config = some p →
      t.readText p = .ok text → Settings.ofYaml text = .ok s →
      ∃ c, a.configuration t workingDirectory = .ok c ∧ a.Over (p.parent?.getD ⟨[]⟩) s workingDirectory c) ∧
    ∀ (ps qs : List Piece) (rest : List Bytes), args = ps.flatMap Piece.args ++ rest → qs.Perm ps →
      (∀ k ∈ [Kind.template, .assignment],
        (qs.flatMap Piece.choices).filter (·.kind = k) = (ps.flatMap Piece.choices).filter (·.kind = k)) →
      ∃ b, CommandLine.read (qs.flatMap Piece.args ++ rest) = .ok (.render b) ∧
        ∀ (t : FileTree) (workingDirectory : Path), b.configuration t workingDirectory = a.configuration t workingDirectory := by
  obtain ⟨cs, hcs, hheld, -⟩ := CommandLine.read_eq_render_iff.1 h
  refine ⟨⟨cs, hcs, hheld⟩, fun t p text s wd hp htext hs => Arguments.configuration_of_file hp htext hs wd,
    fun ps qs rest hargs hperm horder => ?_⟩
  subst hargs
  obtain ⟨more, hmore, rfl⟩ := Option.map_eq_some_iff.1 ((CommandLine.choices?_pieces ps rest).symm.trans hcs)
  have hds : choices? (qs.flatMap Piece.args ++ rest) = some (qs.flatMap Piece.choices ++ more) := by
    rw [CommandLine.choices?_pieces, hmore, Option.map_some]
  have hchoices : (qs.flatMap Piece.choices ++ more).Perm (ps.flatMap Piece.choices ++ more) :=
    (hperm.flatMap_right _).append_right more
  obtain ⟨files, hread, -⟩ := CommandLine.read_of_perm hcs hds hchoices (fun k hk => by
    rw [List.filter_append, List.filter_append, horder k hk]) h
  exact ⟨_, hread, fun _ _ => rfl⟩

/-- A file in a directory with a relative and an absolute path, and the same options in another order. -/
theorem settings_precedence_relative :
    let t : FileTree := ⟨[([Bytes.ofText "conf"], .directory),
      ([Bytes.ofText "conf", Bytes.ofText "s.yaml"], .file (Bytes.ofText "paths: [t, /abs]\nroot: pages\n"))], []⟩
    ∃ a c, CommandLine.read [Bytes.ofText "-cconf/s.yaml", Bytes.ofText "-Ix", Bytes.ofText "--fail",
        Bytes.ofText "--include", Bytes.ofText "y", Bytes.ofText "p.md"] = .ok (.render a) ∧
      a.configuration t (.ofText "/work") = .ok c ∧
      c.paths = [.ofText "conf/t", .ofText "/abs", .ofText "x", .ofText "y"] ∧ c.root = .ofText "conf/pages" ∧
      c.failOnError = true ∧
      ∃ b, CommandLine.read [Bytes.ofText "--fail", Bytes.ofText "-Ix", Bytes.ofText "-cconf/s.yaml",
          Bytes.ofText "--include", Bytes.ofText "y", Bytes.ofText "p.md"] = .ok (.render b) ∧
        b.configuration t (.ofText "/work") = .ok c := by
  intro t
  have hread : CommandLine.read [Bytes.ofText "-cconf/s.yaml", Bytes.ofText "-Ix", Bytes.ofText "--fail",
      Bytes.ofText "--include", Bytes.ofText "y", Bytes.ofText "p.md"] =
      .ok (.render ⟨some (.ofText "conf/s.yaml"), [.ofText "x", .ofText "y"], [], none, none, true, 0,
        [.ofText "p.md"]⟩) := by
    refine CommandLine.read_eq_render_iff.2 ⟨[.config (.ofText "conf/s.yaml"), .template (.ofText "x"), .fail,
      .template (.ofText "y"), .file (.ofText "p.md")], rfl, fun k => ?_, List.cons_ne_nil _ _⟩
    cases k <;> rfl
  obtain ⟨s, hs, hpaths, hroot⟩ : ∃ s, Settings.ofYaml "paths: [t, /abs]\nroot: pages\n" = .ok s ∧
      s.paths = [.ofText "t", .ofText "/abs"] ∧ s.root = some (.ofText "pages") := by
    have hparts : (Settings.ofYaml "paths: [t, /abs]\nroot: pages\n").toOption.map (fun s => (s.paths, s.root)) =
        some ([.ofText "t", .ofText "/abs"], some (.ofText "pages")) := by decide +kernel
    cases hs : Settings.ofYaml "paths: [t, /abs]\nroot: pages\n" with
    | error complaint => rw [hs] at hparts; cases hparts
    | ok s =>
      rw [hs] at hparts
      obtain ⟨hpaths, hroot⟩ := Prod.mk.inj (Option.some.inj hparts)
      exact ⟨s, rfl, hpaths, hroot⟩
  obtain ⟨-, hover, horder⟩ := settings_precedence hread
  have htext : t.readText (.ofText "conf/s.yaml") = .ok "paths: [t, /abs]\nroot: pages\n" := by decide +kernel
  obtain ⟨c, hc, hmade⟩ := hover t (.ofText "conf/s.yaml") _ s (.ofText "/work") rfl htext hs
  let config : CommandLine.Piece := ⟨[Bytes.ofText "-cconf/s.yaml"], [.config (.ofText "conf/s.yaml")], rfl, by decide⟩
  let template : CommandLine.Piece := ⟨[Bytes.ofText "-Ix"], [.template (.ofText "x")], rfl, by decide⟩
  let fail : CommandLine.Piece := ⟨[Bytes.ofText "--fail"], [.fail], rfl, by decide⟩
  obtain ⟨b, hb, hsame⟩ := horder [config, template, fail] [fail, template, config]
    [Bytes.ofText "--include", Bytes.ofText "y", Bytes.ofText "p.md"] rfl
    (List.reverse_perm [config, template, fail]) (by
      intro k hk
      rcases List.mem_cons.1 hk with rfl | hk
      · rfl
      · rw [List.mem_singleton.1 hk]; rfl)
  refine ⟨_, c, hread, hc, ?_, ?_, ?_, b, hb, (hsame t _).trans hc⟩
  · rw [hmade.paths, hpaths]
    decide +kernel
  · rw [hmade.root, hroot]
    decide +kernel
  · rw [hmade.failOnError]
    exact Bool.or_true _

end Folio
