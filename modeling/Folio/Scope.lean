import Folio.ContentFile
import Folio.Session
/-!
# Scopes

What filters of a run need to know (`Scope`), and the stack of the paths that are being rendered (`RenderStack`).  A path
is on the stack in its normal form, so no detour of its spelling hides that it is there, and a path that is there cannot
be entered again.  Beside the stack stand the templates that the engine has loaded, which a template can ask for.
-/
namespace Folio

/-- The paths that are being rendered, the outermost first. -/
structure RenderStack where
  paths : List Path
  /-- Every stack there has been since the start, the latest first. -/
  history : List (List Path)
  /-- The templates that were found in the directories while the page is rendered, the latest first. -/
  loaded : List String
deriving DecidableEq

namespace RenderStack

def empty : RenderStack := ⟨[], [], []⟩

def become (s : RenderStack) (paths : List Path) : RenderStack := { s with paths, history := paths :: s.history }

/-- Puts a path in normal form on top, unless it is there already. -/
def enter (s : RenderStack) (key : Path) : Except Failure RenderStack :=
  if s.paths.contains key then .error (.cyclic key s.paths) else .ok (s.become (s.paths ++ [key]))

/-- Takes the top away. -/
def leave (s : RenderStack) : RenderStack := s.become s.paths.dropLast

/-- The file that the run is rendering, on whose behalf everything above is rendered. -/
def current? (s : RenderStack) : Option Path := s.paths.head?

end RenderStack

/-- A converter of texts to HTML. -/
abbrev Converter := String → Except Failure String

/-- What writes a date in a format. -/
abbrev DateFormatter := Calendar.Moment → String → Except Failure String

structure Scope where
  tree : FileTree
  root : Path
  htmlExtensions : List String
  markdown : Converter
  dates : DateFormatter
  /-- The date that a missing date stands for: one reading of the clock, taken when the environment is made.  Where the
  clock is read again at each call the later readings are later dates. -/
  now : Calendar.Moment

namespace Scope

/-- The file that a path leads to from the root, in normal form. -/
def resolve (s : Scope) (p : Path) : Path := (s.root.join p).normal

/-- The front matter and the body of a file. -/
def readMatter (s : Scope) (p : Path) : Except Failure FrontMatter.Split :=
  match s.tree.read (s.resolve p) with
  | .ok octets => .ok (FrontMatter.splitOctets octets)
  | .error denial => .error (.denied p denial)

def isHtml (s : Scope) (p : Path) : Bool := Folio.isHtml p s.htmlExtensions

/-- Marks a path as being rendered. -/
def enter (s : Scope) (p : Path) (session : Session RenderStack) : Except Failure (Session RenderStack) :=
  match session.engine.enter (s.resolve p) with
  | .ok stack => .ok { session with engine := stack }
  | .error f => .error f

section
variable {scope : Scope} {p : Path} {s entered : Session RenderStack}

theorem enter_of_mem (h : scope.resolve p ∈ s.engine.paths) :
    scope.enter p s = .error (.cyclic (scope.resolve p) s.engine.paths) := by
  unfold enter RenderStack.enter
  rw [if_pos (List.contains_iff_mem.2 h)]

theorem enter_of_not_mem (h : scope.resolve p ∉ s.engine.paths) :
    scope.enter p s = .ok { s with engine := s.engine.become (s.engine.paths ++ [scope.resolve p]) } := by
  unfold enter RenderStack.enter
  rw [if_neg (mt List.contains_iff_mem.1 h)]

/-- A path is entered if it is not on the stack yet, and only the stack changes. -/
theorem enter_eq_ok_iff : scope.enter p s = .ok entered ↔
    scope.resolve p ∉ s.engine.paths ∧
      entered = { s with engine := s.engine.become (s.engine.paths ++ [scope.resolve p]) } := by
  by_cases h : scope.resolve p ∈ s.engine.paths
  · rw [enter_of_mem h]
    exact ⟨(fun he => nomatch he), fun he => absurd h he.1⟩
  · rw [enter_of_not_mem h]
    exact ⟨fun he => ⟨h, (Except.ok.inj he).symm⟩, fun he => congrArg Except.ok he.2.symm⟩

end

end Scope

namespace Session

/-- Takes the last mark away. -/
def leave (s : Session RenderStack) : Session RenderStack := { s with engine := s.engine.leave }

/-- The session with just these templates loaded. -/
def loading (s : Session RenderStack) (names : List String) : Session RenderStack :=
  { s with engine := { s.engine with loaded := names } }

/-- One more template is loaded, unless it is already. -/
def load (s : Session RenderStack) (name : String) : Session RenderStack := s.loading (s.engine.loaded.insert name)

@[simp]
theorem loading_loading (s : Session RenderStack) (names names' : List String) :
    (s.loading names).loading names' = s.loading names' := rfl

end Session

/-- Whether a path can be entered does not depend on what is loaded. -/
theorem Scope.enter_loading (scope : Scope) (p : Path) (s : Session RenderStack) (names : List String) :
    scope.enter p (s.loading names) = (scope.enter p s).map (·.loading names) := by
  by_cases hmarked : scope.resolve p ∈ s.engine.paths
  · have hmarked' : scope.resolve p ∈ (s.loading names).engine.paths := hmarked
    rw [enter_of_mem hmarked, enter_of_mem hmarked']
    rfl
  · have hmarked' : scope.resolve p ∉ (s.loading names).engine.paths := hmarked
    rw [enter_of_not_mem hmarked, enter_of_not_mem hmarked']
    rfl

/-- Entering a path loads nothing. -/
theorem Scope.loading_of_enter {scope : Scope} {p : Path} {s entered : Session RenderStack}
    (h : scope.enter p s = .ok entered) : entered.loading s.engine.loaded = entered := by
  obtain ⟨-, rfl⟩ := enter_eq_ok_iff.1 h
  rfl

end Folio
