import Folio.Proofs.Paths.Extensions
import Folio.Proofs.Registry.Building
/-!
# Calls on different parts of a configuration

Each call changes one part of a configuration (`Call.part`).  It leaves the other parts alone (`of_apply_of_ne`), and what it
makes of its own part depends on nothing else (`of_apply_congr`).  So a part is what the calls on it make of it, whatever
calls stand between them (`of_after_filter`), and the order of calls on different parts does not matter
(`after_eq_of_filter_eq`).
-/
namespace Folio.Config

inductive Part where
  | paths | filters | tags | globals | failOnError | htmlExtensions | autoescape | root | markdown | dates
deriving DecidableEq, Repr

namespace Part

abbrev Value : Part → Type
  | paths => List Path
  | filters => Filters
  | tags => Tags
  | globals => Fields
  | failOnError | autoescape => Bool
  | htmlExtensions => List String
  | root => Path
  | markdown => Converter
  | dates => DateFormatter

def of (c : Config) : (p : Part) → p.Value
  | paths => c.paths
  | filters => c.filters
  | tags => c.tags
  | globals => c.globals
  | failOnError => c.failOnError
  | htmlExtensions => c.htmlExtensions
  | autoescape => c.autoescape
  | root => c.root
  | markdown => c.markdown
  | dates => c.dates

end Part

theorem ext_parts {c d : Config} (h : ∀ p : Part, p.of c = p.of d) : c = d := by
  obtain ⟨_, _, _, _, _, _, _, _, _, _⟩ := c
  obtain ⟨_, _, _, _, _, _, _, _, _, _⟩ := d
  simp only [Config.mk.injEq]
  exact ⟨h .paths, h .filters, h .tags, h .globals, h .failOnError, h .htmlExtensions, h .autoescape, h .root, h .markdown,
    h .dates⟩

namespace Call

/-- The part that a call changes. -/
def part : Call → Part
  | .path _ | .paths _ => .paths
  | .filter _ _ | .filters _ _ => .filters
  | .tag _ _ | .tags _ _ => .tags
  | .variables _ | .variable _ _ => .globals
  | .failOnError _ | .args _ => .failOnError
  | .htmlExtensions _ => .htmlExtensions
  | .autoescape _ => .autoescape
  | .root _ => .root
  | .markdown _ => .markdown
  | .dates _ => .dates

theorem of_apply_of_ne {call : Call} {p : Part} (h : call.part ≠ p) (c : Config) : p.of (call.apply c) = p.of c := by
  cases call <;> cases p <;> first | rfl | exact absurd rfl h

theorem of_apply_congr {call : Call} {c d : Config} (h : call.part.of c = call.part.of d) :
    call.part.of (call.apply c) = call.part.of (call.apply d) := by
  cases call with
  | path p => exact congrArg (· ++ [p]) h
  | paths ps => exact congrArg (· ++ ps) h
  | filter name f => exact congrArg (Table.insert name (.custom f)) h
  | filters fs _ => exact congrArg (Table.merge fs) h
  | tag name t => exact congrArg (Table.insert name t) h
  | tags ts _ => exact congrArg (Table.merge ts) h
  | «variable» name d => exact congrArg (Table.insert name d) h
  | args texts => exact congrArg (· || hasFailFlag texts) h
  | _ => rfl

end Call

/-! ## Sequences of calls -/

theorem after_cons (c : Config) (call : Call) (calls : List Call) :
    c.after (call :: calls) = (call.apply c).after calls := rfl

theorem after_append (c : Config) (calls more : List Call) : c.after (calls ++ more) = (c.after calls).after more :=
  List.foldl_append

/-- **A part is what the calls on it make of it.** -/
theorem of_after_filter (p : Part) : ∀ (calls : List Call) {c d : Config}, p.of c = p.of d →
    p.of (c.after calls) = p.of (d.after (calls.filter (·.part = p)))
  | [], _, _, h => h
  | call :: calls, c, d, h => by
    rw [after_cons]
    by_cases hp : call.part = p
    · subst hp
      rw [List.filter_cons_of_pos (by simp), after_cons]
      exact of_after_filter _ calls (Call.of_apply_congr h)
    · rw [List.filter_cons_of_neg (by simpa using hp)]
      exact of_after_filter p calls ((Call.of_apply_of_ne hp c).trans h)

/-- **The order of calls on different parts does not matter.** -/
theorem after_eq_of_filter_eq {xs ys : List Call} (h : ∀ p, xs.filter (·.part = p) = ys.filter (·.part = p))
    (c : Config) : c.after xs = c.after ys := by
  refine ext_parts fun p => ?_
  rw [of_after_filter p xs rfl, h p, ← of_after_filter p ys rfl]

/-- Calls of which no two are on one part can be made in any order. -/
theorem filter_eq_of_perm {xs ys : List Call} (h : xs.Perm ys) (hnodup : (ys.map Call.part).Nodup) (p : Part) :
    xs.filter (·.part = p) = ys.filter (·.part = p) := by
  have hpart {zs : List Call} {call : Call} (hcall : call ∈ zs.filter (·.part = p)) : call.part = p := by
    simpa using (List.mem_filter.1 hcall).2
  have hapart {zs : List Call} (hzs : (zs.map Call.part).Nodup) :
      (zs.filter (·.part = p)).Pairwise fun c d => c.part ≠ d.part := (List.pairwise_map.1 hzs).filter _
  have hxs : (xs.map Call.part).Nodup := (h.map Call.part).nodup_iff.2 hnodup
  exact List.Perm.eq_of_pairwise (fun _ _ hc hd hne _ => absurd ((hpart hc).trans (hpart hd).symm) hne) (hapart hxs)
    (hapart hnodup) (h.filter _)

/-! ## Parts along a sequence -/

/-- The directories that a call adds. -/
def Call.addedPaths : Call → List Path
  | .path p => [p]
  | .paths ps => ps
  | _ => []

theorem paths_after : ∀ (calls : List Call) (c : Config), (c.after calls).paths = c.paths ++ calls.flatMap Call.addedPaths
  | [], c => (List.append_nil c.paths).symm
  | call :: calls, c => by
    rw [after_cons, paths_after calls, List.flatMap_cons, ← List.append_assoc]
    congr 1
    cases call <;> first | rfl | exact (List.append_nil c.paths).symm

theorem htmlExtensions_apply {c : Config} (h : normalExtensions c.htmlExtensions = c.htmlExtensions) (call : Call) :
    normalExtensions (call.apply c).htmlExtensions = (call.apply c).htmlExtensions := by
  cases call with
  | htmlExtensions extensions => exact normalExtensions_normalExtensions extensions
  | _ => exact h

theorem htmlExtensions_after : ∀ (calls : List Call) {c : Config},
    normalExtensions c.htmlExtensions = c.htmlExtensions →
      normalExtensions (c.after calls).htmlExtensions = (c.after calls).htmlExtensions
  | [], _, h => h
  | call :: calls, _, h => htmlExtensions_after calls (htmlExtensions_apply h call)

end Config

/-- What settings say, as calls. -/
def Settings.calls (s : Settings) : List Config.Call :=
  [.paths s.paths, .variables s.globals, .failOnError s.failOnError, .htmlExtensions s.htmlExtensions,
    .autoescape s.autoescape, .markdown s.markdown.converter] ++ (s.root.map .root).toList

theorem Settings.nodup_calls (s : Settings) : (s.calls.map Config.Call.part).Nodup := by
  let parts : List Config.Part := [.paths, .globals, .failOnError, .htmlExtensions, .autoescape, .markdown]
  unfold Settings.calls
  cases s.root with
  | none => exact (by decide : parts.Nodup)
  | some root => exact (by decide : (parts ++ [Config.Part.root]).Nodup)

theorem Settings.config_eq (s : Settings) (workingDirectory : Path) :
    s.config workingDirectory = (Config.default workingDirectory).after s.calls := by
  unfold Settings.config Settings.calls
  cases s.root <;> rfl

/-- **Calls on different parts of a configuration commute.**  Two sequences with the same calls on each part, in the same
order, lead to the same configuration.  On the way the extensions are in normal form, directories are only added behind
those that are there, and arguments turn failing on but never off.  Settings lead to what they say, said in any order. -/
theorem calls_commute :
    (∀ (c : Config) (xs ys : List Config.Call), (∀ p, xs.filter (·.part = p) = ys.filter (·.part = p)) →
      c.after xs = c.after ys) ∧
    (∀ (workingDirectory : Path) (calls : List Config.Call),
      let c := (Config.default workingDirectory).after calls
      normalExtensions c.htmlExtensions = c.htmlExtensions) ∧
    (∀ (c : Config) (calls more : List Config.Call),
      (c.after (calls ++ more)).paths = (c.after calls).paths ++ more.flatMap Config.Call.addedPaths) ∧
    (∀ (c : Config) (calls : List Config.Call) (texts : List String),
      (c.after (calls ++ [.args texts])).failOnError = ((c.after calls).failOnError || texts.contains "--fail")) ∧
    ∀ (s : Settings) (workingDirectory : Path) (calls : List Config.Call), calls.Perm s.calls →
      s.config workingDirectory = (Config.default workingDirectory).after calls := by
  refine ⟨fun c xs ys h => Config.after_eq_of_filter_eq h c, fun wd calls => ?_, fun c calls more => ?_,
    fun c calls texts => ?_, fun s wd calls hperm => ?_⟩
  · exact Config.htmlExtensions_after calls (normalExtensions_normalExtensions _)
  · rw [Config.after_append, Config.paths_after more]
  · rw [Config.after_append]
    rfl
  · rw [s.config_eq]
    exact Config.after_eq_of_filter_eq (fun p => (Config.filter_eq_of_perm hperm s.nodup_calls p).symm) _

/-- The flag is last on its part in both orders, and the directories keep theirs. -/
theorem calls_commute_interleaved :
    (Config.default (.ofText "/work")).after
      [.path (.ofText "a"), .failOnError false, .variable "x" .null, .paths [.ofText "b"], .args ["--fail"]] =
    (Config.default (.ofText "/work")).after
      [.failOnError false, .path (.ofText "a"), .args ["--fail"], .paths [.ofText "b"], .variable "x" .null] :=
  calls_commute.1 _ _ _ fun p => by cases p <;> rfl

end Folio
