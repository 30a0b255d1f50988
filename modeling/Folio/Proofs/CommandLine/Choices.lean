import Folio.CommandLine
import Mathlib.Data.List.Perm.Basic
/-!
# What a command line says

A command line is read into one record, argument by argument.  What each argument says (`said?`) does not depend on what was
read before it, so a command line says a sequence of choices (`choices?`), and reading it is making these choices one after
the other (`read_eq_render_iff`).  Only three paths and the flag that turns failing on can be given once at most; apart from
that choices are never refused (`foldlM_choose_iff`).
-/
namespace Folio.CommandLine

/-- What an option or a file says. -/
inductive Choice where
  | config (p : Path)
  | template (p : Path)
  | assignment (name : String) (value : Datum)
  | root (p : Path)
  | out (p : Path)
  | fail
  | verbose
  | file (p : Path)

/-- Makes a choice; what was chosen before and can be chosen once only is not chosen again. -/
def choose (a : Arguments) : Choice → Option Arguments
  | .config p => if a.config.isSome then none else some { a with config := some p }
  | .root p => if a.root.isSome then none else some { a with root := some p }
  | .out p => if a.out.isSome then none else some { a with out := some p }
  | .fail => if a.failOnError then none else some { a with failOnError := true }
  | .template p => some { a with templates := a.templates ++ [p] }
  | .assignment name value => some { a with globals := a.globals ++ [(name, value)] }
  | .verbose => some { a with verbosity := a.verbosity + 1 }
  | .file p => some { a with files := a.files ++ [p] }

/-! ## Choices of an argument -/

def path? (octets : Bytes) : Option Path := (pathOf octets).toOption

/-- What an option with a value says. -/
def valueChoice? (octets : Bytes) : Flag → Option Choice
  | .config => (path? octets).map .config
  | .root => (path? octets).map .root
  | .out => (path? octets).map .out
  | .template => (path? octets).map .template
  | .assignment => (assignment? octets).toOption.map fun e => .assignment e.1 e.2
  | .fail | .verbose | .help | .version => none

/-- The choices of an argument, and the option at its end that has its value in the next one. -/
structure Said where
  choices : List Choice
  awaits : Option Flag

/-- What an option without a value says; those that ask for no run say nothing. -/
def flagSaid? : Flag → Option Said
  | .fail => some ⟨[.fail], none⟩
  | .verbose => some ⟨[.verbose], none⟩
  | .help | .version => none
  | flag => some ⟨[], some flag⟩

def longSaid? (octets : Bytes) : Option Said :=
  let name := octets.takeWhile (· != equalsSign)
  (Flag.all.find? fun f => Bytes.ofText f.long == name).bind fun flag =>
    if name.length < octets.length then (valueChoice? (octets.drop (name.length + 1)) flag).map fun c => ⟨[c], none⟩
    else flagSaid? flag

def shortSaid? : Bytes → Option Said
  | [] => some ⟨[], none⟩
  | b :: bs =>
    (Flag.all.find? fun f => f.short == some (Char.ofNat b.toNat)).bind fun flag =>
      if flag.takesValue then
        match bs with
        | [] => some ⟨[], some flag⟩
        | c :: cs => (valueChoice? (if c = equalsSign then cs else c :: cs) flag).map fun c => ⟨[c], none⟩
      else (flagSaid? flag).bind fun s => (shortSaid? bs).map fun r => ⟨s.choices ++ r.choices, r.awaits⟩

def fileSaid? (octets : Bytes) : Option Said := (path? octets).map fun p => ⟨[.file p], none⟩

def said? (octets : Bytes) : Option Said :=
  match octets with
  | b :: c :: rest =>
    if b ≠ hyphen then fileSaid? octets
    else if c = hyphen then longSaid? rest
    else shortSaid? (c :: rest)
  | _ => fileSaid? octets

/-- The choices of a command line, none if it says something that cannot be read or asks for no run. -/
def choices? : List Bytes → Option (List Choice)
  | [] => some []
  | arg :: args =>
    if arg = separator then args.mapM fun octets => (path? octets).map .file
    else match said? arg with
      | none => none
      | some ⟨cs, none⟩ => (choices? args).map (cs ++ ·)
      | some ⟨cs, some flag⟩ =>
        match args with
        | [] => none
        | value :: args =>
          if isOption value then none
          else (valueChoice? value flag).bind fun c => (choices? args).map (cs ++ c :: ·)

/-! ## Reading makes the choices -/

theorem toOption_once (flag : Flag) (current : Option Path) (octets : Bytes) :
    (once flag current octets).toOption =
      (path? octets).bind fun p => if current.isSome then none else some (some p) := by
  unfold once path?
  cases current <;> cases pathOf octets <;> rfl

theorem toOption_map {α β : Type} (r : Except Misuse α) (f : α → β) : (r.map f).toOption = r.toOption.map f := by
  cases r <;> rfl

theorem toOption_setValue (a : Arguments) (flag : Flag) (octets : Bytes) :
    (setValue a flag octets).toOption = (valueChoice? octets flag).bind (choose a) := by
  cases flag with
  | config | root | out =>
    simp only [setValue, valueChoice?, toOption_map, toOption_once]
    cases path? octets with
    | none => rfl
    | some p =>
      simp only [Option.bind_some, Option.map_some, choose]
      split <;> rfl
  | template =>
    simp only [setValue, valueChoice?, toOption_map, path?]
    cases (pathOf octets).toOption <;> rfl
  | assignment =>
    simp only [setValue, valueChoice?, toOption_map]
    cases (assignment? octets).toOption <;> rfl
  | fail | verbose | help | version => rfl

theorem toOption_addFile (a : Arguments) (octets : Bytes) :
    (addFile a octets).toOption = (path? octets).bind fun p => choose a (.file p) := by
  rw [addFile, toOption_map, ← path?]
  cases path? octets <;> rfl

/-- What reading an argument comes to, if the command line can still ask for a run. -/
def made : Except Misuse Progress → Option (Arguments × Option Flag)
  | .ok (.goesOn a) => some (a, none)
  | .ok (.awaits a flag) => some (a, some flag)
  | _ => none

def Said.make (s : Said) (a : Arguments) : Option (Arguments × Option Flag) :=
  (s.choices.foldlM choose a).map (·, s.awaits)

theorem Said.make_singleton (c : Choice) (awaits : Option Flag) (a : Arguments) :
    Said.make ⟨[c], awaits⟩ a = (choose a c).map (·, awaits) := by
  unfold Said.make
  rw [List.foldlM_cons]
  cases choose a c <;> rfl

theorem Said.make_append (cs : List Choice) (s : Said) (a : Arguments) :
    Said.make ⟨cs ++ s.choices, s.awaits⟩ a = (cs.foldlM choose a).bind s.make := by
  unfold Said.make
  rw [List.foldlM_append]
  cases cs.foldlM choose a <;> rfl

theorem made_goesOn (r : Except Misuse Arguments) : made (r.map .goesOn) = r.toOption.map (·, none) := by
  cases r <;> rfl

theorem made_setValue (a : Arguments) (flag : Flag) (octets : Bytes) :
    made ((setValue a flag octets).map .goesOn) =
      ((valueChoice? octets flag).map fun c => (⟨[c], none⟩ : Said)).bind (·.make a) := by
  rw [made_goesOn, toOption_setValue]
  cases valueChoice? octets flag with
  | none => rfl
  | some c => exact (Said.make_singleton c none a).symm

theorem made_addFile (a : Arguments) (octets : Bytes) :
    made ((addFile a octets).map .goesOn) = (fileSaid? octets).bind (·.make a) := by
  rw [made_goesOn, toOption_addFile, fileSaid?]
  cases path? octets with
  | none => rfl
  | some p => exact (Said.make_singleton (.file p) none a).symm

theorem made_setFlag (a : Arguments) (flag : Flag) : made (setFlag a flag) = (flagSaid? flag).bind (·.make a) := by
  cases flag with
  | fail =>
    simp only [setFlag, flagSaid?, Option.bind_some, Said.make_singleton, choose]
    split <;> rfl
  | _ => rfl

theorem made_readLong (a : Arguments) (octets : Bytes) :
    made (readLong a octets) = (longSaid? octets).bind (·.make a) := by
  unfold readLong longSaid?
  dsimp only
  cases Flag.all.find? fun f => Bytes.ofText f.long == octets.takeWhile (· != equalsSign) with
  | none => rfl
  | some flag =>
    dsimp only [Option.bind_some]
    split
    · exact made_setValue a flag _
    · exact made_setFlag a flag

theorem made_readShort : ∀ (octets : Bytes) (a : Arguments),
    made (readShort a octets) = (shortSaid? octets).bind (·.make a)
  | [], _ => rfl
  | b :: bs, a => by
    unfold readShort shortSaid?
    cases Flag.all.find? fun f => f.short == some (Char.ofNat b.toNat) with
    | none => rfl
    | some flag =>
      dsimp only [Option.bind_some]
      split
      · cases bs with
        | nil => rfl
        | cons c cs => exact made_setValue a flag _
      · rename_i htakes
        cases flag with
        | config | template | assignment | root | out => exact absurd rfl htakes
        | help | version => rfl
        | verbose =>
          refine (made_readShort bs _).trans ?_
          cases shortSaid? bs with
          | none => rfl
          | some s => exact (Said.make_append [.verbose] s a).symm
        | fail =>
          have hchoose : [Choice.fail].foldlM choose a = choose a .fail := by
            rw [List.foldlM_cons]
            cases choose a .fail <;> rfl
          cases hs : shortSaid? bs with
          | none =>
            cases hfail : a.failOnError with
            | true => simp [setFlag, hfail, flagSaid?, made]
            | false => simp [setFlag, hfail, flagSaid?, made_readShort bs, hs]
          | some s =>
            simp only [flagSaid?, Option.bind_some, Option.map_some, Said.make_append, hchoose]
            cases hfail : a.failOnError with
            | true => simp [setFlag, hfail, choose, made]
            | false => simp [setFlag, hfail, choose, made_readShort bs, hs]

theorem made_readArgument (a : Arguments) : ∀ octets : Bytes,
    made (readArgument a octets) = (said? octets).bind (·.make a)
  | [] => made_addFile a []
  | [b] => made_addFile a [b]
  | b :: c :: rest => by
    unfold readArgument said?
    dsimp only
    split
    · exact made_addFile a _
    · split
      · exact made_readLong a rest
      · exact made_readShort (c :: rest) a

/-- The run that a command line asks for. -/
def asked : Except Misuse Command → Option Arguments
  | .ok (.render a) => some a
  | _ => none

/-- A run needs files. -/
def withFiles (a : Arguments) : Option Arguments := if a.files.isEmpty then none else some a

/-- What choices make of arguments, if they ask for a run. -/
def chosen (a : Arguments) (cs : List Choice) : Option Arguments := (cs.foldlM choose a).bind withFiles

theorem chosen_append (a : Arguments) (cs ds : List Choice) :
    chosen a (cs ++ ds) = (cs.foldlM choose a).bind (chosen · ds) := by
  unfold chosen
  rw [List.foldlM_append]
  cases cs.foldlM choose a <;> rfl

theorem chosen_cons (a : Arguments) (c : Choice) (cs : List Choice) :
    chosen a (c :: cs) = (choose a c).bind (chosen · cs) := by
  unfold chosen
  rw [List.foldlM_cons]
  cases choose a c <;> rfl

theorem asked_files (a : Arguments) (args : List Bytes) :
    asked (args.foldlM addFile a >>= fun a => if a.files.isEmpty then .error .noFiles else .ok (.render a)) =
      (args.mapM fun octets => (path? octets).map Choice.file).bind (chosen a) := by
  induction args generalizing a with
  | nil =>
    show asked (if a.files.isEmpty then .error .noFiles else .ok (.render a)) = withFiles a
    unfold withFiles
    split <;> rfl
  | cons octets args ih =>
    have hadd := toOption_addFile a octets
    rw [List.foldlM_cons, List.mapM_cons]
    cases haddFile : addFile a octets with
    | error m =>
      rw [haddFile] at hadd
      cases hpath : path? octets with
      | none => rfl
      | some p => rw [hpath] at hadd; cases hadd
    | ok b =>
      rw [haddFile] at hadd
      cases hpath : path? octets with
      | none => rw [hpath] at hadd; cases hadd
      | some p =>
        rw [hpath] at hadd
        obtain rfl : b = { a with files := a.files ++ [p] } := Option.some.inj hadd
        refine (ih _).trans ?_
        cases args.mapM fun octets => (path? octets).map Choice.file <;> rfl

/-! ## Asking for no run -/

/-- Where reading stops early, no run is asked for. -/
def StopsAside (r : Except Misuse Progress) : Prop := ∀ c, r = .ok (.stops c) → asked (.ok c) = none

theorem stopsAside_goesOn (r : Except Misuse Arguments) : StopsAside (r.map .goesOn) := by
  intro c h
  cases r <;> cases h

theorem stopsAside_setFlag (a : Arguments) (flag : Flag) : StopsAside (setFlag a flag) := by
  intro c h
  cases flag with
  | fail =>
    rw [setFlag] at h
    split at h <;> simp at h
  | help | version =>
    cases h
    rfl
  | _ => cases h

theorem stopsAside_readLong (a : Arguments) (octets : Bytes) : StopsAside (readLong a octets) := by
  unfold readLong
  dsimp only
  split
  · rintro c ⟨⟩
  · split
    · exact stopsAside_goesOn _
    · exact stopsAside_setFlag a _

theorem stopsAside_readShort : ∀ (octets : Bytes) (a : Arguments), StopsAside (readShort a octets)
  | [], _ => by rintro c ⟨⟩
  | b :: bs, a => by
    unfold readShort
    split
    · rintro c ⟨⟩
    · rename_i flag _
      split
      · split
        · rintro c ⟨⟩
        · exact stopsAside_goesOn _
      · have hflag := stopsAside_setFlag a flag
        split
        · exact stopsAside_readShort bs _
        · exact hflag

theorem stopsAside_readArgument (a : Arguments) (octets : Bytes) : StopsAside (readArgument a octets) := by
  unfold readArgument
  split
  · split
    · exact stopsAside_goesOn _
    · split
      · exact stopsAside_readLong a _
      · exact stopsAside_readShort _ a
  · exact stopsAside_goesOn _

/-! ## Command lines -/

/-- Reading behind an argument. -/
def readOn (args : List Bytes) (a : Arguments) : Option Flag → Except Misuse Command
  | none => readFrom a args
  | some flag =>
    match args with
    | [] => .error (.missingValue flag)
    | value :: args =>
      if isOption value then .error (.missingValue flag)
      else match setValue a flag value with
        | .error m => .error m
        | .ok a => readFrom a args

theorem asked_readFrom_cons {arg : Bytes} (harg : arg ≠ separator) (args : List Bytes) (a : Arguments) :
    asked (readFrom a (arg :: args)) =
      ((said? arg).bind (·.make a)).bind fun made => asked (readOn args made.1 made.2) := by
  rw [← made_readArgument, readFrom, if_neg harg]
  cases hread : readArgument a arg with
  | error m => rfl
  | ok progress =>
    cases progress with
    | goesOn b => rfl
    | awaits b flag => rfl
    | stops c => exact stopsAside_readArgument a arg c hread

theorem asked_setValue (a : Arguments) (flag : Flag) (value : Bytes) (args : List Bytes) :
    asked (match setValue a flag value with
      | .error m => .error m
      | .ok a => readFrom a args) =
      ((valueChoice? value flag).bind (choose a)).bind fun b => asked (readFrom b args) := by
  rw [← toOption_setValue]
  cases setValue a flag value <;> rfl

/-- **Reading is making the choices one after the other.** -/
theorem asked_readFrom (a : Arguments) (args : List Bytes) :
    asked (readFrom a args) = (choices? args).bind (chosen a) := by
  match args with
  | [] =>
    show asked (if a.files.isEmpty then .error .noFiles else .ok (.render a)) = withFiles a
    unfold withFiles
    split <;> rfl
  | arg :: args =>
    by_cases harg : arg = separator
    · rw [readFrom, if_pos harg, choices?, if_pos harg]
      exact asked_files a args
    rw [asked_readFrom_cons harg, choices?, if_neg harg]
    match said? arg with
    | none => rfl
    | some ⟨cs, none⟩ =>
      simp only [Option.bind_some, Said.make, Option.bind_map, Function.comp_def, chosen_append, readOn]
      simp only [asked_readFrom _ args]
      exact Option.bind_comm _ _
    | some ⟨cs, some flag⟩ =>
      simp only [Option.bind_some, Said.make, Option.bind_map, Function.comp_def]
      match args with
      | [] => simp [readOn, asked]
      | value :: args =>
        by_cases hvalue : isOption value = true
        · simp [readOn, hvalue, asked]
        simp only [readOn, if_neg hvalue, asked_setValue, asked_readFrom _ args]
        cases valueChoice? value flag with
        | none => simp
        | some c =>
          simp only [Option.bind_some, Option.bind_map, Function.comp_def, chosen_append, chosen_cons]
          cases choices? args with
          | none => simp
          | some ds => rfl
termination_by args.length

/-! ## Arguments by their choices -/

inductive Kind where
  | config | template | assignment | root | out | fail | verbose | file
deriving DecidableEq, Repr

/-- Whether choices of a kind are made once at most. -/
def Kind.isOnce : Kind → Bool
  | .config | .root | .out | .fail => true
  | .template | .assignment | .verbose | .file => false

def Choice.kind : Choice → Kind
  | .config _ => .config
  | .template _ => .template
  | .assignment _ _ => .assignment
  | .root _ => .root
  | .out _ => .out
  | .fail => .fail
  | .verbose => .verbose
  | .file _ => .file

/-- The choices of a kind that arguments hold, in order. -/
def held (a : Arguments) : Kind → List Choice
  | .config => a.config.toList.map .config
  | .template => a.templates.map .template
  | .assignment => a.globals.map fun e => .assignment e.1 e.2
  | .root => a.root.toList.map .root
  | .out => a.out.toList.map .out
  | .fail => List.replicate a.failOnError.toNat .fail
  | .verbose => List.replicate a.verbosity .verbose
  | .file => a.files.map .file

theorem held_of_choose {a b : Arguments} {c : Choice} (h : choose a c = some b) (k : Kind) :
    held b k = held a k ++ [c].filter (·.kind = k) := by
  cases c with
  | config | root | out | fail =>
    simp only [choose, Option.ite_none_left_eq_some, Option.some.injEq] at h
    obtain ⟨hunset, rfl⟩ := h
    cases k <;> simp_all [held, Choice.kind]
  | template | assignment | verbose | file =>
    obtain rfl := Option.some.inj h
    cases k <;> simp [held, Choice.kind, List.replicate_succ']

theorem exists_choose {a : Arguments} {c : Choice} (h : c.kind.isOnce = true → held a c.kind = []) :
    ∃ b, choose a c = some b := by
  cases c <;> simp_all [choose, held, Choice.kind, Kind.isOnce]

theorem length_held_le (a : Arguments) {k : Kind} (h : k.isOnce = true) : (held a k).length ≤ 1 := by
  cases k with
  | config => cases hc : a.config <;> simp [held, hc]
  | root => cases hr : a.root <;> simp [held, hr]
  | out => cases ho : a.out <;> simp [held, ho]
  | fail => cases hf : a.failOnError <;> simp [held, hf]
  | template | assignment | verbose | file => cases h

theorem ext_held {a b : Arguments} (h : ∀ k, held a k = held b k) : a = b := by
  have hmap {α : Type} {f : α → Choice} (hf : ∀ x y, f x = f y → x = y) {xs ys : List α} (hxs : xs.map f = ys.map f) :
      xs = ys := (List.map_inj_right hf).1 hxs
  have honce {x y : Option Path} (hx : x.toList = y.toList) : x = y := by
    cases x <;> cases y <;> simp_all
  have hconfig : a.config = b.config := honce (hmap (by simp) (h .config))
  have htemplates : a.templates = b.templates := hmap (by simp) (h .template)
  have hglobals : a.globals = b.globals := hmap (by simp) (h .assignment)
  have hroot : a.root = b.root := honce (hmap (by simp) (h .root))
  have hout : a.out = b.out := honce (hmap (by simp) (h .out))
  have hfail : a.failOnError = b.failOnError := by
    have hlength := congrArg List.length (h .fail)
    cases ha : a.failOnError <;> cases hb : b.failOnError <;> simp [held, ha, hb] at hlength ⊢
  have hverbosity : a.verbosity = b.verbosity := by simpa [held] using congrArg List.length (h .verbose)
  have hfiles : a.files = b.files := hmap (by simp) (h .file)
  cases a
  cases b
  simp_all only

/-- **What choices lead to holds them, kind by kind, behind what was there.** -/
theorem foldlM_choose_iff : ∀ {cs : List Choice} {a b : Arguments},
    cs.foldlM choose a = some b ↔ ∀ k, held b k = held a k ++ cs.filter (·.kind = k)
  | [], a, b => by
    show some a = some b ↔ _
    simp only [Option.some.injEq, List.filter_nil, List.append_nil]
    exact ⟨fun h _ => h ▸ rfl, fun h => ext_held fun k => (h k).symm⟩
  | c :: cs, a, b => by
    have hsplit (k : Kind) : (c :: cs).filter (·.kind = k) = [c].filter (·.kind = k) ++ cs.filter (·.kind = k) :=
      List.filter_append [c] cs
    rw [List.foldlM_cons]
    constructor
    · intro h k
      obtain ⟨a', hc, h⟩ := Option.bind_eq_some_iff.1 h
      rw [foldlM_choose_iff.1 h k, held_of_choose hc, List.append_assoc, ← hsplit]
    · intro h
      have hfree : c.kind.isOnce = true → held a c.kind = [] := by
        intro honce
        have hlength := length_held_le b honce
        simp only [h c.kind, hsplit, List.length_append, List.filter_cons_of_pos, decide_true, List.length_cons] at hlength
        exact List.eq_nil_of_length_eq_zero (by omega)
      obtain ⟨a', hc⟩ := exists_choose hfree
      refine Option.bind_eq_some_iff.2 ⟨a', hc, foldlM_choose_iff.2 fun k => ?_⟩
      rw [h k, held_of_choose hc, List.append_assoc, ← hsplit]

/-! ## Command lines by their choices -/

theorem held_nothing (k : Kind) : held ⟨none, [], [], none, none, false, 0, []⟩ k = [] := by
  cases k <;> rfl

/-- **A command line asks for the run that its choices make**, if it names a file and makes no choice twice that can be made
once only. -/
theorem read_eq_render_iff {args : List Bytes} {a : Arguments} :
    read args = .ok (.render a) ↔
      ∃ cs, choices? args = some cs ∧ (∀ k, held a k = cs.filter (·.kind = k)) ∧ a.files ≠ [] := by
  have hasked : read args = .ok (.render a) ↔ asked (read args) = some a := by
    unfold asked
    split <;> simp_all
  have hfiles (b : Arguments) : withFiles b = some a ↔ b = a ∧ a.files ≠ [] := by
    unfold withFiles
    constructor
    · intro h
      split at h
      · cases h
      · rename_i hb
        obtain rfl := Option.some.inj h
        exact ⟨rfl, fun hnil => hb (List.isEmpty_iff.2 hnil)⟩
    · rintro ⟨rfl, hne⟩
      exact if_neg fun hnil => hne (List.isEmpty_iff.1 hnil)
  rw [hasked, read, asked_readFrom, Option.bind_eq_some_iff]
  simp only [chosen, Option.bind_eq_some_iff, hfiles, foldlM_choose_iff, held_nothing, List.nil_append]
  constructor
  · rintro ⟨cs, hcs, b, hheld, rfl, hne⟩
    exact ⟨cs, hcs, hheld, hne⟩
  · rintro ⟨cs, hcs, hheld, hne⟩
    exact ⟨cs, hcs, a, hheld, rfl, hne⟩

/-- Arguments that stand for themselves: options with their values, and files, in front of any separator. -/
structure Piece where
  args : List Bytes
  choices : List Choice
  said : choices? args = some choices
  closed : separator ∉ args

theorem choices?_append (more : List Bytes) : ∀ {args : List Bytes} {cs : List Choice}, choices? args = some cs →
    separator ∉ args → choices? (args ++ more) = (choices? more).map (cs ++ ·)
  | [], cs, h, _ => by
    obtain rfl : [] = cs := Option.some.inj h
    simp
  | arg :: args, cs, h, hclosed => by
    have harg : arg ≠ separator := (List.ne_of_not_mem_cons hclosed).symm
    have hargs : separator ∉ args := List.not_mem_of_not_mem_cons hclosed
    rw [choices?, if_neg harg] at h
    rw [List.cons_append, choices?, if_neg harg]
    rcases hsaid : said? arg with _ | ⟨ds, _ | flag⟩ <;> rw [hsaid] at h <;> dsimp only at h ⊢
    · cases h
    · obtain ⟨es, hes, rfl⟩ := Option.map_eq_some_iff.1 h
      rw [choices?_append more hes hargs]
      simp [Function.comp_def]
    · cases args with
      | nil => cases h
      | cons value args =>
        dsimp only at h
        by_cases hvalue : isOption value = true
        · simp [hvalue] at h
        rw [if_neg hvalue] at h
        obtain ⟨c, hc, h⟩ := Option.bind_eq_some_iff.1 h
        obtain ⟨es, hes, rfl⟩ := Option.map_eq_some_iff.1 h
        have hmore := choices?_append more hes (List.not_mem_of_not_mem_cons hargs)
        simp only [List.cons_append, if_neg hvalue, hc, hmore]
        simp [Function.comp_def]

theorem choices?_pieces : ∀ (ps : List Piece) (rest : List Bytes),
    choices? (ps.flatMap Piece.args ++ rest) = (choices? rest).map (ps.flatMap Piece.choices ++ ·)
  | [], rest => by simp
  | p :: ps, rest => by
    rw [List.flatMap_cons, List.append_assoc, choices?_append _ p.said p.closed, choices?_pieces ps]
    simp [Function.comp_def]

/-! ## The order of choices -/

/-- Whether arguments keep choices of a kind in their order. -/
def Kind.isOrdered : Kind → Bool
  | .template | .assignment | .file => true
  | .config | .root | .out | .fail | .verbose => false

theorem filter_kind_of_perm {a : Arguments} {k : Kind} (hk : k.isOrdered = false) {cs ds : List Choice}
    (hheld : held a k = cs.filter (·.kind = k)) (hperm : ds.Perm cs) : ds.filter (·.kind = k) = cs.filter (·.kind = k) := by
  have hfilter := hperm.filter (·.kind = k)
  rw [← hheld] at hfilter ⊢
  -- equal choices all through, or at most one of them
  by_cases hverbose : k = .verbose
  · subst hverbose
    exact List.perm_replicate.1 hfilter
  have honce : k.isOnce = true := by
    cases k <;> simp_all [Kind.isOnce, Kind.isOrdered]
  rcases Nat.le_one_iff_eq_zero_or_eq_one.1 (length_held_le a honce) with hlength | hlength
  · rw [List.length_eq_zero_iff] at hlength
    rw [hlength] at hfilter ⊢
    exact hfilter.eq_nil
  · obtain ⟨c, hc⟩ := List.length_eq_one_iff.1 hlength
    rw [hc] at hfilter ⊢
    exact hfilter.eq_singleton

theorem exists_files : ∀ cs : List Choice, ∃ files : List Path, files.map .file = cs.filter (·.kind = .file)
  | [] => ⟨[], rfl⟩
  | c :: cs => by
    obtain ⟨files, hfiles⟩ := exists_files cs
    cases c with
    | file p => exact ⟨p :: files, by simp [hfiles, Choice.kind]⟩
    | _ => exact ⟨files, by simp [hfiles, Choice.kind]⟩

/-- **Choices can be made in any order**, but for those of templates and those of variables among themselves: only the files
come in another order. -/
theorem read_of_perm {args args' : List Bytes} {cs ds : List Choice} (hcs : choices? args = some cs)
    (hds : choices? args' = some ds) (hperm : ds.Perm cs)
    (horder : ∀ k ∈ [Kind.template, .assignment], ds.filter (·.kind = k) = cs.filter (·.kind = k)) {a : Arguments}
    (h : read args = .ok (.render a)) :
    ∃ files, read args' = .ok (.render { a with files := files }) ∧ files.Perm a.files := by
  obtain ⟨cs', hcs', hheld, hne⟩ := read_eq_render_iff.1 h
  obtain rfl : cs = cs' := Option.some.inj (hcs.symm.trans hcs')
  obtain ⟨files, hfiles⟩ := exists_files ds
  have hpermFiles : files.Perm a.files := by
    have hfilter := hperm.filter (·.kind = .file)
    rw [← hheld, ← hfiles] at hfilter
    exact (List.map_perm_map_iff fun _ _ => Choice.file.inj).1 hfilter
  refine ⟨files, read_eq_render_iff.2 ⟨ds, hds, fun k => ?_, fun hnil => hne ?_⟩, hpermFiles⟩
  · cases k with
    | file => exact hfiles
    | template => exact (hheld .template).trans (horder .template (by simp)).symm
    | assignment => exact (hheld .assignment).trans (horder .assignment (by simp)).symm
    | config => exact (hheld .config).trans (filter_kind_of_perm rfl (hheld .config) hperm).symm
    | root => exact (hheld .root).trans (filter_kind_of_perm rfl (hheld .root) hperm).symm
    | out => exact (hheld .out).trans (filter_kind_of_perm rfl (hheld .out) hperm).symm
    | fail => exact (hheld .fail).trans (filter_kind_of_perm rfl (hheld .fail) hperm).symm
    | verbose => exact (hheld .verbose).trans (filter_kind_of_perm rfl (hheld .verbose) hperm).symm
  · rw [show files = [] from hnil] at hpermFiles
    exact hpermFiles.nil_eq.symm

end Folio.CommandLine
