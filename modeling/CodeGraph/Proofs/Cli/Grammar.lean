/-
# The grammar of command lines

A command line is made of units: the flag of a mode, an option for a file of settings with the
argument behind it, or an input file.  No two lists of units are written alike (`spell_injective`).
Reading takes units from the left, and what it stops at decides what the command line asks for
(`parseArgs_eq_iff`).  A job comes of units up to the end with one input file among them, and their
order matters only among the modes and among the files of settings (`parseArgs_grammar`).
-/
import Mathlib.Data.List.Basic
import Mathlib.Data.List.Induction
import CodeGraph.Cli.Args

namespace CodeGraph.Cli

/-! ## Units -/

/-- The flag of a mode. -/
def Mode.flag : Mode → String
  | dot => "--dot"
  | records => "--records"
  | pairs => "--pairs"
  | vocab => "--vocab"

/-- The option for a file of settings, in its two spellings. -/
def configFlag (short : Bool) : String := if short then "-c" else "--config"

/-- A unit of a command line.  A file of settings may be named like an option, an input file not. -/
inductive ArgUnit
  | mode (mode : Mode)
  | config (short : Bool) (path : String)
  | input (path : String) (plain : isOption path = false)
  deriving DecidableEq

namespace ArgUnit

/-- The arguments that make up a unit. -/
def spelling : ArgUnit → List String
  | mode m => [m.flag]
  | config short path => [configFlag short, path]
  | input path _ => [path]

/-- The mode that a unit asks for. -/
def mode? : ArgUnit → Option Mode
  | mode m => some m
  | config _ _ | input _ _ => none

/-- The file of settings that a unit names. -/
def config? : ArgUnit → Option String
  | config _ path => some path
  | mode _ | input _ _ => none

/-- The input file that a unit names. -/
def input? : ArgUnit → Option String
  | input path _ => some path
  | mode _ | config _ _ => none

end ArgUnit

/-- The arguments that make up a list of units. -/
def spell (units : List ArgUnit) : List String := units.flatMap ArgUnit.spelling

/-- The modes that units ask for, in order. -/
def modesOf (units : List ArgUnit) : List Mode := units.filterMap ArgUnit.mode?

/-- The files of settings that units name, in order. -/
def configsOf (units : List ArgUnit) : List String := units.filterMap ArgUnit.config?

/-- The input files that units name, in order. -/
def inputsOf (units : List ArgUnit) : List String := units.filterMap ArgUnit.input?

theorem spell_cons (u : ArgUnit) (units : List ArgUnit) :
    spell (u :: units) = u.spelling ++ spell units := List.flatMap_cons

theorem inputsOf_append (units others : List ArgUnit) :
    inputsOf (units ++ others) = inputsOf units ++ inputsOf others := List.filterMap_append

theorem inputsOf_concat_of_none {u : ArgUnit} (h : u.input? = none) (units : List ArgUnit) :
    inputsOf (units ++ [u]) = inputsOf units := by
  rw [inputsOf_append, inputsOf, inputsOf, List.filterMap_cons_none h, List.filterMap_nil,
    List.append_nil]

/-! ## Flags -/

theorem isOption_flag (mode : Mode) : isOption mode.flag = true := by
  cases mode <;> rfl

/-- The flag of a configuration is no path. -/
theorem isOption_configFlag (short : Bool) : isOption (configFlag short) = true := by
  cases short <;> rfl

theorem flag_inj {mode other : Mode} (h : mode.flag = other.flag) : mode = other := by
  revert h
  cases mode <;> cases other <;> decide

/-- The two flags of a configuration are different. -/
theorem configFlag_inj {short other : Bool} (h : configFlag short = configFlag other) :
    short = other := by
  revert h
  cases short <;> cases other <;> decide

/-- No mode has the flag of a configuration. -/
theorem flag_ne_configFlag (mode : Mode) (short : Bool) : mode.flag ≠ configFlag short := by
  cases mode <;> cases short <;> decide

/-- What is not written like an option is no flag. -/
theorem ne_of_plain {path flag : String} (plain : isOption path = false)
    (hflag : isOption flag = true) : path ≠ flag := by
  rintro rfl
  exact Bool.false_ne_true (plain.symm.trans hflag)

/-- A mode is asked for by its flag and by nothing else. -/
theorem modeFlag?_eq_some_iff {argument : String} {mode : Mode} :
    modeFlag? argument = some mode ↔ argument = mode.flag := by
  constructor
  · intro h
    unfold modeFlag? at h
    split at h <;> cases h <;> rfl
  · rintro rfl
    cases mode <;> rfl

theorem modeFlag?_of_plain {path : String} (plain : isOption path = false) :
    modeFlag? path = none :=
  Option.eq_none_iff_forall_ne_some.mpr fun mode h =>
    ne_of_plain plain (isOption_flag mode) (modeFlag?_eq_some_iff.mp h)

/-! ## The units of a command line are its own -/

/-- The first argument tells the sort of a unit, and with it how many arguments are its own. -/
theorem spelling_append_inj {u v : ArgUnit} {rest others : List String}
    (h : u.spelling ++ rest = v.spelling ++ others) : u = v ∧ rest = others := by
  cases u with
  | mode mode =>
    cases v with
    | mode other =>
      obtain ⟨hflag, hrest⟩ := List.cons_eq_cons.mp h
      exact ⟨congrArg _ (flag_inj hflag), hrest⟩
    | config short path => exact absurd (List.cons_eq_cons.mp h).1 (flag_ne_configFlag mode short)
    | input path plain =>
      exact absurd (List.cons_eq_cons.mp h).1.symm (ne_of_plain plain (isOption_flag mode))
  | config short path =>
    cases v with
    | mode mode => exact absurd (List.cons_eq_cons.mp h).1.symm (flag_ne_configFlag mode short)
    | config short' path' =>
      obtain ⟨hflag, htail⟩ := List.cons_eq_cons.mp h
      obtain ⟨rfl, hrest⟩ := List.cons_eq_cons.mp htail
      exact ⟨congrArg (ArgUnit.config · path) (configFlag_inj hflag), hrest⟩
    | input path' plain =>
      exact absurd (List.cons_eq_cons.mp h).1.symm (ne_of_plain plain (isOption_configFlag short))
  | input path plain =>
    cases v with
    | mode mode => exact absurd (List.cons_eq_cons.mp h).1 (ne_of_plain plain (isOption_flag mode))
    | config short path' =>
      exact absurd (List.cons_eq_cons.mp h).1 (ne_of_plain plain (isOption_configFlag short))
    | input path' plain' =>
      obtain ⟨rfl, hrest⟩ := List.cons_eq_cons.mp h
      exact ⟨rfl, hrest⟩

theorem spelling_ne_nil (u : ArgUnit) : u.spelling ≠ [] := by
  cases u <;> exact List.cons_ne_nil _ _

/-- **No two lists of units are written alike.** -/
theorem spell_injective : Function.Injective spell := by
  intro units
  induction units with
  | nil =>
    intro others h
    cases others with
    | nil => rfl
    | cons v others =>
      rw [spell_cons] at h
      exact absurd (List.append_eq_nil_iff.mp h.symm).1 (spelling_ne_nil v)
  | cons u units ih =>
    intro others h
    cases others with
    | nil =>
      rw [spell_cons] at h
      exact absurd (List.append_eq_nil_iff.mp h).1 (spelling_ne_nil u)
    | cons v others =>
      rw [spell_cons, spell_cons] at h
      obtain ⟨rfl, hrest⟩ := spelling_append_inj h
      rw [ih hrest]

/-! ## What has been read -/

/-- What has been read once a unit has been taken. -/
def ArgsDraft.take (draft : ArgsDraft) : ArgUnit → ArgsDraft
  | .mode mode => { draft with mode }
  | .config _ path => { draft with config? := some path }
  | .input path _ => { draft with input? := some path }

/-- What has been read once units have been taken from the start. -/
def ArgsDraft.ofUnits (units : List ArgUnit) : ArgsDraft := units.foldl take {}

theorem ArgsDraft.ofUnits_concat (units : List ArgUnit) (u : ArgUnit) :
    ofUnits (units ++ [u]) = (ofUnits units).take u := by
  rw [ofUnits, List.foldl_append]
  rfl

/-- **The last of each sort counts.** -/
theorem ArgsDraft.ofUnits_eq (units : List ArgUnit) :
    ofUnits units = {
      mode := (modesOf units).getLast?.getD .dot
      config? := (configsOf units).getLast?
      input? := (inputsOf units).getLast? } := by
  induction units using List.reverseRecOn with
  | nil => rfl
  | append_singleton units u ih =>
    simp only [ofUnits_concat, ih, modesOf, configsOf, inputsOf, List.filterMap_append]
    cases u <;> simp [take, ArgUnit.mode?, ArgUnit.config?, ArgUnit.input?]

/-- If there is at most one input, it is the one that has been taken. -/
theorem inputsOf_eq {units : List ArgUnit} (h : (inputsOf units).length ≤ 1) :
    inputsOf units = (ArgsDraft.ofUnits units).input?.toList := by
  rw [ArgsDraft.ofUnits_eq]
  match inputsOf units, h with
  | [], _ => rfl
  | [_], _ => rfl

/-- The job that units with the input file `input` ask for. -/
def jobOf (units : List ArgUnit) (input : String) : Job where
  mode := (modesOf units).getLast?.getD .dot
  config? := (configsOf units).getLast?
  input := input

/-! ## Where reading stops -/

/-- The flags that ask for help. -/
def helpFlags : List String := ["--help", "-h"]

/-- The flags that ask for the version. -/
def versionFlags : List String := ["--version", "-v"]

/-- All that is understood among what is written like an option. -/
def flags : List String :=
  helpFlags ++ versionFlags ++ [configFlag false, configFlag true] ++
    [Mode.dot, .records, .pairs, .vocab].map Mode.flag

theorem mem_helpFlags_iff {argument : String} : argument ∈ helpFlags ↔
    (argument = "--help" || argument = "-h") = true := by
  simp [helpFlags]

theorem mem_versionFlags_iff {argument : String} : argument ∈ versionFlags ↔
    (argument = "--version" || argument = "-v") = true := by
  simp [versionFlags]

/-- A configuration is asked for by its two flags. -/
theorem exists_configFlag_iff {argument : String} : (∃ short, argument = configFlag short) ↔
    (argument = "--config" || argument = "-c") = true := by
  simp [configFlag]

/-- The flags are those for help, for the version, for a configuration and for the modes. -/
theorem not_mem_flags_iff {argument : String} : argument ∉ flags ↔
    argument ∉ helpFlags ∧ argument ∉ versionFlags ∧ (¬ ∃ short, argument = configFlag short) ∧
      modeFlag? argument = none := by
  have hmodes : argument ∉ [Mode.dot, .records, .pairs, .vocab].map Mode.flag ↔
      modeFlag? argument = none := by
    rw [Option.eq_none_iff_forall_ne_some, List.mem_map, not_exists]
    refine forall_congr' fun m => ?_
    have hm : m ∈ [Mode.dot, .records, .pairs, .vocab] := by cases m <;> decide
    rw [Ne, modeFlag?_eq_some_iff, eq_comm]
    simp [hm]
  rw [flags, List.mem_append, List.mem_append, List.mem_append, not_or, not_or, not_or, hmodes,
    List.mem_pair, Bool.exists_bool, and_assoc, and_assoc]

/-- What a command line asks for, once units have been taken and none can be taken of the rest. -/
inductive Concludes (units : List ArgUnit) : List String → Request → Prop
  | job {input : String} (h : inputsOf units = [input]) :
    Concludes units [] (.run (jobOf units input))
  | noInput (h : inputsOf units = []) : Concludes units [] (.misuse .missingInput)
  | help {flag : String} {rest : List String} (h : flag ∈ helpFlags) :
    Concludes units (flag :: rest) .help
  | version {flag : String} {rest : List String} (h : flag ∈ versionFlags) :
    Concludes units (flag :: rest) .version
  | noConfig (short : Bool) : Concludes units [configFlag short] (.misuse .configWithoutFile)
  | unknown {argument : String} {rest : List String} (hoption : isOption argument = true)
    (hflags : argument ∉ flags) :
    Concludes units (argument :: rest) (.misuse (.unknownOption argument))
  | secondInput {path : String} {rest : List String} (plain : isOption path = false)
    (h : inputsOf units ≠ []) : Concludes units (path :: rest) (.misuse .tooManyArguments)

/-- With the units `before` taken, the arguments ask for `request`: units can be taken of them, and
what is left decides.  Of input files at most one is taken. -/
def Reads (before : List ArgUnit) (arguments : List String) (request : Request) : Prop :=
  ∃ units rest, spell units ++ rest = arguments ∧ (inputsOf (before ++ units)).length ≤ 1 ∧
    Concludes (before ++ units) rest request

section Reads

variable {before : List ArgUnit} {arguments rest : List String} {request : Request}

/-- Where no more units can be taken, the rest of the arguments decides. -/
theorem Reads.stop (h : Concludes before arguments request)
    (hinputs : (inputsOf before).length ≤ 1) : Reads before arguments request := by
  rw [← List.append_nil before] at h hinputs
  exact ⟨[], arguments, rfl, hinputs, h⟩

/-- One more unit is read in front of the rest. -/
theorem Reads.take {u : ArgUnit} (h : Reads (before ++ [u]) rest request) :
    Reads before (u.spelling ++ rest) request := by
  obtain ⟨units, left, rfl, hinputs, hends⟩ := h
  rw [List.append_assoc] at hinputs hends
  refine ⟨u :: units, left, ?_, hinputs, hends⟩
  rw [spell_cons, List.append_assoc]

end Reads

/-! ## Reading -/

section Reading

variable {before units : List ArgUnit} {arguments rest : List String} {request : Request}

theorem readArgs_flag (draft : ArgsDraft) (m : Mode) (rest : List String) :
    readArgs draft (m.flag :: rest) = readArgs { draft with mode := m } rest := by
  -- the equations of `readArgs` look one argument ahead, and here that one is open
  rw [readArgs.eq_def]
  cases m <;> rfl

/-- The flag of a configuration takes the argument behind it. -/
theorem readArgs_configFlag (draft : ArgsDraft) (short : Bool) (path : String)
    (rest : List String) : readArgs draft (configFlag short :: path :: rest) =
      readArgs { draft with config? := some path } rest := by
  rw [readArgs.eq_def]
  cases short <;> rfl

/-- A path is the input, unless there is one already. -/
theorem readArgs_plain (draft : ArgsDraft) {path : String} (plain : isOption path = false)
    (rest : List String) : readArgs draft (path :: rest) =
      if draft.input?.isSome then .misuse .tooManyArguments
      else readArgs { draft with input? := some path } rest := by
  have hne (flag : String) (hflag : isOption flag = true) : decide (path = flag) = false :=
    decide_eq_false (ne_of_plain plain hflag)
  rw [readArgs.eq_def]
  dsimp only
  rw [hne "--help" rfl, hne "-h" rfl, hne "--version" rfl, hne "-v" rfl, hne "--config" rfl,
    hne "-c" rfl, modeFlag?_of_plain plain, plain]
  rfl

/-- **A unit is taken**, unless it is a second input file. -/
theorem readArgs_spelling_append {u : ArgUnit} (h : (inputsOf (before ++ [u])).length ≤ 1)
    (rest : List String) : readArgs (.ofUnits before) (u.spelling ++ rest) =
      readArgs (.ofUnits (before ++ [u])) rest := by
  rw [ArgsDraft.ofUnits_concat]
  cases u with
  | mode m => exact readArgs_flag _ m rest
  | config short path => exact readArgs_configFlag _ short path rest
  | input path plain =>
    have hnone : inputsOf before = [] := by
      have hone : (inputsOf [ArgUnit.input path plain]).length = 1 := rfl
      rw [inputsOf_append, List.length_append] at h
      apply List.eq_nil_of_length_eq_zero
      omega
    have hinput : (ArgsDraft.ofUnits before).input? = none := by
      rw [ArgsDraft.ofUnits_eq, hnone]
      rfl
    refine (readArgs_plain _ plain rest).trans ?_
    rw [hinput]
    rfl

/-- Units are taken one after another, as long as there is one input file among them at the most. -/
theorem readArgs_spell_append (before : List ArgUnit)
    (h : (inputsOf (before ++ units)).length ≤ 1) (rest : List String) :
    readArgs (.ofUnits before) (spell units ++ rest) =
      readArgs (.ofUnits (before ++ units)) rest := by
  induction units generalizing before with
  | nil =>
    rw [List.append_nil]
    rfl
  | cons u units ih =>
    rw [List.append_cons] at h ⊢
    have hfirst : (inputsOf (before ++ [u])).length ≤ 1 := by
      rw [inputsOf_append, List.length_append] at h
      omega
    rw [spell_cons, List.append_assoc, readArgs_spelling_append hfirst, ih _ h]

/-- What reading stops at decides. -/
theorem Concludes.readArgs_eq (h : Concludes units rest request) :
    readArgs (.ofUnits units) rest = request := by
  cases h with
  | job h =>
    rw [readArgs, ArgsDraft.ofUnits_eq, h]
    rfl
  | noInput h =>
    rw [readArgs, ArgsDraft.ofUnits_eq, h]
    rfl
  | help h =>
    rw [readArgs.eq_def]
    exact if_pos (mem_helpFlags_iff.mp h)
  | version h =>
    rw [readArgs.eq_def]
    rcases List.mem_pair.mp h with rfl | rfl <;> rfl
  | noConfig short => cases short <;> rfl
  | unknown hoption hflags =>
    obtain ⟨hhelp, hversion, hconfig, hmode⟩ := not_mem_flags_iff.mp hflags
    rw [mem_helpFlags_iff] at hhelp
    rw [mem_versionFlags_iff] at hversion
    rw [exists_configFlag_iff] at hconfig
    rw [readArgs.eq_def]
    dsimp only
    rw [if_neg hhelp, if_neg hversion, if_neg hconfig, hmode, hoption]
    rfl
  | secondInput plain h =>
    have hinput : (ArgsDraft.ofUnits units).input?.isSome = true := by
      rw [ArgsDraft.ofUnits_eq]
      exact List.getLast?_isSome.mpr h
    rw [readArgs_plain _ plain, if_pos hinput]

/-- Whatever is read, units are taken of it and what is left decides. -/
theorem reads_readArgs (before : List ArgUnit) (hbefore : (inputsOf before).length ≤ 1) :
    Reads before arguments (readArgs (.ofUnits before) arguments) := by
  -- what has been read is at all times what the units taken so far leave
  generalize hdraft : ArgsDraft.ofUnits before = draft
  fun_induction readArgs draft arguments generalizing before with
  | case1 draft input hinput =>
    have hinputs := inputsOf_eq hbefore
    rw [hdraft, hinput] at hinputs
    have hjob : jobOf before input = { mode := draft.mode, config? := draft.config?, input } := by
      rw [← hdraft, ArgsDraft.ofUnits_eq]
      rfl
    exact .stop (hjob ▸ .job hinputs) hbefore
  | case2 draft hinput =>
    have hinputs := inputsOf_eq hbefore
    rw [hdraft, hinput] at hinputs
    exact .stop (.noInput hinputs) hbefore
  | case3 draft argument rest hhelp => exact .stop (.help (mem_helpFlags_iff.mpr hhelp)) hbefore
  | case4 draft argument rest _ hversion =>
    exact .stop (.version (mem_versionFlags_iff.mpr hversion)) hbefore
  | case5 draft argument _ _ hconfig =>
    obtain ⟨short, rfl⟩ := exists_configFlag_iff.mpr hconfig
    exact .stop (.noConfig short) hbefore
  | case6 draft argument _ _ hconfig path rest ih =>
    obtain ⟨short, rfl⟩ := exists_configFlag_iff.mpr hconfig
    refine Reads.take (u := .config short path) (ih _ ?_ ?_)
    · rwa [inputsOf_concat_of_none rfl]
    · rw [ArgsDraft.ofUnits_concat, hdraft]
      rfl
  | case7 draft argument rest _ _ _ m hm ih =>
    obtain rfl := modeFlag?_eq_some_iff.mp hm
    refine Reads.take (u := .mode m) (ih _ ?_ ?_)
    · rwa [inputsOf_concat_of_none rfl]
    · rw [ArgsDraft.ofUnits_concat, hdraft]
      rfl
  | case8 draft argument rest hhelp hversion hconfig hmode hoption =>
    rw [← mem_helpFlags_iff] at hhelp
    rw [← mem_versionFlags_iff] at hversion
    rw [← exists_configFlag_iff] at hconfig
    have hflags : argument ∉ flags := not_mem_flags_iff.mpr ⟨hhelp, hversion, hconfig, hmode⟩
    exact .stop (.unknown hoption hflags) hbefore
  | case9 draft path rest _ _ _ _ hplain hsome =>
    refine .stop (.secondInput (Bool.eq_false_iff.mpr hplain) fun hnil => ?_) hbefore
    rw [← hdraft, ArgsDraft.ofUnits_eq, hnil] at hsome
    cases hsome
  | case10 draft path rest _ _ _ _ hplain hnone ih =>
    have hinputs := inputsOf_eq hbefore
    rw [hdraft, Option.not_isSome_iff_eq_none.mp hnone] at hinputs
    refine Reads.take (u := .input path (Bool.eq_false_iff.mpr hplain)) (ih _ ?_ ?_)
    · rw [inputsOf_append, hinputs]
      exact Nat.le_refl 1
    · rw [ArgsDraft.ofUnits_concat, hdraft]
      rfl

/-- **What a command line asks for.**  Units are taken off its front, one input file among them at
the most, and the request is what the rest decides. -/
theorem parseArgs_eq_iff : parseArgs arguments = request ↔
    ∃ units rest, spell units ++ rest = arguments ∧ (inputsOf units).length ≤ 1 ∧
      Concludes units rest request := by
  constructor
  · rintro rfl
    exact reads_readArgs [] (Nat.zero_le 1)
  · rintro ⟨units, rest, rfl, hinputs, hends⟩
    exact (readArgs_spell_append [] hinputs rest).trans hends.readArgs_eq

/-- A job comes of units up to the end, with one input file among them. -/
theorem parseArgs_eq_run_iff {job : Job} : parseArgs arguments = .run job ↔
    ∃ units, spell units = arguments ∧ inputsOf units = [job.input] ∧
      jobOf units job.input = job := by
  rw [parseArgs_eq_iff]
  constructor
  · rintro ⟨units, rest, rfl, -, hends⟩
    cases hends with
    | job h => exact ⟨units, (List.append_nil _).symm, h, rfl⟩
  · rintro ⟨units, rfl, hinputs, hjob⟩
    refine ⟨units, [], List.append_nil _, ?_, hjob ▸ .job hinputs⟩
    rw [hinputs]
    exact Nat.le_refl 1

end Reading

/-! ## Option position -/

/-- The argument behind it is taken as the name of a file of settings. -/
def takesNext (argument : String) : Bool := argument = "--config" || argument = "-c"

/-- The arguments in option position, where `taken` tells whether the first argument is taken by an
option before it: all arguments but those that are taken. -/
def optionsFrom (taken : Bool) : List String → List String
  | [] => []
  | argument :: rest =>
    if taken then optionsFrom false rest
    else argument :: optionsFrom (takesNext argument) rest

/-- The arguments of a command line in option position. -/
def optionsOf (arguments : List String) : List String := optionsFrom false arguments

/-- The flags that ask for a text, whatever job comes with them. -/
def textFlags : List String := helpFlags ++ versionFlags

theorem takesNext_of_plain {path : String} (plain : isOption path = false) :
    takesNext path = false := by
  have hlong : path ≠ "--config" := ne_of_plain plain rfl
  have hshort : path ≠ "-c" := ne_of_plain plain rfl
  simp [takesNext, hlong, hshort]

/-- Options behind a unit are options behind its spelling. -/
theorem mem_optionsOf_spelling_append (u : ArgUnit) {argument : String} {rest : List String}
    (h : argument ∈ optionsOf rest) : argument ∈ optionsOf (u.spelling ++ rest) := by
  cases u with
  | mode m => cases m <;> exact List.mem_cons_of_mem _ h
  | config short path => cases short <;> exact List.mem_cons_of_mem _ h
  | input path plain =>
    show argument ∈ path :: optionsFrom (takesNext path) rest
    rw [takesNext_of_plain plain]
    exact List.mem_cons_of_mem _ h

/-- Units in front leave the arguments behind them in option position. -/
theorem mem_optionsOf_spell_append (units : List ArgUnit) {argument : String}
    {rest : List String} (h : argument ∈ optionsOf rest) :
    argument ∈ optionsOf (spell units ++ rest) := by
  induction units with
  | nil => exact h
  | cons u units ih =>
    rw [spell_cons, List.append_assoc]
    exact mem_optionsOf_spelling_append u ih

/-- A command line without a flag for a text is a job or misuse. -/
theorem exists_job_or_exists_fault {arguments : List String}
    (hplain : ∀ argument ∈ optionsOf arguments, argument ∉ textFlags) :
    (∃ job, parseArgs arguments = .run job) ∨ ∃ fault, parseArgs arguments = .misuse fault := by
  obtain ⟨units, rest, rfl, -, hends⟩ := parseArgs_eq_iff.mp (Eq.refl (parseArgs arguments))
  have hnone {flag : String} {left : List String} (hrest : rest = flag :: left) :
      flag ∉ textFlags :=
    hplain flag (mem_optionsOf_spell_append units (hrest ▸ List.mem_cons_self))
  generalize parseArgs (spell units ++ rest) = request at hends ⊢
  cases hends with
  | job h => exact .inl ⟨_, rfl⟩
  | help h => exact absurd (List.mem_append_left _ h) (hnone rfl)
  | version h => exact absurd (List.mem_append_right _ h) (hnone rfl)
  | noInput h => exact .inr ⟨_, rfl⟩
  | noConfig short => exact .inr ⟨_, rfl⟩
  | unknown hoption hflags => exact .inr ⟨_, rfl⟩
  | secondInput plain h => exact .inr ⟨_, rfl⟩

/-- **The grammar of command lines.**  Where no flag in option position asks for a text, a command
line is a job just if it is made of units with one input file among them, and misuse otherwise.  No
other units make it up.  The job has the last of the modes, the last of the files of settings and the
input file, so units in another order are the same job if the modes are in the same order and so are
the files of settings. -/
theorem parseArgs_grammar {arguments : List String}
    (hplain : ∀ argument ∈ optionsOf arguments, argument ∉ textFlags) :
    ((∃ job, parseArgs arguments = .run job) ↔
      ∃ units, spell units = arguments ∧ ∃ input, inputsOf units = [input]) ∧
    ((¬ ∃ job, parseArgs arguments = .run job) → ∃ fault, parseArgs arguments = .misuse fault) ∧
    ∀ units input, spell units = arguments → inputsOf units = [input] →
      (∀ others, spell others = arguments → others = units) ∧
      parseArgs arguments = .run {
        mode := (modesOf units).getLast?.getD .dot
        config? := (configsOf units).getLast?
        input } ∧
      ∀ others : List ArgUnit, others.Perm units → modesOf others = modesOf units →
        configsOf others = configsOf units → parseArgs (spell others) = parseArgs arguments := by
  have hjob {units : List ArgUnit} {input : String} (h : inputsOf units = [input]) :
      parseArgs (spell units) = .run (jobOf units input) :=
    parseArgs_eq_run_iff.mpr ⟨units, rfl, h, rfl⟩
  refine ⟨⟨?_, ?_⟩, (exists_job_or_exists_fault hplain).resolve_left, ?_⟩
  · rintro ⟨job, h⟩
    obtain ⟨units, hspell, hinputs, -⟩ := parseArgs_eq_run_iff.mp h
    exact ⟨units, hspell, job.input, hinputs⟩
  · rintro ⟨units, rfl, input, hinputs⟩
    exact ⟨_, hjob hinputs⟩
  · rintro units input rfl hinputs
    refine ⟨fun others h => spell_injective h, hjob hinputs,
      fun others hperm hmodes hconfigs => ?_⟩
    have hothers : inputsOf others = [input] :=
      List.perm_singleton.mp (hinputs ▸ hperm.filterMap ArgUnit.input?)
    calc
      parseArgs (spell others) = .run (jobOf others input) := hjob hothers
      _ = .run (jobOf units input) := by rw [jobOf, jobOf, hmodes, hconfigs]
      _ = parseArgs (spell units) := (hjob hinputs).symm

/-- Files of settings that are named like flags, and units that are overridden. -/
theorem parseArgs_grammar_overridden :
    (∀ argument ∈ optionsOf
        ["--pairs", "-c", "--help", "tree.json", "--config", "-v", "--dot"],
      argument ∉ textFlags) ∧
    parseArgs ["--pairs", "-c", "--help", "tree.json", "--config", "-v", "--dot"] =
      .run { mode := .dot, config? := some "-v", input := "tree.json" } ∧
    parseArgs ["-c", "--help", "--config", "-v", "--pairs", "--dot", "tree.json"] =
      parseArgs ["--pairs", "-c", "--help", "tree.json", "--config", "-v", "--dot"] := by
  have hplain : ∀ argument ∈ optionsOf
      ["--pairs", "-c", "--help", "tree.json", "--config", "-v", "--dot"],
      argument ∉ textFlags := by decide
  obtain ⟨-, hjob, hothers⟩ := (parseArgs_grammar hplain).2.2
    [.mode .pairs, .config true "--help", .input "tree.json" rfl, .config false "-v", .mode .dot]
    "tree.json" rfl rfl
  exact ⟨hplain, hjob, hothers
    [.config true "--help", .config false "-v", .mode .pairs, .mode .dot, .input "tree.json" rfl]
    (by decide) rfl rfl⟩

end CodeGraph.Cli
