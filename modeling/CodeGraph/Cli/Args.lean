/-
# Command lines

Arguments are read from left to right: mode flags, options for a file of settings, and the one input
file. A later mode or settings file takes the place of an earlier one; the first fault, or the first
wish for help or the version, ends the reading.
-/

namespace CodeGraph.Cli

/-- What the program is to write. -/
inductive Mode
  | dot
  | records
  | pairs
  | vocab
  deriving DecidableEq, Repr

/-- A job for the program. -/
structure Job where
  mode : Mode
  config? : Option String
  input : String
  deriving DecidableEq, Repr

/-- Why a command line is not understood. -/
inductive UsageFault
  | configWithoutFile
  | unknownOption (argument : String)
  | tooManyArguments
  | missingInput
  deriving DecidableEq, Repr

/-- The wording of a fault of a command line. -/
def UsageFault.message : UsageFault → String
  | configWithoutFile => "--config requires a file argument"
  | unknownOption argument => "Unknown option: " ++ argument
  | tooManyArguments => "Too many arguments."
  | missingInput => "Missing input file."

/-- What a command line asks for. -/
inductive Request
  | help
  | version
  | run (job : Job)
  | misuse (fault : UsageFault)
  deriving DecidableEq, Repr

/-- What has been read of a command line. -/
structure ArgsDraft where
  mode : Mode := .dot
  config? : Option String := none
  input? : Option String := none
  deriving DecidableEq, Repr

/-- The mode that a flag stands for. -/
def modeFlag? (argument : String) : Option Mode :=
  match argument with
  | "--dot" => some .dot
  | "--records" => some .records
  | "--pairs" => some .pairs
  | "--vocab" => some .vocab
  | _ => none

/-- The argument is written like an option. -/
def isOption (argument : String) : Bool := argument.toList.head? == some '-'

/-- Reads the arguments from here on. -/
def readArgs (draft : ArgsDraft) : List String → Request
  | [] =>
    match draft.input? with
    | some input => .run { mode := draft.mode, config? := draft.config?, input }
    | none => .misuse .missingInput
  | argument :: rest =>
    if argument = "--help" || argument = "-h" then .help
    else if argument = "--version" || argument = "-v" then .version
    else if argument = "--config" || argument = "-c" then
      match rest with
      | [] => .misuse .configWithoutFile
      | path :: rest => readArgs { draft with config? := some path } rest
    else
      match modeFlag? argument with
      | some mode => readArgs { draft with mode } rest
      | none =>
        if isOption argument then .misuse (.unknownOption argument)
        else if draft.input?.isSome then .misuse .tooManyArguments
        else readArgs { draft with input? := some argument } rest

/-- Reads a command line. -/
def parseArgs (arguments : List String) : Request := readArgs {} arguments

end CodeGraph.Cli
