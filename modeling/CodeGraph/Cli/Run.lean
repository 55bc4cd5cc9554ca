/-
# Running a command line

What the program writes and the code it ends with, as a function of the command line, the files and
the seed that chance gives.
-/
import CodeGraph.Build.OfTree
import CodeGraph.Cli.Args
import CodeGraph.Config
import CodeGraph.Dataset.VocabularyDump
import CodeGraph.Dataset.Writer
import CodeGraph.Tree.Format
import CodeGraph.Walk.Dot

namespace CodeGraph.Cli

/-! ## Texts -/

/-- The lines of the help text. -/
def helpLines : List String := [
  "",
  "prograph - program graphs for ML on source code",
  "",
  "USAGE:",
  "    prograph [MODE] [--config FILE] <tree.json>",
  "    prograph --help, -h       Show this help",
  "    prograph --version, -v    Show version",
  "",
  "MODES:",
  "    --dot         Graphviz DOT of the class graph (default)",
  "    --records     One training record per method, JSON lines",
  "    --pairs       Correct records with sampled off-by-one mutants, JSON lines",
  "    --vocab       Token, symbol, sub-word and node label vocabulary",
  "",
  "CONFIG (JSON, all fields optional):",
  "    \x7b\"buggy_per_hundred\": 10, \"balanced\": false, " ++
    "\"seed\": 42, \"skip_empty_records\": true\x7d",
  "",
  "Logging is controlled by RUST_LOG, e.g. RUST_LOG=prograph=debug.",
  ""]

/-- The help text. -/
def helpText : String := "\n".intercalate helpLines

/-- The line that tells the version. -/
def versionText : String := "prograph 1.0.0"

/-! ## Results -/

/-- What a run of the program leaves. -/
structure Outcome where
  code : Nat := 0
  stdout : List UInt8 := []
  stderr : String := ""
  deriving DecidableEq

/-- A run that writes a text. -/
def Outcome.ofText (text : String) : Outcome := { stdout := Text.utf8 text.toList }

/-- A run that fails. -/
def Outcome.ofError (message : String) : Outcome := { code := 1, stderr := message }

/-! ## Jobs -/

/-- The files, by name. -/
abbrev Files := String → Except IoFault (List UInt8)

/-- The text of a file. -/
def readFile (files : Files) (path : String) : Except Fault (List Char) := do
  let bytes ← (files path).mapError Fault.io
  match String.fromUTF8? ⟨bytes.toArray⟩ with
  | some text => return text.toList
  | none => throw (.io .notUtf8)

/-- The settings of a job. -/
def readConfig (files : Files) (config? : Option String) : Except Fault GeneratorConfig :=
  match config? with
  | some path => readFile files path >>= GeneratorConfig.ofJson
  | none => .ok {}

/-- Reads a tree. -/
def readTree (files : Files) (path : String) : Except Fault Tree := do
  let text ← readFile files path
  (Tree.ofJson text).mapError (Fault.ofFailure text)

/-- What a job writes of a graph; `none` if the graph cannot be walked. -/
def output? (mode : Mode) (config : GeneratorConfig) (chance : UInt64) (graph : ClassGraph) :
    Option Sink :=
  match mode with
  | .dot => do
    let (events, _) ← (graph.walk .fresh).toOption
    return (({} : Sink).putText (Dot.render events)).1
  | .records => do
    let records ← graph.records?
    let writer : DatasetWriter := { sampler := config.sampler }
    return (writer.writeRecords records).sink
  | .pairs => do
    let (pairs, _, dice) ← graph.recordPairs? config.mutator (config.dice chance)
    let writer : DatasetWriter := { sampler := config.sampler }
    return (writer.writePairs dice pairs).1.sink
  | .vocab => some (graph.writeVocabulary {}).1

/-- Does a job: the bytes it writes. A tree without a class leaves nothing to write. -/
def runJob (job : Job) (files : Files) (chance : UInt64) : Except Fault (List UInt8) := do
  let config ← readConfig files job.config?
  let tree ← readTree files job.input
  match ← tree.classGraph? with
  | none => return []
  | some graph =>
    return ((output? job.mode config chance graph).map (·.bytes.toList)).getD []

/-- Runs a command line. -/
def run (arguments : List String) (files : Files) (chance : UInt64) : Outcome :=
  match parseArgs arguments with
  | .help => .ofText (helpText ++ "\n")
  | .version => .ofText (versionText ++ "\n")
  | .misuse fault => .ofError (fault.message ++ "\nUse --help for usage information.\n")
  | .run job =>
    match runJob job files chance with
    | .ok stdout => { stdout }
    | .error fault => .ofError ("Error: " ++ fault.fullMessage ++ "\n")

/-- The files that a command line makes the program look at, in order. -/
def filesOf (arguments : List String) : List String :=
  match parseArgs arguments with
  | .run job => job.config?.toList ++ [job.input]
  | _ => []

end CodeGraph.Cli
