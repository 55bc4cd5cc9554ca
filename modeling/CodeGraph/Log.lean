/-
# Log lines

What the stages of the library report while they work. Lines are collected in order, next to the
result, and survive a fault.
-/
import CodeGraph.Fault

namespace CodeGraph

/-- How important a line is. -/
inductive LogLevel
  | debug
  | trace
  deriving DecidableEq, Repr

/-- The stage that a line comes from. -/
inductive LogTopic
  | driver
  | method
  | builder
  | walker
  | mutation
  | dataset
  deriving DecidableEq, Repr

/-- One line of the log. -/
structure LogLine where
  level : LogLevel
  topic : LogTopic
  message : String
  deriving DecidableEq, Repr

/-- The name of a level in the log. -/
def LogLevel.name : LogLevel → String
  | debug => "DEBUG"
  | trace => "TRACE"

/-- The path of a topic in the log. -/
def LogTopic.path : LogTopic → String
  | driver => "prograph::ast::driver"
  | method => "prograph::builder::method"
  | builder => "prograph::builder::class"
  | walker => "prograph::walker"
  | mutation => "prograph::mutation"
  | dataset => "prograph::dataset"

/-- A line as it is written. -/
def LogLine.text (line : LogLine) : String :=
  line.level.name ++ " " ++ line.topic.path ++ " " ++ line.message

/-- A debugging line. -/
def LogLine.debug (topic : LogTopic) (message : String) : LogLine := ⟨.debug, topic, message⟩

/-- A tracing line. -/
def LogLine.trace (topic : LogTopic) (message : String) : LogLine := ⟨.trace, topic, message⟩

/-- A computation that may fail and keeps its log either way. -/
abbrev Logged (α : Type) := ExceptT Fault (StateM (Array LogLine)) α

namespace Logged

/-- Adds a line to the log. -/
def note (line : LogLine) : Logged Unit := modifyThe (Array LogLine) (·.push line)

/-- Adds lines to the log. -/
def notes (lines : List LogLine) : Logged Unit := modifyThe (Array LogLine) (· ++ lines.toArray)

/-- The result and the log of a computation by itself. -/
def start {α : Type} (computation : Logged α) : Except Fault α × List LogLine :=
  let (result, lines) := (computation.run).run #[]
  (result, lines.toList)

/-- The result of a computation by itself. -/
def result {α : Type} (computation : Logged α) : Except Fault α := computation.start.1

end Logged

end CodeGraph
