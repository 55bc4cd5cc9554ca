/-
# The program

Hands the command line and the files it names to `Cli.run`, and writes what comes back.
-/
import CodeGraph.Cli.Run

namespace CodeGraph.Cli

/-- What a fault of the operating system says of the file. A code is given as it is or below zero. -/
def ioFault (fault : IO.Error) : IoFault :=
  match fault with
  | .permissionDenied .. => .accessDenied
  | .invalidArgument .. => .nameTooLong
  | .inappropriateType _ code _ =>
    if code = 20 || 0 - code = 20 then .notDirectory else .isDirectory
  | _ => .notFound

/-- The content of a file. -/
def loadFile (path : String) : IO (Except IoFault (List UInt8)) := do
  try
    let bytes ← IO.FS.readBinFile path
    return .ok bytes.data.toList
  catch fault =>
    return .error (ioFault fault)

/-- A seed from the operating system. -/
def throwSeed : IO UInt64 := do
  let bytes ← IO.getRandomBytes 8
  return bytes.data.foldl (fun seed byte => seed * 256 + byte.toUInt64) 0

/-- Runs the program on a command line and gives its exit code. -/
def perform (arguments : List String) : IO UInt32 := do
  let loaded ← (filesOf arguments).mapM fun path => do return (path, ← loadFile path)
  let files : Files := fun path => ((loaded.lookup path).getD (.error .notFound))
  let outcome := run arguments files (← throwSeed)
  let stdout ← IO.getStdout
  stdout.write ⟨outcome.stdout.toArray⟩
  stdout.flush
  IO.eprint outcome.stderr
  return UInt32.ofNat outcome.code

end CodeGraph.Cli

/-- The entry point. -/
def main (arguments : List String) : IO UInt32 := CodeGraph.Cli.perform arguments
