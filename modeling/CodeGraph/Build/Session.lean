/-
# Building sessions

A session is a run of the building operations: classes are begun, methods are opened one at a time,
closed into numbered slots or abandoned, and the methods in the slots are added to the class. A step
that does not fit the stage of the session has no effect.
-/
import CodeGraph.Build.Cursor
import CodeGraph.Build.Linkage

namespace CodeGraph

/-- How far a session has come. -/
inductive Stage
  /-- There is no class. -/
  | idle
  /-- There is a class with no method open. -/
  | collecting (builder : ClassBuilder)
  /-- A method is open. -/
  | building (cursor : Cursor)
  deriving DecidableEq, Repr

/-- A building session: its stage and the methods closed so far. A close that fails takes a slot and
leaves it empty. -/
structure Session where
  stage : Stage := .idle
  slots : List (Option MethodGraph) := []
  deriving DecidableEq, Repr

namespace Session

/-- One step of a session. -/
inductive Step
  | beginClass (name : String)
  | openMethod (signature : String)
  | move (m : Cursor.Move)
  | close
  | abandon
  | add (slot : Nat)
  deriving DecidableEq, Repr

/-- What a step reports: why it failed, if it did, and what it logs. -/
structure Report where
  fault? : Option Fault := none
  log : List LogLine := []

/-- Makes a move with the cursor of the open method. -/
def moveStep (session : Session) (cursor : Cursor) (m : Cursor.Move) : Session × Report :=
  match cursor.move m with
  | .ok cursor => ({ session with stage := .building cursor }, {})
  | .error fault => (session, { fault? := some fault })

/-- Closes the open method. The class goes on in any case. -/
def closeStep (session : Session) (cursor : Cursor) : Session × Report :=
  let stage := Stage.collecting cursor.builder
  match cursor.close with
  | .ok method =>
    ({ stage, slots := session.slots ++ [some method] }, { log := [Cursor.closeLine method] })
  | .error fault => ({ stage, slots := session.slots ++ [none] }, { fault? := some fault })

/-- Adds the method in a slot to the class. -/
def addStep (session : Session) (builder : ClassBuilder) (slot : Nat) : Session × Report :=
  match session.slots[slot]? with
  | some (some method) =>
    ({ session with stage := .collecting (builder.add method) },
      { log := [builder.addLine method] })
  | _ => (session, {})

/-- Takes a step. -/
def step (session : Session) (s : Step) : Session × Report :=
  match s, session.stage with
  | .beginClass name, _ => ({ session with stage := .collecting { name } }, {})
  | .openMethod signature, .collecting builder =>
    ({ session with stage := .building (builder.openMethod signature) }, {})
  | .move m, .building cursor => session.moveStep cursor m
  | .close, .building cursor => session.closeStep cursor
  | .abandon, .building cursor => ({ session with stage := .collecting cursor.builder }, {})
  | .add slot, .collecting builder => session.addStep builder slot
  | _, _ => (session, {})

/-- The session of a class on which nothing has been done. -/
def start (name : String) : Session := { stage := .collecting { name } }

/-- Takes steps one after another. -/
def run (session : Session) (steps : List Step) : Session :=
  steps.foldl (fun session s => (session.step s).1) session

/-- The class as it stands. -/
def builder? (session : Session) : Option ClassBuilder :=
  match session.stage with
  | .idle => none
  | .collecting builder => some builder
  | .building cursor => some cursor.builder

/-- The cursor of the open method. -/
def cursor? (session : Session) : Option Cursor :=
  match session.stage with
  | .building cursor => some cursor
  | _ => none

/-- Finishes the class: its graph, the log, and the session without it. -/
def build? (session : Session) : Option (ClassGraph × List LogLine × Session) :=
  match session.stage with
  | .collecting builder =>
    some (builder.build, builder.buildLines, { session with stage := .idle })
  | _ => none

end Session

end CodeGraph
