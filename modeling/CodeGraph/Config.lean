/-
# Settings of the generator

The settings are read from a JSON object, or an array, whose fields may all be left out.
-/
import CodeGraph.Dataset.Mutation
import CodeGraph.Json.Shape
import CodeGraph.Json.Write
import CodeGraph.Random.ChaCha

namespace CodeGraph

/-- The settings under which a data set is made. -/
structure GeneratorConfig where
  /-- How many mutants in a hundred are kept. -/
  buggyPerHundred : Nat := 10
  /-- All mutants are kept. -/
  balanced : Bool := false
  /-- The seed of the dice; without it they are thrown for real. -/
  seed : Option Nat := none
  /-- Methods without edges get no pairs. -/
  skipEmptyRecords : Bool := true
  deriving DecidableEq, Repr

/-! ## Reading -/

/-- Settings as far as they have been read. -/
structure ConfigDraft where
  buggyPerHundred? : Option Nat := none
  balanced? : Option Bool := none
  seed? : Option (Option Nat) := none
  skipEmptyRecords? : Option Bool := none

/-- How settings are read. -/
def configShape : Json.Shape ConfigDraft GeneratorConfig where
  title := "struct GeneratorConfig"
  fields := [
    { name := "buggy_per_hundred"
      isGiven := fun draft => draft.buggyPerHundred?.isSome
      read := fun draft cs => do
        let (n, rest) ← Json.readNatural "u32" UInt32.size cs
        return ({ draft with buggyPerHundred? := some n }, rest) },
    { name := "balanced"
      isGiven := fun draft => draft.balanced?.isSome
      read := fun draft cs => do
        let (balanced, rest) ← Json.readBool cs
        return ({ draft with balanced? := some balanced }, rest) },
    { name := "seed"
      isGiven := fun draft => draft.seed?.isSome
      read := fun draft cs => do
        let (seed, rest) ← Json.readOptional (Json.readNatural "u64" UInt64.size) cs
        return ({ draft with seed? := some seed }, rest) },
    { name := "skip_empty_records"
      isGiven := fun draft => draft.skipEmptyRecords?.isSome
      read := fun draft cs => do
        let (skip, rest) ← Json.readBool cs
        return ({ draft with skipEmptyRecords? := some skip }, rest) }]
  blank := {}
  finish draft :=
    let standard : GeneratorConfig := {}
    .ok {
      buggyPerHundred := draft.buggyPerHundred?.getD standard.buggyPerHundred
      balanced := draft.balanced?.getD standard.balanced
      seed := draft.seed?.getD standard.seed
      skipEmptyRecords := draft.skipEmptyRecords?.getD standard.skipEmptyRecords }

namespace GeneratorConfig

/-- No more than all mutants can be kept. -/
def validate (config : GeneratorConfig) : Except Fault Unit :=
  if config.buggyPerHundred ≤ 100 then .ok ()
  else
    .error (.config
      ("buggy_per_hundred must be at most 100, got " ++ toString config.buggyPerHundred))

/-- Reads settings and checks them. -/
def ofJson (cs : List Char) : Except Fault GeneratorConfig := do
  let config ← (Json.readWhole (fun fuel => configShape.read fuel) cs).mapError (Fault.ofFailure cs)
  config.validate
  return config

/-! ## Use -/

/-- The sampler of the settings. -/
def sampler (config : GeneratorConfig) : Sampler :=
  { buggyPerHundred := config.buggyPerHundred, balanced := config.balanced }

/-- The mutator of the settings. -/
def mutator (config : GeneratorConfig) : Mutator :=
  { skipEmptyRecords := config.skipEmptyRecords }

/-- The dice of the settings. Settings without a seed take the one that chance gives. -/
def dice (config : GeneratorConfig) (chance : UInt64) : Dice :=
  match config.seed with
  | some seed => .ofSeed (UInt64.ofNat seed)
  | none => .ofSeed chance

/-- The written form of settings. -/
def toJson (config : GeneratorConfig) : List Char :=
  Json.encodeObject [
    ("buggy_per_hundred", Json.encodeNat config.buggyPerHundred),
    ("balanced", Json.encodeBool config.balanced),
    ("seed", match config.seed with
      | some seed => Json.encodeNat seed
      | none => "null".toList),
    ("skip_empty_records", Json.encodeBool config.skipEmptyRecords)]

end GeneratorConfig

end CodeGraph
