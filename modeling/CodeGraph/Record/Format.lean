/-
# The JSON form of records

A record is one object on one line, with all its fields in a fixed order; an edge is an array of
four. Positions have 64 bits and codes have 8.
-/
import CodeGraph.Json.Shape
import CodeGraph.Record.Basic

namespace CodeGraph

/-! ## Writing -/

/-- The written form of an edge. -/
def RecordEdge.toJson (edge : RecordEdge) : List Char :=
  Json.encodeList [
    Json.encodeNat edge.source,
    Json.encodeNat edge.target,
    Json.encodeNat edge.code,
    Json.encodeText edge.name]

/-- The written form of a record. -/
def TrainingRecord.toJson (record : TrainingRecord) : List Char :=
  Json.encodeObject [
    ("source_tokens", Json.encodeList (record.sourceTokens.map Json.encodeText)),
    ("edges", Json.encodeList (record.edges.map RecordEdge.toJson)),
    ("has_bug", Json.encodeBool record.hasBug),
    ("bug_kind", Json.encodeNat record.bugKind),
    ("bug_kind_name", Json.encodeText record.bugKindName),
    ("error_location", Json.encodeNat record.errorLocation),
    ("repair_targets", Json.encodeList (record.repairTargets.map Json.encodeNat)),
    ("repair_candidates", Json.encodeList (record.repairCandidates.map Json.encodeNat))]

/-! ## Reading edges -/

/-- Reads a position. -/
def readPosition : Json.Reader Nat := Json.readNatural "usize" UInt64.size

/-- Reads a code. -/
def readCode : Json.Reader Nat := Json.readNatural "u8" UInt8.size

/-- An edge as far as it has been read. -/
structure EdgeDraft where
  source? : Option Nat := none
  target? : Option Nat := none
  code? : Option Nat := none
  name? : Option String := none

/-- How an edge is read. -/
def edgeShape : Json.Shape EdgeDraft RecordEdge where
  title := "tuple struct RecordEdge"
  fields := [
    { name := "source"
      isGiven := fun draft => draft.source?.isSome
      read := fun draft cs => do
        let (source, rest) ← readPosition cs
        return ({ draft with source? := some source }, rest) },
    { name := "target"
      isGiven := fun draft => draft.target?.isSome
      read := fun draft cs => do
        let (target, rest) ← readPosition cs
        return ({ draft with target? := some target }, rest) },
    { name := "code"
      isGiven := fun draft => draft.code?.isSome
      read := fun draft cs => do
        let (code, rest) ← readCode cs
        return ({ draft with code? := some code }, rest) },
    { name := "name"
      isGiven := fun draft => draft.name?.isSome
      read := fun draft cs => do
        let (name, rest) ← Json.readText cs
        return ({ draft with name? := some name }, rest) }]
  blank := {}
  finish
    | ⟨some source, some target, some code, some name⟩ => .ok { source, target, code, name }
    | ⟨none, _, _, _⟩ => .error "source"
    | ⟨_, none, _, _⟩ => .error "target"
    | ⟨_, _, none, _⟩ => .error "code"
    | ⟨_, _, _, none⟩ => .error "name"

/-! ## Reading records -/

/-- A record as far as it has been read. -/
structure RecordDraft where
  sourceTokens? : Option (List String) := none
  edges? : Option (List RecordEdge) := none
  hasBug? : Option Bool := none
  bugKind? : Option Nat := none
  bugKindName? : Option String := none
  errorLocation? : Option Nat := none
  repairTargets? : Option (List Nat) := none
  repairCandidates? : Option (List Nat) := none

/-- A field, or its name if it is missing. -/
def RecordDraft.require {α : Type} (name : String) (field? : Option α) : Except String α :=
  match field? with
  | some a => .ok a
  | none => .error name

/-- The record that has been read. -/
def RecordDraft.finish (draft : RecordDraft) : Except String TrainingRecord := do
  return {
    sourceTokens := ← require "source_tokens" draft.sourceTokens?
    edges := ← require "edges" draft.edges?
    hasBug := ← require "has_bug" draft.hasBug?
    bugKind := ← require "bug_kind" draft.bugKind?
    bugKindName := ← require "bug_kind_name" draft.bugKindName?
    errorLocation := ← require "error_location" draft.errorLocation?
    repairTargets := ← require "repair_targets" draft.repairTargets?
    repairCandidates := ← require "repair_candidates" draft.repairCandidates? }

/-- How a record is read. -/
def recordShape (fuel : Nat) : Json.Shape RecordDraft TrainingRecord where
  title := "struct TrainingRecord"
  fields := [
    { name := "source_tokens"
      isGiven := fun draft => draft.sourceTokens?.isSome
      read := fun draft cs => do
        let (sourceTokens, rest) ← Json.readList fuel Json.readText cs
        return ({ draft with sourceTokens? := some sourceTokens }, rest) },
    { name := "edges"
      isGiven := fun draft => draft.edges?.isSome
      read := fun draft cs => do
        let (edges, rest) ← Json.readList fuel edgeShape.readTuple cs
        return ({ draft with edges? := some edges }, rest) },
    { name := "has_bug"
      isGiven := fun draft => draft.hasBug?.isSome
      read := fun draft cs => do
        let (hasBug, rest) ← Json.readBool cs
        return ({ draft with hasBug? := some hasBug }, rest) },
    { name := "bug_kind"
      isGiven := fun draft => draft.bugKind?.isSome
      read := fun draft cs => do
        let (bugKind, rest) ← readCode cs
        return ({ draft with bugKind? := some bugKind }, rest) },
    { name := "bug_kind_name"
      isGiven := fun draft => draft.bugKindName?.isSome
      read := fun draft cs => do
        let (bugKindName, rest) ← Json.readText cs
        return ({ draft with bugKindName? := some bugKindName }, rest) },
    { name := "error_location"
      isGiven := fun draft => draft.errorLocation?.isSome
      read := fun draft cs => do
        let (errorLocation, rest) ← readPosition cs
        return ({ draft with errorLocation? := some errorLocation }, rest) },
    { name := "repair_targets"
      isGiven := fun draft => draft.repairTargets?.isSome
      read := fun draft cs => do
        let (repairTargets, rest) ← Json.readList fuel readPosition cs
        return ({ draft with repairTargets? := some repairTargets }, rest) },
    { name := "repair_candidates"
      isGiven := fun draft => draft.repairCandidates?.isSome
      read := fun draft cs => do
        let (repairCandidates, rest) ← Json.readList fuel readPosition cs
        return ({ draft with repairCandidates? := some repairCandidates }, rest) }]
  blank := {}
  finish := RecordDraft.finish

/-- Reads a text that holds a record. -/
def TrainingRecord.ofJson (cs : List Char) : Except Json.Failure TrainingRecord :=
  Json.readWhole (fun fuel => (recordShape fuel).read fuel) cs

end CodeGraph
