/-
# Writing to a sink without an end

A sink that takes everything gets one line for each record, and no step fails
(`DatasetWriter.run_unbounded`).  Which records there are is in the reports: of a pair, the mutant is
written just when the report says so (`DatasetWriter.Step.records`).
-/
import CodeGraph.Dataset.Session
import CodeGraph.Proofs.Dataset.Sinks
import CodeGraph.Proofs.Text.Lines

namespace CodeGraph

/-! ## Lines of records -/

/-- The bytes of the line of a record. -/
def TrainingRecord.line (record : TrainingRecord) : List UInt8 :=
  Text.utf8 record.toJson ++ [Text.newlineByte]

theorem utf8_newline : Text.utf8 ['\n'] = [Text.newlineByte] := by
  decide

/-- The line of a record is its text and a line end. -/
theorem TrainingRecord.utf8_append_newline (record : TrainingRecord) :
    Text.utf8 (record.toJson ++ ['\n']) = record.line := by
  rw [Text.utf8_append, utf8_newline, line]

/-! ## Records -/

/-- The records that are written of a pair, whose mutant is kept or not. -/
def RecordPair.written (pair : RecordPair) (keep : Bool) : List TrainingRecord :=
  pair.correct :: if keep then [pair.buggy] else []

namespace DatasetWriter

/-- The writer when the lines of these records have been written. -/
def append (writer : DatasetWriter) (records : List TrainingRecord) : DatasetWriter :=
  { writer with
    sink := writer.sink.extend (records.flatMap TrainingRecord.line)
    written := writer.written + records.length }

@[simp] theorem append_sampler (writer : DatasetWriter) (records : List TrainingRecord) :
    (writer.append records).sampler = writer.sampler := rfl

@[simp] theorem append_capacity (writer : DatasetWriter) (records : List TrainingRecord) :
    (writer.append records).sink.capacity? = writer.sink.capacity? := rfl

/-- Each of the records is counted as a line. -/
@[simp] theorem append_written (writer : DatasetWriter) (records : List TrainingRecord) :
    (writer.append records).written = writer.written + records.length := rfl

/-- The lines of the records come behind what is held. -/
@[simp] theorem append_bytes (writer : DatasetWriter) (records : List TrainingRecord) :
    (writer.append records).sink.bytes.toList =
      writer.sink.bytes.toList ++ records.flatMap TrainingRecord.line := by
  rw [append, Sink.extend_bytes]

@[simp] theorem append_size (writer : DatasetWriter) (records : List TrainingRecord) :
    (writer.append records).sink.bytes.size =
      writer.sink.bytes.size + (records.flatMap TrainingRecord.line).length := by
  rw [append, Sink.extend_size]

@[simp] theorem append_nil (writer : DatasetWriter) : writer.append [] = writer := by
  simp [append]

/-- Lines can be added at once or one after another. -/
theorem append_append (writer : DatasetWriter) (records later : List TrainingRecord) :
    (writer.append records).append later = writer.append (records ++ later) := by
  simp [append, Nat.add_assoc]

/-- A record is written whole. -/
theorem writeRecord_unbounded {writer : DatasetWriter} (h : writer.sink.capacity? = none)
    (record : TrainingRecord) : writer.writeRecord record = (writer.append [record], .ok ()) := by
  have htext : (writer.sink.extend (Text.utf8 record.toJson)).capacity? = none := h
  simp [writeRecord, Sink.putText, Sink.put_unbounded h, Sink.put_unbounded htext, utf8_newline,
    append, TrainingRecord.line]

/-! ## Steps -/

/-- The step did what it was to do. -/
def Report.succeeded (report : Report) : Bool := report.result.isOk

/-- The records that a step is given. -/
def Step.given : Step → List TrainingRecord
  | .record single => [single]
  | .pair both => [both.correct, both.buggy]
  | .flush => []

/-- The records that a step writes that comes to this result. -/
def Step.records (result : Except Fault (Option Bool)) : Step → List TrainingRecord
  | .record single => [single]
  | .pair both =>
    match result with
    | .ok (some true) => [both.correct, both.buggy]
    | _ => [both.correct]
  | .flush => []

/-- The records of a pair are the correct one and the mutant if it is kept. -/
theorem Step.records_pair (pair : RecordPair) (keep : Bool) :
    (Step.pair pair).records (.ok (some keep)) = pair.written keep := by
  cases keep with
  | false => rfl
  | true => rfl

/-- Of a pair whose mutant is not kept, the correct record is written. -/
theorem Step.records_left (pair : RecordPair) :
    (Step.pair pair).records (.ok (some false)) = [pair.correct] := rfl

/-- The records that steps write that report this. -/
def recordsOf (steps : List Step) (reports : List Report) : List TrainingRecord :=
  (List.zipWith (fun step report => step.records report.result) steps reports).flatten

/-- A step writes nothing but what it is given. -/
theorem Step.mem_given {step : Step} {result : Except Fault (Option Bool)} {record : TrainingRecord}
    (h : record ∈ step.records result) : record ∈ step.given := by
  cases step with
  | record single => exact h
  | pair both =>
    simp only [Step.records] at h
    split at h
    · exact h
    · exact List.mem_cons.mpr (Or.inl (List.mem_singleton.mp h))
  | flush => exact h

/-- All that is written has been given. -/
theorem exists_given_of_mem_recordsOf {steps : List Step} {reports : List Report}
    {record : TrainingRecord} (h : record ∈ recordsOf steps reports) :
    ∃ step ∈ steps, record ∈ step.given := by
  induction steps generalizing reports with
  | nil => cases h
  | cons step steps ih =>
    cases reports with
    | nil => cases h
    | cons report reports =>
      rw [recordsOf, List.zipWith_cons_cons, List.flatten_cons, List.mem_append] at h
      rcases h with hfirst | hlater
      · exact ⟨step, List.mem_cons_self, Step.mem_given hfirst⟩
      · obtain ⟨later, hmem, hgiven⟩ := ih hlater
        exact ⟨later, List.mem_cons_of_mem _ hmem, hgiven⟩

section Sessions

variable {writer : DatasetWriter}

/-- A pair is written as the sampler decides. -/
theorem writePair_unbounded (h : writer.sink.capacity? = none) {dice dice' : Dice} {keep : Bool}
    (hkeep : writer.sampler.keepBuggy dice = (keep, dice')) (pair : RecordPair) :
    writer.writePair pair dice = (writer.append (pair.written keep), dice', .ok keep) := by
  rw [writePair, writeRecord_unbounded h]
  dsimp only
  rw [append_sampler, hkeep]
  cases keep with
  | false => rfl
  | true =>
    dsimp only
    rw [writeRecord_unbounded, append_append]
    · rfl
    · rw [append_capacity, h]

/-- **A step on a sink without an end** writes its records and does not fail. -/
theorem step_unbounded (h : writer.sink.capacity? = none) (dice : Dice) (step : Step) :
    ∃ keep? dice', writer.step dice step =
      (writer.append (step.records (.ok keep?)), dice', .ok keep?) := by
  cases step with
  | record record =>
    refine ⟨none, dice, ?_⟩
    rw [DatasetWriter.step, writeRecord_unbounded h]
    rfl
  | pair pair =>
    rcases hkeep : writer.sampler.keepBuggy dice with ⟨keep, dice'⟩
    refine ⟨some keep, dice', ?_⟩
    rw [DatasetWriter.step, writePair_unbounded h hkeep, Step.records_pair]
    rfl
  | flush =>
    refine ⟨none, dice, ?_⟩
    rw [Step.records, append_nil]
    rfl

/-- **A session on a sink without an end** writes all its records, and no step fails. -/
theorem run_unbounded (h : writer.sink.capacity? = none) (dice : Dice) (steps : List Step) :
    (writer.run dice steps).1 = writer.append (recordsOf steps (writer.run dice steps).2.2) ∧
      (∀ report ∈ (writer.run dice steps).2.2, report.succeeded = true) := by
  induction steps generalizing writer dice with
  | nil =>
    rw [run, recordsOf, List.zipWith_nil_left, List.flatten_nil, append_nil]
    exact ⟨rfl, nofun⟩
  | cons step steps ih =>
    obtain ⟨keep?, dice', hstep⟩ := step_unbounded h dice step
    have hnext : (writer.append (step.records (.ok keep?))).sink.capacity? = none := by
      rw [append_capacity, h]
    obtain ⟨hwriter, hreports⟩ := ih hnext dice'
    rw [run, hstep]
    dsimp only
    constructor
    · rw [hwriter, append_append]
      rfl
    · intro report hreport
      rcases List.mem_cons.mp hreport with rfl | hlater
      · rfl
      · exact hreports report hlater

end Sessions

end DatasetWriter

end CodeGraph
