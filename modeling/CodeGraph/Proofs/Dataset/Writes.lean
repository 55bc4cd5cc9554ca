/-
# What the writing of records can do

A record is written whole, or its text is cut, or all of it is taken but its line end
(`DatasetWriter.writeRecord_cases`); of a pair, the correct record comes first
(`DatasetWriter.writePair_cases`).  So the writer counts the line ends in its sink, whatever sink it
is (`DatasetWriter.Counts.run`), and nothing is drawn for a pair before its correct record is written
(`DatasetWriter.isPrefix_of_draws`).
-/
import CodeGraph.Proofs.Dataset.Unbounded
import CodeGraph.Proofs.Record.ReadBack

namespace CodeGraph

open Text (newlineByte)

/-! ## Lines -/

namespace TrainingRecord

/-- There is no line end in the text of a record. -/
theorem newlineByte_not_mem_utf8 (record : TrainingRecord) : newlineByte ∉ Text.utf8 record.toJson :=
  Text.newlineByte_not_mem_utf8 record.newline_not_mem_toJson

/-- The text of a record is not empty. -/
theorem utf8_toJson_ne_nil (record : TrainingRecord) : Text.utf8 record.toJson ≠ [] := by
  rw [toJson_eq, Json.encodeObject_eq, Text.utf8_cons]
  exact List.append_ne_nil_of_left_ne_nil (by decide) _

/-- A line is longer than its text by the line end. -/
theorem length_line (record : TrainingRecord) :
    record.line.length = (Text.utf8 record.toJson).length + 1 := by
  rw [line, List.length_append, List.length_singleton]

/-- There is one line end in a line. -/
theorem count_line (record : TrainingRecord) : record.line.count newlineByte = 1 := by
  rw [line, List.count_append, List.count_eq_zero_of_not_mem record.newlineByte_not_mem_utf8,
    List.count_singleton_self]

end TrainingRecord

namespace DatasetWriter

/-! ## What a write can do -/

/-- The writer when only a part of a line has been taken. -/
def takePart (writer : DatasetWriter) (bytes : List UInt8) : DatasetWriter :=
  { writer with sink := writer.sink.extend bytes }

/-- **The ways in which the writing of a record can end**: its text is cut, or all but its line end
is taken, or the line is written whole. -/
theorem writeRecord_cases (writer : DatasetWriter) (record : TrainingRecord) :
    (∃ n < (Text.utf8 record.toJson).length, writer.writeRecord record =
      (writer.takePart ((Text.utf8 record.toJson).take n), .error (.json .sinkFull))) ∨
    writer.writeRecord record =
      (writer.takePart (Text.utf8 record.toJson), .error (.io .sinkFull)) ∨
    writer.writeRecord record = (writer.append [record], .ok ()) := by
  rcases writer.sink.put_cases (Text.utf8 record.toJson) with hjson | ⟨n, hn, hjson⟩
  · rcases (writer.sink.extend (Text.utf8 record.toJson)).put_cases [newlineByte] with
      hend | ⟨n, hn, hend⟩
    · refine Or.inr (Or.inr ?_)
      simp [writeRecord, Sink.putText, utf8_newline, hjson, hend, append, TrainingRecord.line]
    · refine Or.inr (Or.inl ?_)
      obtain rfl : n = 0 := Nat.lt_one_iff.mp hn
      simp [writeRecord, Sink.putText, utf8_newline, hjson, hend, takePart]
  · refine Or.inl ⟨n, hn, ?_⟩
    simp [writeRecord, Sink.putText, hjson, takePart]

/-- **The ways in which the writing of a pair can end**: the correct record fails and nothing is
drawn, or it is written whole and the sampler decides whether its mutant is written, too. -/
theorem writePair_cases (writer : DatasetWriter) (pair : RecordPair) (dice : Dice) :
    (∃ next fault, writer.writeRecord pair.correct = (next, .error fault) ∧
      writer.writePair pair dice = (next, dice, .error fault)) ∨
    writer.writeRecord pair.correct = (writer.append [pair.correct], .ok ()) ∧
      ((∃ dice', writer.sampler.keepBuggy dice = (false, dice') ∧
        writer.writePair pair dice = (writer.append [pair.correct], dice', .ok false)) ∨
      ∃ dice', writer.sampler.keepBuggy dice = (true, dice') ∧
        writer.writePair pair dice =
          (((writer.append [pair.correct]).writeRecord pair.buggy).1, dice',
            ((writer.append [pair.correct]).writeRecord pair.buggy).2.map fun _ => true)) := by
  have hfails : ∀ next fault, writer.writeRecord pair.correct = (next, .error fault) →
      writer.writePair pair dice = (next, dice, .error fault) := by
    intro next fault hwrite
    rw [writePair, hwrite]
  rcases writer.writeRecord_cases pair.correct with ⟨n, -, hwrite⟩ | hwrite | hwrite
  · exact Or.inl ⟨_, _, hwrite, hfails _ _ hwrite⟩
  · exact Or.inl ⟨_, _, hwrite, hfails _ _ hwrite⟩
  · refine Or.inr ⟨hwrite, ?_⟩
    rcases hkeep : writer.sampler.keepBuggy dice with ⟨keep, dice'⟩
    rw [writePair, hwrite]
    dsimp only
    rw [append_sampler, hkeep]
    cases keep with
    | false => exact Or.inl ⟨dice', rfl, rfl⟩
    | true =>
      refine Or.inr ⟨dice', rfl, ?_⟩
      rcases (writer.append [pair.correct]).writeRecord pair.buggy with ⟨last, fault | done⟩ <;> rfl

/-! ## Counting lines -/

/-- The writer counts the line ends in its sink. -/
def Counts (writer : DatasetWriter) : Prop :=
  writer.written = writer.sink.bytes.toList.count newlineByte

section Counting

variable {writer : DatasetWriter}

theorem Counts.takePart (h : writer.Counts) {bytes : List UInt8} (hbytes : newlineByte ∉ bytes) :
    (writer.takePart bytes).Counts := by
  rw [Counts, DatasetWriter.takePart, Sink.extend_bytes, List.count_append,
    List.count_eq_zero_of_not_mem hbytes]
  exact h

theorem Counts.append (h : writer.Counts) (record : TrainingRecord) :
    (writer.append [record]).Counts := by
  rw [Counts, append_written, append_bytes, List.flatMap_singleton, List.count_append,
    record.count_line, ← h]
  rfl

/-- Writing a record keeps the count. -/
theorem Counts.writeRecord (h : writer.Counts) (record : TrainingRecord) :
    (writer.writeRecord record).1.Counts := by
  -- a line that is not written whole lacks its only line end
  have hnone := record.newlineByte_not_mem_utf8
  rcases writer.writeRecord_cases record with ⟨n, -, hwrite⟩ | hwrite | hwrite
  · rw [hwrite]
    exact h.takePart fun hmem => hnone (List.mem_of_mem_take hmem)
  · rw [hwrite]
    exact h.takePart hnone
  · rw [hwrite]
    exact h.append record

theorem Counts.writePair (h : writer.Counts) (pair : RecordPair) (dice : Dice) :
    (writer.writePair pair dice).1.Counts := by
  have hcorrect := h.writeRecord pair.correct
  rcases writer.writePair_cases pair dice with
    ⟨next, fault, hwrite, hpair⟩ | ⟨hwrite, ⟨dice', -, hpair⟩ | ⟨dice', -, hpair⟩⟩
  · rw [hwrite] at hcorrect
    rw [hpair]
    exact hcorrect
  · rw [hpair]
    exact h.append pair.correct
  · rw [hpair]
    exact (h.append pair.correct).writeRecord pair.buggy

theorem Counts.step (h : writer.Counts) (dice : Dice) (step : Step) :
    (writer.step dice step).1.Counts := by
  cases step with
  | record record => exact h.writeRecord record
  | pair pair => exact h.writePair pair dice
  | flush => exact h

/-- **The writer counts the line ends in its sink**, whatever sink it is. -/
theorem Counts.run (h : writer.Counts) (dice : Dice) (steps : List Step) :
    (writer.run dice steps).1.Counts := by
  induction steps generalizing writer dice with
  | nil => exact h
  | cons step steps ih => exact ih (h.step dice step) _

end Counting

/-! ## Drawing -/

theorem isPrefix_append (writer : DatasetWriter) (records : List TrainingRecord) :
    writer.sink.bytes.toList <+: (writer.append records).sink.bytes.toList := by
  rw [append_bytes]
  exact List.prefix_append _ _

/-- Nothing that has been written is taken back. -/
theorem isPrefix_writeRecord (writer : DatasetWriter) (record : TrainingRecord) :
    writer.sink.bytes.toList <+: (writer.writeRecord record).1.sink.bytes.toList := by
  rcases writer.writeRecord_cases record with ⟨n, -, hwrite⟩ | hwrite | hwrite
  · rw [hwrite, takePart, Sink.extend_bytes]
    exact List.prefix_append _ _
  · rw [hwrite, takePart, Sink.extend_bytes]
    exact List.prefix_append _ _
  · rw [hwrite]
    exact writer.isPrefix_append [record]

/-- **Nothing is drawn for a pair before the line of its correct record has been written whole.** -/
theorem isPrefix_of_draws {writer : DatasetWriter} {pair : RecordPair} {dice : Dice}
    (h : (writer.writePair pair dice).2.1.drawn ≠ dice.drawn) :
    writer.sink.bytes.toList ++ pair.correct.line <+:
      (writer.writePair pair dice).1.sink.bytes.toList := by
  have hline : writer.sink.bytes.toList ++ pair.correct.line =
      (writer.append [pair.correct]).sink.bytes.toList := by
    rw [append_bytes, List.flatMap_singleton]
  rcases writer.writePair_cases pair dice with
    ⟨next, fault, hwrite, hpair⟩ | ⟨hwrite, ⟨dice', -, hpair⟩ | ⟨dice', -, hpair⟩⟩
  · rw [hpair] at h
    exact absurd rfl h
  · rw [hpair, hline]
  · rw [hpair, hline]
    exact isPrefix_writeRecord _ pair.buggy

end DatasetWriter

end CodeGraph
