/-
# Reading a data set

What has been written on a sink without an end is a text with a record on each line, and the reader
finds on the lines the records that were written, in order
(`DatasetWriter.jsonLines_run`).
-/
import CodeGraph.Proofs.Dataset.Unbounded
import CodeGraph.Proofs.Record.ReadBack

namespace CodeGraph

/-- The text holds the records, one on each line. -/
structure JsonLines (text : String) (records : List TrainingRecord) : Prop where
  ends_line : text.toList ≠ [] → text.toList.getLast? = some '\n'
  lines : ∃ lines, text.toList.splitOn '\n' = lines ++ [[]] ∧
    lines.map TrainingRecord.ofJson = records.map .ok

/-- The text of the lines of records. -/
def linesOf (records : List TrainingRecord) : List Char :=
  (records.map TrainingRecord.toJson).flatMap (· ++ ['\n'])

/-- The bytes of the lines are those of each line. -/
theorem utf8_linesOf (records : List TrainingRecord) :
    Text.utf8 (linesOf records) = records.flatMap TrainingRecord.line := by
  induction records with
  | nil => rfl
  | cons record records ih =>
    rw [linesOf, List.map_cons, List.flatMap_cons, Text.utf8_append, ← linesOf, ih,
      TrainingRecord.utf8_append_newline, List.flatMap_cons]

/-- **Records that fit are read back from their lines.** -/
theorem jsonLines_linesOf {records : List TrainingRecord} (h : ∀ record ∈ records, record.Fits) :
    JsonLines (String.ofList (linesOf records)) records where
  ends_line hne := by
    rw [String.toList_ofList] at hne ⊢
    rcases List.eq_nil_or_concat records with rfl | ⟨before, record, rfl⟩
    · exact absurd rfl hne
    · simp [linesOf]
  lines := by
    refine ⟨records.map TrainingRecord.toJson, ?_, ?_⟩
    · rw [String.toList_ofList, linesOf]
      refine Text.splitOn_flatMap ?_
      intro line hline
      obtain ⟨record, -, rfl⟩ := List.mem_map.mp hline
      exact record.newline_not_mem_toJson
    · rw [List.map_map]
      refine List.map_congr_left ?_
      intro record hrecord
      exact (h record hrecord).ofJson_eq

namespace DatasetWriter

/-- **A data set is read back.**  Whatever the sampler, the dice and the steps are, if the records
that the steps are given fit, then the bytes on a sink without an end are a text that holds, one on
each line and in order, the record of each record step, and of each pair step the correct record and
behind it the mutant if the step reports that it has been written.  There are as many lines as the
writer counts, and no step fails. -/
theorem jsonLines_run (sampler : Sampler) (dice : Dice) (steps : List Step)
    (hfits : ∀ step ∈ steps, ∀ record ∈ step.given, record.Fits) :
    ∃ text,
      String.fromUTF8? ⟨(run { sampler } dice steps).1.sink.bytes⟩ = some text ∧
      JsonLines text (recordsOf steps (run { sampler } dice steps).2.2) ∧
      (run { sampler } dice steps).1.written =
        (recordsOf steps (run { sampler } dice steps).2.2).length ∧
      ∀ report ∈ (run { sampler } dice steps).2.2, report.succeeded = true := by
  have hempty : ({ sampler } : DatasetWriter).sink.capacity? = none := rfl
  obtain ⟨hwriter, hreports⟩ := run_unbounded hempty dice steps
  have hrecords : ∀ record ∈ recordsOf steps (run { sampler } dice steps).2.2, record.Fits := by
    intro record hrecord
    obtain ⟨step, hstep, hgiven⟩ := exists_given_of_mem_recordsOf hrecord
    exact hfits step hstep record hgiven
  have hbytes : (run { sampler } dice steps).1.sink.bytes =
      (Text.utf8 (linesOf (recordsOf steps (run { sampler } dice steps).2.2))).toArray := by
    have hlist := append_bytes { sampler } (recordsOf steps (run { sampler } dice steps).2.2)
    rw [← hwriter] at hlist
    rw [utf8_linesOf]
    exact Array.toList_inj.mp hlist
  refine ⟨_, ?_, jsonLines_linesOf hrecords, ?_, hreports⟩
  · rw [hbytes, Text.fromUTF8?_utf8]
  · have hwritten := congrArg DatasetWriter.written hwriter
    rw [append_written] at hwritten
    exact hwritten.trans (Nat.zero_add _)

/-- A record whose labels and names are full of what JSON escapes. -/
def oddRecord : TrainingRecord :=
  { sourceTokens := ["<", "a\"b\\c", "line\nend\r\t", "\x00\x1f", "é😀"]
    edges := [⟨0, 18446744073709551615, 255, "\"\n\""⟩]
    hasBug := false
    bugKind := 255
    bugKindName := "\\"
    errorLocation := 18446744073709551615
    repairTargets := []
    repairCandidates := [0, 18446744073709551615] }

theorem oddRecord_fits : oddRecord.Fits where
  edges edge hedge := by
    rw [List.mem_singleton.mp hedge]
    exact ⟨by decide, by decide, by decide⟩
  bugKind := by decide
  errorLocation := by decide
  repairTargets := nofun
  repairCandidates := by decide

/-- A session in which all of these characters are written. -/
def oddSteps : List Step :=
  [.record oddRecord, .flush, .pair ⟨oddRecord, oddRecord.markBug .offByOne 0⟩]

/-- The records of these steps can be read back. -/
theorem oddSteps_fit : ∀ step ∈ oddSteps, ∀ record ∈ step.given, record.Fits := by
  have hmark : (oddRecord.markBug .offByOne 0).Fits :=
    ⟨oddRecord_fits.edges, by decide, by decide, by decide, oddRecord_fits.repairCandidates⟩
  intro step hstep record hrecord
  simp only [oddSteps, List.mem_cons, List.not_mem_nil, or_false] at hstep
  rcases hstep with rfl | rfl | rfl
  · rw [List.mem_singleton.mp hrecord]
    exact oddRecord_fits
  · cases hrecord
  · simp only [Step.given, List.mem_cons, List.not_mem_nil, or_false] at hrecord
    rcases hrecord with rfl | rfl
    · exact oddRecord_fits
    · exact hmark

/-- What is escaped on a line is found there again. -/
theorem jsonLines_run_odd : ∃ text,
    String.fromUTF8? ⟨(run { sampler := .keepAll } (Dice.cycling [7]) oddSteps).1.sink.bytes⟩ =
      some text ∧
    JsonLines text [oddRecord, oddRecord, oddRecord.markBug .offByOne 0] := by
  obtain ⟨text, htext, hlines, -, -⟩ :=
    jsonLines_run .keepAll (Dice.cycling [7]) oddSteps oddSteps_fit
  exact ⟨text, htext, hlines⟩

end DatasetWriter

end CodeGraph
