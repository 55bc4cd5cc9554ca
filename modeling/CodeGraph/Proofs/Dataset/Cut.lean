/-
# Writing to a sink that gets full

A session is run on a sink that takes `c` bytes and on one that takes everything.  The first holds
the first `c` bytes of what the second holds, and up to the step in which it gets full nothing else
is different; behind that step nothing is written or drawn any more (`DatasetWriter.cutsOnly`).

The text of a record counts as one write, since it does not matter in which pieces it is written
(`Sink.putAll_eq`).
-/
import CodeGraph.Proofs.Dataset.Writes

namespace CodeGraph

open Text (newlineByte)

namespace DatasetWriter

/-! ## A full sink -/

/-- The bounded sink has been filled up with the first bytes of the other. -/
structure Cut (c : Nat) (free bounded : DatasetWriter) : Prop where
  capacity : bounded.sink.capacity? = some c
  bytes : bounded.sink.bytes.toList = free.sink.bytes.toList.take c
  full : c < free.sink.bytes.size

/-- What a write fails with if this is the byte that is no longer taken. -/
def faultAt (next? : Option UInt8) : Fault :=
  if next? = some newlineByte then .io .sinkFull else .json .sinkFull

/-- What a step reports when the sink is full. -/
def fullReport (written drawn : Nat) (step : Step) : Report :=
  { result := if step = .flush then .ok none else .error (.json .sinkFull), written, drawn }

section Full

variable {c : Nat} {free bounded : DatasetWriter}

/-- A sink that is filled up holds as much as it can. -/
theorem Cut.size_bounded (h : Cut c free bounded) : bounded.sink.bytes.size = c := by
  have hlength := congrArg List.length h.bytes
  have hfull := h.full
  rw [List.length_take, Array.length_toList, Array.length_toList] at hlength
  omega

/-- It does not matter what comes later. -/
theorem Cut.append (h : Cut c free bounded) (records : List TrainingRecord) :
    Cut c (free.append records) bounded where
  capacity := h.capacity
  bytes := by
    have hle : c ≤ free.sink.bytes.toList.length := by
      rw [Array.length_toList]
      exact h.full.le
    rw [append_bytes, List.take_append_of_le_length hle, h.bytes]
  full := by
    have hfull := h.full
    rw [append_size]
    omega

/-- The byte behind the cut does not depend on what comes later. -/
theorem Cut.getElem?_append (h : Cut c free bounded) (records : List TrainingRecord) :
    (free.append records).sink.bytes[c]? = free.sink.bytes[c]? := by
  have hlt : c < free.sink.bytes.toList.length := by
    rw [Array.length_toList]
    exact h.full
  rw [← Array.getElem?_toList, append_bytes, List.getElem?_append_left hlt, Array.getElem?_toList]

theorem Cut.writeRecord (h : Cut c free bounded) (record : TrainingRecord) :
    bounded.writeRecord record = (bounded, .error (.json .sinkFull)) := by
  have hput := Sink.put_full h.capacity h.size_bounded.ge record.utf8_toJson_ne_nil
  rw [DatasetWriter.writeRecord, Sink.putText, hput]
  rfl

/-- **Nothing is written or drawn when the sink is full.** -/
theorem Cut.step (h : Cut c free bounded) (dice : Dice) (step : Step) :
    bounded.step dice step = (bounded, dice, (fullReport bounded.written dice.drawn step).result) := by
  cases step with
  | record record =>
    rw [DatasetWriter.step, h.writeRecord]
    rfl
  | pair pair =>
    rw [DatasetWriter.step, writePair, h.writeRecord]
    rfl
  | flush => rfl

/-- When the sink is full, the steps change nothing any more. -/
theorem Cut.run (h : Cut c free bounded) (dice : Dice) (steps : List Step) :
    bounded.run dice steps = (bounded, dice, steps.map (fullReport bounded.written dice.drawn)) := by
  induction steps with
  | nil => rfl
  | cons step steps ih =>
    rw [DatasetWriter.run, h.step]
    dsimp only
    rw [ih]
    rfl

end Full

/-! ## The step in which the sink gets full -/

/-- The writer on a sink that takes no more than `c` bytes. -/
def bound (writer : DatasetWriter) (c : Nat) : DatasetWriter :=
  { writer with sink := { writer.sink with capacity? := some c } }

theorem bound_sampler (writer : DatasetWriter) (c : Nat) :
    (writer.bound c).sampler = writer.sampler := rfl

/-- It makes no difference whether the lines or the bound come first. -/
theorem bound_append (writer : DatasetWriter) (c : Nat) (records : List TrainingRecord) :
    (writer.bound c).append records = (writer.append records).bound c := rfl

section Bounded

variable {writer : DatasetWriter} {c : Nat}

/-- The byte behind the first `c` is in the line if these do not take in the line. -/
theorem getElem?_append_line {record : TrainingRecord} (hsize : writer.sink.bytes.size ≤ c) :
    (writer.append [record]).sink.bytes[c]? = record.line[c - writer.sink.bytes.size]? := by
  rw [← Array.getElem?_toList, append_bytes, List.flatMap_singleton,
    List.getElem?_append_right (by rw [Array.length_toList]; exact hsize), Array.length_toList]

theorem writeRecord_fits {record : TrainingRecord}
    (hfits : writer.sink.bytes.size + record.line.length ≤ c) :
    (writer.bound c).writeRecord record = ((writer.append [record]).bound c, .ok ()) := by
  have hlength := record.length_line
  have hjson : (writer.bound c).sink.put (Text.utf8 record.toJson) =
      ((writer.bound c).sink.extend (Text.utf8 record.toJson), true) := by
    refine Sink.put_fits rfl ?_
    show _ ≤ c - writer.sink.bytes.size
    omega
  have hend : ((writer.bound c).sink.extend (Text.utf8 record.toJson)).put [newlineByte] =
      (((writer.bound c).sink.extend (Text.utf8 record.toJson)).extend [newlineByte], true) := by
    refine Sink.put_fits rfl ?_
    rw [Sink.extend_size]
    show 1 ≤ c - (writer.sink.bytes.size + _)
    omega
  rw [← bound_append]
  simp [writeRecord, Sink.putText, utf8_newline, hjson, hend, append, TrainingRecord.line]

/-- A line that does not fit fills the sink up, and the byte that is not taken tells the fault. -/
theorem writeRecord_cut {record : TrainingRecord} (hsize : writer.sink.bytes.size ≤ c)
    (hcut : c < writer.sink.bytes.size + record.line.length) :
    ∃ bounded, (writer.bound c).writeRecord record =
        (bounded, .error (faultAt (writer.append [record]).sink.bytes[c]?)) ∧
      Cut c (writer.append [record]) bounded := by
  have hlength := record.length_line
  have hfull : c < (writer.append [record]).sink.bytes.size := by
    rw [append_size, List.flatMap_singleton]
    exact hcut
  have hsink : writer.sink.bytes.toList.length ≤ c := by
    rw [Array.length_toList]
    exact hsize
  rw [getElem?_append_line hsize]
  by_cases hroom : (Text.utf8 record.toJson).length ≤ c - writer.sink.bytes.size
  · -- the text fits, so only its line end does not
    have hlast : c - writer.sink.bytes.size = (Text.utf8 record.toJson).length := by omega
    have hjson : (writer.bound c).sink.put (Text.utf8 record.toJson) =
        ((writer.bound c).sink.extend (Text.utf8 record.toJson), true) :=
      Sink.put_fits rfl hroom
    have hend : ((writer.bound c).sink.extend (Text.utf8 record.toJson)).put [newlineByte] =
        ((writer.bound c).sink.extend (Text.utf8 record.toJson), false) := by
      refine Sink.put_full rfl ?_ (List.cons_ne_nil _ _)
      rw [Sink.extend_size]
      show c ≤ writer.sink.bytes.size + _
      omega
    have hfault : faultAt record.line[c - writer.sink.bytes.size]? = .io .sinkFull := by
      rw [hlast, TrainingRecord.line, List.getElem?_concat_length]
      rfl
    refine ⟨(writer.bound c).takePart (Text.utf8 record.toJson), ?_, rfl, ?_, hfull⟩
    · rw [hfault]
      simp [writeRecord, Sink.putText, utf8_newline, hjson, hend, takePart]
    · rw [takePart, Sink.extend_bytes, append_bytes, List.flatMap_singleton, List.take_append,
        List.take_of_length_le hsink, Array.length_toList, hlast, TrainingRecord.line,
        List.take_left]
      rfl
  · -- the text itself is cut, and no byte of it is a line end
    have hroom : c - writer.sink.bytes.size < (Text.utf8 record.toJson).length := by omega
    have hjson : (writer.bound c).sink.put (Text.utf8 record.toJson) =
        ((writer.bound c).sink.extend
          ((Text.utf8 record.toJson).take (c - writer.sink.bytes.size)), false) :=
      Sink.put_cut rfl hroom
    have hfault : faultAt record.line[c - writer.sink.bytes.size]? = .json .sinkFull := by
      rw [TrainingRecord.line, List.getElem?_append_left hroom, faultAt, if_neg]
      intro hbyte
      exact record.newlineByte_not_mem_utf8 (List.mem_of_getElem? hbyte)
    refine ⟨(writer.bound c).takePart ((Text.utf8 record.toJson).take (c - writer.sink.bytes.size)),
      ?_, rfl, ?_, hfull⟩
    · rw [hfault]
      simp [writeRecord, Sink.putText, hjson, takePart]
    · rw [takePart, Sink.extend_bytes, append_bytes, List.flatMap_singleton, List.take_append,
        List.take_of_length_le hsink, Array.length_toList, TrainingRecord.line,
        List.take_append_of_le_length hroom.le]
      rfl

/-- What is done on a sink of `c` bytes where `records` are written on one that takes everything: the
same, or the sink is filled up and the write fails. -/
def SameOrCut (writer : DatasetWriter) (c : Nat) (records : List TrainingRecord) {ρ : Type}
    (same : Dice × Except Fault ρ) (bounded : DatasetWriter × Dice × Except Fault ρ) : Prop :=
  (writer.append records).sink.bytes.size ≤ c ∧ bounded = ((writer.append records).bound c, same) ∨
    Cut c (writer.append records) bounded.1 ∧
      bounded.2.2 = .error (faultAt (writer.append records).sink.bytes[c]?)

theorem SameOrCut.map {records : List TrainingRecord} {ρ σ : Type} {a : ρ} {dice dice' : Dice}
    {next : DatasetWriter} {result : Except Fault ρ}
    (h : SameOrCut writer c records (dice, .ok a) (next, dice', result)) (f : ρ → σ) :
    SameOrCut writer c records (dice, .ok (f a)) (next, dice', result.map f) := by
  rcases h with ⟨hsize, hsame⟩ | ⟨hcut, hfault⟩
  · cases hsame
    exact Or.inl ⟨hsize, rfl⟩
  · dsimp only at hfault
    rw [hfault]
    exact Or.inr ⟨hcut, rfl⟩

/-- What would have been written later makes no difference. -/
theorem sameOrCut_of_cut {records : List TrainingRecord} {bounded : DatasetWriter}
    (h : Cut c (writer.append records) bounded) (later : List TrainingRecord) {ρ : Type}
    (same : Dice × Except Fault ρ) (dice : Dice) :
    SameOrCut writer c (records ++ later) same
      (bounded, dice, .error (faultAt (writer.append records).sink.bytes[c]?)) := by
  have hcut := h.append later
  have hnext := h.getElem?_append later
  rw [append_append] at hcut hnext
  refine Or.inr ⟨hcut, ?_⟩
  dsimp only
  rw [hnext]

/-- A record is written the same, or the sink is filled up. -/
theorem writeRecord_bound (hsize : writer.sink.bytes.size ≤ c) {record : TrainingRecord}
    {next : DatasetWriter} {result : Except Fault Unit}
    (hwrite : (writer.bound c).writeRecord record = (next, result)) (dice : Dice) :
    SameOrCut writer c [record] (dice, .ok ()) (next, dice, result) := by
  by_cases hfits : writer.sink.bytes.size + record.line.length ≤ c
  · rw [writeRecord_fits hfits] at hwrite
    cases hwrite
    refine Or.inl ⟨?_, rfl⟩
    rw [append_size, List.flatMap_singleton]
    exact hfits
  · obtain ⟨bounded, hbounded, hcut⟩ := writeRecord_cut hsize (Nat.lt_of_not_le hfits)
    rw [hbounded] at hwrite
    cases hwrite
    exact Or.inr ⟨hcut, rfl⟩

/-- It makes no difference which of the records had been written before. -/
theorem SameOrCut.of_append {records later : List TrainingRecord} {ρ : Type}
    {same : Dice × Except Fault ρ} {bounded : DatasetWriter × Dice × Except Fault ρ}
    (h : SameOrCut (writer.append records) c later same bounded) :
    SameOrCut writer c (records ++ later) same bounded := by
  rw [SameOrCut, append_append] at h
  exact h

/-- **A pair is written the same, or the sink is filled up.** -/
theorem writePair_bound (hsize : writer.sink.bytes.size ≤ c) (pair : RecordPair) {dice dice' : Dice}
    {keep : Bool} (hkeep : writer.sampler.keepBuggy dice = (keep, dice')) :
    SameOrCut writer c ((Step.pair pair).records (.ok (some keep))) (dice', .ok keep)
      ((writer.bound c).writePair pair dice) := by
  by_cases hfits : writer.sink.bytes.size + pair.correct.line.length ≤ c
  · have hcorrect := writeRecord_fits hfits
    have hnext : (writer.append [pair.correct]).sink.bytes.size ≤ c := by
      rw [append_size, List.flatMap_singleton]
      exact hfits
    rcases (writer.bound c).writePair_cases pair dice with
      ⟨next, fault, hwrite, -⟩ | ⟨-, ⟨drawn, hdrawn, hpair⟩ | ⟨drawn, hdrawn, hpair⟩⟩
    · rw [hcorrect] at hwrite
      cases hwrite
    · rw [bound_sampler, hkeep] at hdrawn
      obtain ⟨rfl, rfl⟩ := Prod.mk.inj hdrawn
      rw [hpair, bound_append, Step.records_left]
      exact Or.inl ⟨hnext, rfl⟩
    · rw [bound_sampler, hkeep] at hdrawn
      obtain ⟨rfl, rfl⟩ := Prod.mk.inj hdrawn
      rcases hlast : ((writer.append [pair.correct]).bound c).writeRecord pair.buggy with
        ⟨last, result⟩
      rw [hpair, bound_append, hlast]
      exact ((writeRecord_bound hnext hlast dice').map fun _ => true).of_append
  · -- the pair ends here; on the other sink a mutant may still come
    obtain ⟨bounded, hwrite, hcut⟩ := writeRecord_cut hsize (Nat.lt_of_not_le hfits)
    rw [writePair, hwrite]
    cases keep with
    | false => exact sameOrCut_of_cut hcut [] _ dice
    | true => exact sameOrCut_of_cut hcut [pair.buggy] _ dice

/-- **A step is the same on both sinks, or it fills up the bounded one.** -/
theorem step_bound (hfree : writer.sink.capacity? = none) (hsize : writer.sink.bytes.size ≤ c)
    (dice : Dice) (step : Step) :
    ∃ keep? dice',
      writer.step dice step = (writer.append (step.records (.ok keep?)), dice', .ok keep?) ∧
      SameOrCut writer c (step.records (.ok keep?)) (dice', .ok keep?)
        ((writer.bound c).step dice step) := by
  cases step with
  | record record =>
    rcases hwrite : (writer.bound c).writeRecord record with ⟨next, result⟩
    refine ⟨none, dice, ?_, ?_⟩
    · rw [DatasetWriter.step, writeRecord_unbounded hfree]
      rfl
    · rw [DatasetWriter.step, hwrite]
      exact (writeRecord_bound hsize hwrite dice).map fun _ => none
  | pair pair =>
    rcases hkeep : writer.sampler.keepBuggy dice with ⟨keep, dice'⟩
    have hbound := writePair_bound hsize pair hkeep
    rcases hpair : (writer.bound c).writePair pair dice with ⟨next, drawn, result⟩
    rw [hpair] at hbound
    refine ⟨some keep, dice', ?_, ?_⟩
    · rw [DatasetWriter.step, writePair_unbounded hfree hkeep, Step.records_pair]
      rfl
    · rw [DatasetWriter.step, hpair]
      exact hbound.map some
  | flush =>
    refine ⟨none, dice, ?_, Or.inl ⟨?_, ?_⟩⟩
    · rw [Step.records, append_nil]
      rfl
    · rw [Step.records, append_nil]
      exact hsize
    · rw [Step.records, append_nil]
      rfl

end Bounded

/-! ## Sessions -/

/-- The bounded run is the free one up to a step that fills the sink up and fails. Nothing happens
behind it. -/
structure CutShort (c : Nat) (steps : List Step) (free bounded : DatasetWriter × Dice × List Report) :
    Prop where
  cut : Cut c free.1 bounded.1
  reports : ∃ earlier step later before failed,
    steps = earlier ++ step :: later ∧ before.length = earlier.length ∧
    bounded.2.2 = before ++ failed :: later.map (fullReport bounded.1.written failed.drawn) ∧
    (∀ report ∈ before, report.succeeded = true) ∧ before <+: free.2.2 ∧
    failed.result = .error (faultAt free.1.sink.bytes[c]?)

section Cuts

variable {c : Nat} {step : Step} {steps : List Step} {free bounded : DatasetWriter} {dice dice' : Dice}
  {report failed : Report} {reports reports' : List Report}

/-- A step that fails with the sink filled up cuts a session short. -/
theorem Cut.cutShort (hcut : Cut c free bounded)
    (hfault : failed.result = .error (faultAt free.sink.bytes[c]?)) :
    CutShort c (step :: steps) (free, dice, reports)
      (bounded, dice', failed :: steps.map (fullReport bounded.written failed.drawn)) where
  cut := hcut
  reports := ⟨[], step, steps, [], failed, rfl, rfl, rfl, nofun, List.nil_prefix, hfault⟩

/-- A session that is cut short later. -/
theorem CutShort.cons (h : CutShort c steps (free, dice, reports) (bounded, dice', reports'))
    (hreport : report.succeeded = true) :
    CutShort c (step :: steps) (free, dice, report :: reports)
      (bounded, dice', report :: reports') where
  cut := h.cut
  reports := by
    obtain ⟨earlier, last, later, before, failed, hsteps, hlength, hreports, hbefore, hprefix,
      hfault⟩ := h.reports
    dsimp only at hreports hprefix
    refine ⟨step :: earlier, last, later, report :: before, failed, ?_, ?_, ?_, ?_, ?_, hfault⟩
    · rw [hsteps, List.cons_append]
    · rw [List.length_cons, List.length_cons, hlength]
    · rw [hreports, List.cons_append]
    · intro other hother
      rcases List.mem_cons.mp hother with rfl | hmem
      · exact hreport
      · exact hbefore other hmem
    · exact List.prefix_cons_inj report |>.mpr hprefix

end Cuts

theorem append_of_run {writer : DatasetWriter} (hfree : writer.sink.capacity? = none) (dice : Dice)
    (steps : List Step) : ∃ records, (writer.run dice steps).1 = writer.append records :=
  ⟨_, (run_unbounded hfree dice steps).1⟩

/-- **A session is the same on both sinks, or it is cut short on the bounded one.** -/
theorem run_bound {writer : DatasetWriter} {c : Nat} (hfree : writer.sink.capacity? = none)
    (hsize : writer.sink.bytes.size ≤ c) (dice : Dice) (steps : List Step) :
    (writer.run dice steps).1.sink.bytes.size ≤ c ∧
        (writer.bound c).run dice steps =
          ((writer.run dice steps).1.bound c, (writer.run dice steps).2) ∨
      CutShort c steps (writer.run dice steps) ((writer.bound c).run dice steps) := by
  -- by induction on the steps: the two writers go on alike for as long as all fits
  induction steps generalizing writer dice with
  | nil => exact Or.inl ⟨hsize, rfl⟩
  | cons step steps ih =>
    obtain ⟨keep?, dice', hstep, hcases⟩ := step_bound hfree hsize dice step
    have hnext : (writer.append (step.records (.ok keep?))).sink.capacity? = none := by
      rw [append_capacity, hfree]
    rcases hcases with ⟨hfits, hbounded⟩ | ⟨hcut, hfault⟩
    · rw [run, run, hstep, hbounded]
      dsimp only
      rcases ih hnext hfits dice' with ⟨hend, hrun⟩ | hshort
      · rw [hrun]
        exact Or.inl ⟨hend, rfl⟩
      · exact Or.inr (hshort.cons rfl)
    · rcases hbounded : (writer.bound c).step dice step with ⟨next, drawn, result⟩
      rw [hbounded] at hcut hfault
      dsimp only at hcut hfault
      -- the free run goes on, but only behind the byte that the sink does not take
      obtain ⟨records, hend⟩ := append_of_run hnext dice' steps
      have hlater := hcut.append records
      rw [← hcut.getElem?_append records, ← hend] at hfault
      rw [← hend] at hlater
      rw [run, run, hstep, hbounded]
      dsimp only
      rw [hcut.run]
      exact Or.inr (hlater.cutShort hfault)

/-! ## What the reports say -/

/-- Behind a step that has failed nothing is drawn, and every record and every pair fails. -/
def StaysStuck (earlier later : Step × Report) : Prop :=
  earlier.2.succeeded = false →
    later.2.drawn = earlier.2.drawn ∧ (later.1 ≠ .flush → later.2.succeeded = false)

theorem pairwise_staysStuck_of_succeeded {steps : List Step} {reports : List Report}
    (h : ∀ report ∈ reports, report.succeeded = true) :
    (steps.zip reports).Pairwise StaysStuck := by
  refine List.pairwise_of_forall_mem_list ?_
  intro earlier hearlier later _ hfailed
  rw [h earlier.2 (List.of_mem_zip hearlier).2] at hfailed
  cases hfailed

theorem length_run (writer : DatasetWriter) (dice : Dice) (steps : List Step) :
    (writer.run dice steps).2.2.length = steps.length := by
  induction steps generalizing writer dice with
  | nil => rfl
  | cons step steps ih => exact congrArg (· + 1) (ih _ _)

namespace CutShort

variable {c : Nat} {steps : List Step} {free bounded : DatasetWriter × Dice × List Report}

/-- Up to the first failure, the reports are the same. -/
theorem takeWhile_isPrefix (h : CutShort c steps free bounded) :
    bounded.2.2.takeWhile Report.succeeded <+: free.2.2 := by
  obtain ⟨-, -, later, before, failed, -, -, hreports, hbefore, hprefix, hfault⟩ := h.reports
  have hfailed : ¬ failed.succeeded = true := by
    rw [Report.succeeded, hfault]
    exact Bool.false_ne_true
  rw [hreports, List.takeWhile_append_of_pos hbefore, List.takeWhile_cons_of_neg hfailed,
    List.append_nil]
  exact hprefix

/-- The first failure is the one that is told by the byte behind the cut. -/
theorem result_of_find? (h : CutShort c steps free bounded) {failed : Report}
    (hfind : bounded.2.2.find? (!·.succeeded) = some failed) :
    failed.result = .error (faultAt free.1.sink.bytes[c]?) := by
  obtain ⟨-, -, later, before, first, -, -, hreports, hbefore, -, hfault⟩ := h.reports
  have hnone : before.find? (!·.succeeded) = none := by
    rw [List.find?_eq_none]
    intro report hreport
    rw [hbefore report hreport]
    exact Bool.false_ne_true
  have hfirst : (!first.succeeded) = true := by
    rw [Report.succeeded, hfault]
    rfl
  rw [hreports, List.find?_append, hnone, Option.none_or, List.find?_cons, hfirst] at hfind
  cases hfind
  exact hfault

/-- **What has got stuck stays stuck.** -/
theorem pairwise_staysStuck (h : CutShort c steps free bounded) :
    (steps.zip bounded.2.2).Pairwise StaysStuck := by
  obtain ⟨earlier, step, later, before, failed, hsteps, hlength, hreports, hbefore, -, -⟩ := h.reports
  have hfull : ∀ entry ∈ later.zip (later.map (fullReport bounded.1.written failed.drawn)),
      entry.2.drawn = failed.drawn ∧ (entry.1 ≠ .flush → entry.2.succeeded = false) := by
    intro entry hentry
    rw [← List.map_prod_left_eq_zip] at hentry
    obtain ⟨step, -, rfl⟩ := List.mem_map.mp hentry
    refine ⟨rfl, fun hflush => ?_⟩
    rw [Report.succeeded, fullReport, if_neg hflush]
    rfl
  rw [hsteps, hreports, List.zip_append hlength.symm, List.zip_cons_cons, List.pairwise_append,
    List.pairwise_cons]
  refine ⟨pairwise_staysStuck_of_succeeded hbefore, ⟨?_, ?_⟩, ?_⟩
  · intro entry hentry _
    exact hfull entry hentry
  · refine List.pairwise_of_forall_mem_list ?_
    intro one hone other hother _
    rw [(hfull one hone).1]
    exact hfull other hother
  · intro one hone other _ hfailed
    rw [hbefore one.2 (List.of_mem_zip hone).2] at hfailed
    cases hfailed

end CutShort

/-! ## Nothing but a cut -/

/-- The session on a sink that takes `c` bytes. -/
def boundedRun (c : Nat) (sampler : Sampler) (dice : Dice) (steps : List Step) :
    DatasetWriter × Dice × List Report :=
  run { sink := { capacity? := some c }, sampler } dice steps

/-- The session on a sink that takes everything. -/
def freeRun (sampler : Sampler) (dice : Dice) (steps : List Step) :
    DatasetWriter × Dice × List Report :=
  run { sampler } dice steps

/-- The bytes of a free run are those of the lines that are written. -/
theorem getElem?_freeRun (sampler : Sampler) (dice : Dice) (steps : List Step) (i : Nat) :
    (freeRun sampler dice steps).1.sink.bytes[i]? =
      ((recordsOf steps (freeRun sampler dice steps).2.2).flatMap TrainingRecord.line)[i]? := by
  have hfree : ({ sampler } : DatasetWriter).sink.capacity? = none := rfl
  have hwriter := (run_unbounded hfree dice steps).1
  rw [← Array.getElem?_toList, freeRun, hwriter, append_bytes]
  rfl

/-- A session on a sink of `c` bytes differs from the session on a sink without an end only by what
is cut off. -/
structure CutsOnly (c : Nat) (sampler : Sampler) (dice : Dice) (steps : List Step) : Prop where
  /-- The sink holds the first bytes of what there is to write. -/
  bytes : (boundedRun c sampler dice steps).1.sink.bytes.toList =
    (freeRun sampler dice steps).1.sink.bytes.toList.take c
  /-- As many lines are counted as there are line ends in the sink. -/
  written : (boundedRun c sampler dice steps).1.written =
    (boundedRun c sampler dice steps).1.sink.bytes.toList.count newlineByte
  /-- Every step reports. -/
  length_reports : (boundedRun c sampler dice steps).2.2.length = steps.length
  /-- Before the first step that fails, all results, lines and draws are the same. -/
  same : (boundedRun c sampler dice steps).2.2.takeWhile Report.succeeded <+:
    (freeRun sampler dice steps).2.2
  /-- No step fails if everything fits. -/
  fits : (freeRun sampler dice steps).1.sink.bytes.size ≤ c →
    ∀ report ∈ (boundedRun c sampler dice steps).2.2, report.succeeded = true
  /-- Behind a step that fails, nothing is drawn and every record and every pair fails. -/
  stuck : (steps.zip (boundedRun c sampler dice steps).2.2).Pairwise StaysStuck
  /-- The first step that fails does so with a fault of the sink if the first byte that is not taken
  is a line end, and else with a fault of JSON. -/
  fault : ∀ failed, (boundedRun c sampler dice steps).2.2.find? (!·.succeeded) = some failed →
    failed.result = .error (faultAt (freeRun sampler dice steps).1.sink.bytes[c]?)
  /-- It makes no difference in which pieces the text of one more record is written. -/
  pieces : ∀ (record : TrainingRecord) (pieces : List (List UInt8)),
    pieces.flatten = Text.utf8 record.toJson →
    (boundedRun c sampler dice steps).1.sink.putAll pieces =
      (boundedRun c sampler dice steps).1.sink.putText record.toJson
  /-- For one more pair, something is drawn only if the line of its correct record has been written
  whole. -/
  draws : ∀ pair : RecordPair,
    ((boundedRun c sampler dice steps).1.writePair pair
      (boundedRun c sampler dice steps).2.1).2.1.drawn ≠
        (boundedRun c sampler dice steps).2.1.drawn →
    (boundedRun c sampler dice steps).1.sink.bytes.toList ++ pair.correct.line <+:
      ((boundedRun c sampler dice steps).1.writePair pair
        (boundedRun c sampler dice steps).2.1).1.sink.bytes.toList

/-- **A bounded sink cuts the output and nothing else.**  Whatever the sampler, the dice, the steps
and the size of the sink are, and wherever in a record the cut falls. -/
theorem cutsOnly (c : Nat) (sampler : Sampler) (dice : Dice) (steps : List Step) :
    CutsOnly c sampler dice steps := by
  have hfree : ({ sampler } : DatasetWriter).sink.capacity? = none := rfl
  have hcounts : ({ sink := { capacity? := some c }, sampler } : DatasetWriter).Counts := rfl
  have hall := (run_unbounded hfree dice steps).2
  have hwritten := hcounts.run dice steps
  have hlength := length_run { sink := { capacity? := some c }, sampler } dice steps
  have hpieces : ∀ (record : TrainingRecord) (pieces : List (List UInt8)),
      pieces.flatten = Text.utf8 record.toJson →
      (boundedRun c sampler dice steps).1.sink.putAll pieces =
        (boundedRun c sampler dice steps).1.sink.putText record.toJson := by
    intro record pieces hflatten
    rw [Sink.putAll_eq, hflatten, Sink.putText]
  rcases run_bound hfree (Nat.zero_le c) dice steps with ⟨hsize, hrun⟩ | hshort
  · have hsame : boundedRun c sampler dice steps =
        ((freeRun sampler dice steps).1.bound c, (freeRun sampler dice steps).2) := hrun
    have hbytes : (freeRun sampler dice steps).1.sink.bytes.toList.length ≤ c := by
      rw [Array.length_toList]
      exact hsize
    -- all fits, so the reports are those of the free run, in which no step fails
    refine ⟨?_, hwritten, hlength, ?_, ?_, ?_, ?_, hpieces, fun pair => isPrefix_of_draws⟩
    · rw [hsame, List.take_of_length_le hbytes]
      rfl
    · rw [hsame]
      exact List.takeWhile_prefix _
    · intro _
      rw [hsame]
      exact hall
    · rw [hsame]
      exact pairwise_staysStuck_of_succeeded hall
    · intro failed hfind
      rw [hsame] at hfind
      have hfailed := List.find?_some hfind
      rw [hall failed (List.mem_of_find?_eq_some hfind)] at hfailed
      cases hfailed
  · refine ⟨hshort.cut.bytes, hwritten, hlength, hshort.takeWhile_isPrefix, ?_,
      hshort.pairwise_staysStuck, fun failed => hshort.result_of_find?, hpieces,
      fun pair => isPrefix_of_draws⟩
    intro hsize
    exact absurd hshort.cut.full (Nat.not_lt.mpr hsize)

/-- A pair of a record and a mutant is written, and the record again.  The line of the record has
165 bytes. -/
def threeLines : List Step :=
  let record := TrainingRecord.correct ["<"] [.ofKind 0 0 .child]
  let mutant := { record.markBug .offByOne 0 with sourceTokens := ["<="] }
  [.pair ⟨record, mutant⟩, .flush, .record record]

/-- Two cuts.  Behind 164 bytes there is the line end of the correct record, so nothing is drawn for
its mutant.  A cut behind 180 bytes falls into the mutant, for which a word has been drawn. -/
theorem cutsOnly_threeLines :
    (∀ c, CutsOnly c {} (.cycling [7]) threeLines) ∧
    ((boundedRun 164 {} (.cycling [7]) threeLines).2.2.map fun report =>
        (report.succeeded, report.written, report.drawn)) =
      [(false, 0, 0), (true, 0, 0), (false, 0, 0)] ∧
    (∀ failed, (boundedRun 164 {} (.cycling [7]) threeLines).2.2.find? (!·.succeeded) =
      some failed → failed.result = .error (.io .sinkFull)) ∧
    ((boundedRun 180 {} (.cycling [7]) threeLines).2.2.map fun report =>
        (report.succeeded, report.written, report.drawn)) =
      [(false, 1, 1), (true, 1, 1), (false, 1, 1)] ∧
    ∀ failed, (boundedRun 180 {} (.cycling [7]) threeLines).2.2.find? (!·.succeeded) =
      some failed → failed.result = .error (.json .sinkFull) := by
  have hcuts : ∀ c, CutsOnly c {} (.cycling [7]) threeLines := fun c =>
    cutsOnly c {} (.cycling [7]) threeLines
  have hend : (freeRun {} (.cycling [7]) threeLines).1.sink.bytes[164]? = some newlineByte := by
    rw [getElem?_freeRun]
    decide +kernel
  have hmutant : (freeRun {} (.cycling [7]) threeLines).1.sink.bytes[180]? ≠ some newlineByte := by
    rw [getElem?_freeRun]
    decide +kernel
  refine ⟨hcuts, by decide +kernel, fun failed hfind => ?_, by decide +kernel,
    fun failed hfind => ?_⟩
  · rw [(hcuts 164).fault failed hfind, faultAt, if_pos hend]
  · rw [(hcuts 180).fault failed hfind, faultAt, if_neg hmutant]

end DatasetWriter

end CodeGraph
