/-
# Raising the rate

A sampler that is not balanced draws a number below a hundred for each mutant, whatever its rate
is, and keeps the mutant if the number is below the rate (`Sampler.keeps_ofRate`).  So at a higher
rate the same is drawn and no fewer mutants are kept, while of each pair the correct record is
written in any case.  Nothing is kept at a rate of zero.  From a hundred on everything is, as by a
balanced sampler, which draws nothing at all (`DatasetWriter.writePairs_raise`).
-/
import CodeGraph.Proofs.Dataset.Writes
import CodeGraph.Proofs.Random.Pick

namespace CodeGraph

/-! ## Numbers below a hundred -/

/-- Draws so many numbers below a hundred, one after another. -/
def Dice.rolls (dice : Dice) : Nat → List Nat × Dice
  | 0 => ([], dice)
  | n + 1 =>
    let (roll, dice) := dice.below 100
    let (rolls, dice) := dice.rolls n
    (roll :: rolls, dice)

theorem Dice.length_rolls (dice : Dice) (n : Nat) : (dice.rolls n).1.length = n := by
  induction n generalizing dice with
  | zero => rfl
  | succ n ih => exact congrArg Nat.succ (ih _)

theorem Dice.lt_of_mem_rolls {dice : Dice} {n roll : Nat} (h : roll ∈ (dice.rolls n).1) :
    roll < 100 := by
  induction n generalizing dice with
  | zero => cases h
  | succ n ih =>
    rcases List.mem_cons.mp h with rfl | hlater
    · exact dice.below_lt (by decide)
    · exact ih hlater

-- a second word decides on the first number, which would be zero without it
example : (Dice.rolls (.cycling [42949672, 4294967295, 2147483648]) 2).1 = [1, 50] := by decide

/-! ## Decisions -/

namespace Sampler

/-- The sampler that keeps so many mutants in a hundred. -/
def ofRate (rate : Nat) : Sampler := { buggyPerHundred := rate, balanced := false }

/-- Decides on so many mutants, one after another. -/
def keeps (sampler : Sampler) (dice : Dice) : Nat → List Bool × Dice
  | 0 => ([], dice)
  | n + 1 =>
    let (keep, dice) := sampler.keepBuggy dice
    let (keeps, dice) := sampler.keeps dice n
    (keep :: keeps, dice)

/-- **What is drawn does not depend on the rate**, which the numbers are compared with. -/
theorem keeps_ofRate (rate : Nat) (dice : Dice) (n : Nat) : (ofRate rate).keeps dice n =
    ((dice.rolls n).1.map fun roll => decide (roll < rate), (dice.rolls n).2) := by
  induction n generalizing dice with
  | zero => rfl
  | succ n ih =>
    show (_ :: ((ofRate rate).keeps (dice.below 100).2 n).1,
      ((ofRate rate).keeps (dice.below 100).2 n).2) = _
    rw [ih]
    rfl

theorem length_keeps (rate : Nat) (dice : Dice) (n : Nat) :
    ((ofRate rate).keeps dice n).1.length = n := by
  rw [keeps_ofRate, List.length_map, dice.length_rolls]

/-- A balanced sampler keeps all mutants, and draws nothing. -/
theorem keeps_balanced {sampler : Sampler} (h : sampler.balanced = true) (dice : Dice) (n : Nat) :
    sampler.keeps dice n = (List.replicate n true, dice) := by
  have hkeep : sampler.keepBuggy dice = (true, dice) := if_pos h
  induction n with
  | zero => rfl
  | succ n ih =>
    rw [keeps, hkeep]
    dsimp only
    rw [ih]
    rfl

/-- What is kept at a rate is kept at a higher one. -/
theorem forall₂_keeps {rate rate' : Nat} (h : rate ≤ rate') (dice : Dice) (n : Nat) :
    List.Forall₂ (fun keep keep' => keep = true → keep' = true)
      ((ofRate rate).keeps dice n).1 ((ofRate rate').keeps dice n).1 := by
  rw [keeps_ofRate, keeps_ofRate, List.forall₂_map_left_iff, List.forall₂_map_right_iff,
    List.forall₂_same]
  intro roll _ hkeep
  rw [decide_eq_true_eq] at hkeep ⊢
  exact Nat.lt_of_lt_of_le hkeep h

/-- A rate that all numbers below a hundred compare with alike keeps all mutants, or none. -/
theorem keeps_eq_replicate {rate : Nat} {keep : Bool}
    (h : ∀ roll < 100, decide (roll < rate) = keep) (dice : Dice) (n : Nat) :
    ((ofRate rate).keeps dice n).1 = List.replicate n keep := by
  refine List.eq_replicate_iff.mpr ⟨length_keeps rate dice n, ?_⟩
  intro other hother
  rw [keeps_ofRate] at hother
  obtain ⟨roll, hroll, rfl⟩ := List.mem_map.mp hother
  exact h roll (Dice.lt_of_mem_rolls hroll)

theorem keeps_zero (dice : Dice) (n : Nat) :
    ((ofRate 0).keeps dice n).1 = List.replicate n false :=
  keeps_eq_replicate (fun roll _ => decide_eq_false (Nat.not_lt_zero roll)) dice n

/-- From a rate of a hundred on every mutant is kept. -/
theorem keeps_hundred {rate : Nat} (h : 100 ≤ rate) (dice : Dice) (n : Nat) :
    ((ofRate rate).keeps dice n).1 = List.replicate n true :=
  keeps_eq_replicate (fun _ hroll => decide_eq_true (Nat.lt_of_lt_of_le hroll h)) dice n

end Sampler

/-! ## What is written -/

/-- The records that are written of pairs. -/
def writtenOf (pairs : List RecordPair) (keeps : List Bool) : List TrainingRecord :=
  (List.zipWith RecordPair.written pairs keeps).flatten

theorem writtenOf_cons (pair : RecordPair) (pairs : List RecordPair) (keep : Bool)
    (keeps : List Bool) :
    writtenOf (pair :: pairs) (keep :: keeps) = pair.written keep ++ writtenOf pairs keeps := rfl

/-- Of a pair, no less is written if the mutant is kept. -/
theorem RecordPair.written_sublist (pair : RecordPair) {keep keep' : Bool}
    (h : keep = true → keep' = true) : (pair.written keep).Sublist (pair.written keep') := by
  cases keep with
  | false => exact List.Sublist.cons_cons pair.correct (List.nil_sublist _)
  | true =>
    rw [h rfl]

/-- When more mutants are kept, what has been written still is, in the same order. -/
theorem writtenOf_sublist (pairs : List RecordPair) {keeps keeps' : List Bool}
    (h : List.Forall₂ (fun keep keep' => keep = true → keep' = true) keeps keeps') :
    (writtenOf pairs keeps).Sublist (writtenOf pairs keeps') := by
  induction h generalizing pairs with
  | nil => exact List.Sublist.refl _
  | cons hkeep _ ih =>
    cases pairs with
    | nil => exact List.Sublist.refl _
    | cons pair pairs =>
      rw [writtenOf_cons, writtenOf_cons]
      exact (pair.written_sublist hkeep).append (ih pairs)

/-- Without mutants the correct records are written. -/
theorem writtenOf_replicate_false (pairs : List RecordPair) :
    writtenOf pairs (List.replicate pairs.length false) = pairs.map RecordPair.correct := by
  induction pairs with
  | nil => rfl
  | cons pair pairs ih =>
    rw [List.length_cons, List.replicate_succ, writtenOf_cons, ih]
    rfl

/-! ## Lines -/

/-- The text of a record, as bytes. -/
def TrainingRecord.bytes (record : TrainingRecord) : List UInt8 := Text.utf8 record.toJson

/-- The lines of a sink behind its first bytes. -/
def Sink.linesFrom (sink : Sink) (start : Nat) : List (List UInt8) :=
  (sink.bytes.toList.drop start).splitOn Text.newlineByte

/-- Of the lines of pairs, those of the correct records: if the mutant of a pair has been written,
it is on the next line. -/
def correctLines : List (Except Fault Bool) → List (List UInt8) → List (List UInt8)
  | result :: results, line :: lines =>
    line :: correctLines results (match result with
      | .ok true => lines.tail
      | _ => lines)
  | _, _ => []

/-- The lines of the correct records are found among those of the pairs. -/
theorem correctLines_writtenOf (pairs : List RecordPair) {keeps : List Bool}
    (hlength : keeps.length = pairs.length) (rest : List (List UInt8)) :
    correctLines (keeps.map .ok) ((writtenOf pairs keeps).map TrainingRecord.bytes ++ rest) =
      pairs.map fun pair => pair.correct.bytes := by
  induction pairs generalizing keeps with
  | nil =>
    rw [List.length_eq_zero_iff.mp hlength]
    rfl
  | cons pair pairs ih =>
    obtain ⟨keep, keeps, rfl⟩ := List.exists_cons_of_length_eq_add_one hlength
    have hlater := ih (Nat.succ.inj hlength)
    rw [writtenOf_cons, List.map_append, List.append_assoc, pairs.map_cons, ← hlater]
    cases keep with
    | false => rfl
    | true => rfl

namespace DatasetWriter

/-- The lines that have been added are those of the records. -/
theorem linesFrom_append (writer : DatasetWriter) (records : List TrainingRecord) :
    (writer.append records).sink.linesFrom writer.sink.bytes.size =
      records.map TrainingRecord.bytes ++ [[]] := by
  have hlines : records.flatMap TrainingRecord.line =
      (records.map TrainingRecord.bytes).flatMap (· ++ [Text.newlineByte]) := by
    rw [List.flatMap_map]
    rfl
  rw [Sink.linesFrom, append_bytes, ← Array.length_toList, List.drop_left, hlines]
  refine Text.splitOn_flatMap ?_
  intro line hline
  obtain ⟨record, -, rfl⟩ := List.mem_map.mp hline
  exact record.newlineByte_not_mem_utf8

/-! ## Runs -/

/-- **Pairs on a sink without an end**: what is written, drawn and reported of each is decided by
the sampler alone. -/
theorem writePairs_unbounded {writer : DatasetWriter} (h : writer.sink.capacity? = none)
    (dice : Dice) (pairs : List RecordPair) :
    writer.writePairs dice pairs =
      (writer.append (writtenOf pairs (writer.sampler.keeps dice pairs.length).1),
        (writer.sampler.keeps dice pairs.length).2,
        (writer.sampler.keeps dice pairs.length).1.map .ok) := by
  induction pairs generalizing writer dice with
  | nil =>
    show (writer, dice, []) = (writer.append [], dice, [])
    rw [append_nil]
  | cons pair pairs ih =>
    rcases hkeep : writer.sampler.keepBuggy dice with ⟨keep, dice'⟩
    have hnext : (writer.append (pair.written keep)).sink.capacity? = none := by
      rw [append_capacity, h]
    rw [writePairs, writePair_unbounded h hkeep, List.length_cons, Sampler.keeps, hkeep]
    dsimp only
    rw [ih hnext, append_append, append_sampler]
    rfl

/-- Writes pairs to a sink without an end that holds these bytes, with so many mutants in a
hundred. -/
def atRate (held : Array UInt8) (rate : Nat) (dice : Dice) (pairs : List RecordPair) :
    DatasetWriter × Dice × List (Except Fault Bool) :=
  writePairs { sink := { bytes := held }, sampler := .ofRate rate } dice pairs

/-- Of two runs over the same pairs, the second draws what the first does and writes no less. -/
structure AddsMutants (held : Array UInt8)
    (run more : DatasetWriter × Dice × List (Except Fault Bool)) : Prop where
  dice_eq : run.2.1 = more.2.1
  kept : List.Forall₂ (fun result result' => result = .ok true → result' = .ok true)
    run.2.2 more.2.2
  lines_sublist : (run.1.sink.linesFrom held.size).Sublist (more.1.sink.linesFrom held.size)
  correctLines_eq : correctLines run.2.2 (run.1.sink.linesFrom held.size) =
    correctLines more.2.2 (more.1.sink.linesFrom held.size)

section Rates

variable (held : Array UInt8) (dice : Dice) (pairs : List RecordPair)

/-- What is written and drawn at a rate is decided by the numbers alone. -/
theorem atRate_eq (rate : Nat) : atRate held rate dice pairs =
    (append { sink := { bytes := held }, sampler := .ofRate rate }
        (writtenOf pairs ((Sampler.ofRate rate).keeps dice pairs.length).1),
      (dice.rolls pairs.length).2,
      ((Sampler.ofRate rate).keeps dice pairs.length).1.map .ok) := by
  rw [atRate, writePairs_unbounded rfl]
  dsimp only
  rw [Sampler.keeps_ofRate]

/-- The lines at a rate are those of the records that are written. -/
theorem linesFrom_atRate (rate : Nat) :
    (atRate held rate dice pairs).1.sink.linesFrom held.size = (writtenOf pairs
      ((Sampler.ofRate rate).keeps dice pairs.length).1).map TrainingRecord.bytes ++ [[]] := by
  rw [atRate_eq]
  exact linesFrom_append { sink := { bytes := held }, sampler := .ofRate rate } _

/-- The lines of the correct records do not depend on the rate. -/
theorem correctLines_atRate (rate : Nat) :
    correctLines (atRate held rate dice pairs).2.2
        ((atRate held rate dice pairs).1.sink.linesFrom held.size) =
      pairs.map fun pair => pair.correct.bytes := by
  rw [linesFrom_atRate, atRate_eq]
  exact correctLines_writtenOf pairs (Sampler.length_keeps rate dice pairs.length) _

theorem addsMutants_atRate {rate rate' : Nat} (h : rate ≤ rate') :
    AddsMutants held (atRate held rate dice pairs) (atRate held rate' dice pairs) where
  dice_eq := by
    rw [atRate_eq, atRate_eq]
  kept := by
    rw [atRate_eq, atRate_eq, List.forall₂_map_left_iff, List.forall₂_map_right_iff]
    refine (Sampler.forall₂_keeps h dice pairs.length).imp ?_
    intro keep keep' hkeep hok
    rw [Except.ok.injEq] at hok ⊢
    exact hkeep hok
  lines_sublist := by
    rw [linesFrom_atRate, linesFrom_atRate]
    exact ((writtenOf_sublist pairs (Sampler.forall₂_keeps h dice _)).map _).append_right _
  correctLines_eq := by
    rw [correctLines_atRate, correctLines_atRate]

/-- **Raising the rate only adds mutants.**  At two rates the same is drawn for any number of pairs,
whatever is kept at the lower one is kept at the higher one, and the lines that are written at the
lower one are among those at the higher one, in the same order.  At any rate there is a line for
each correct record, with one for its mutant behind it if this is reported, and at a rate of zero
there are no mutants.  From a hundred on all mutants are written, and a balanced sampler leaves the
same behind and draws nothing. -/
theorem writePairs_raise :
    (∀ rate rate', rate ≤ rate' →
      AddsMutants held (atRate held rate dice pairs) (atRate held rate' dice pairs)) ∧
    (∀ rate, ∃ keeps, keeps.length = pairs.length ∧
      (atRate held rate dice pairs).2.2 = keeps.map .ok ∧
      (atRate held rate dice pairs).1.sink.linesFrom held.size =
        (writtenOf pairs keeps).map TrainingRecord.bytes ++ [[]] ∧
      correctLines (atRate held rate dice pairs).2.2
          ((atRate held rate dice pairs).1.sink.linesFrom held.size) =
        pairs.map fun pair => pair.correct.bytes) ∧
    ((atRate held 0 dice pairs).2.2 = List.replicate pairs.length (.ok false) ∧
      (atRate held 0 dice pairs).1.sink.linesFrom held.size =
        (pairs.map fun pair => pair.correct.bytes) ++ [[]]) ∧
    ∀ rate, 100 ≤ rate →
      (atRate held rate dice pairs).2.2 = List.replicate pairs.length (.ok true) ∧
      ∀ sampler : Sampler, sampler.balanced = true →
        writePairs { sink := { bytes := held }, sampler } dice pairs =
          ({ (atRate held rate dice pairs).1 with sampler }, dice,
            (atRate held rate dice pairs).2.2) := by
  refine ⟨fun rate rate' h => addsMutants_atRate held dice pairs h,
    fun rate => ⟨((Sampler.ofRate rate).keeps dice pairs.length).1,
      Sampler.length_keeps rate dice pairs.length, ?_, linesFrom_atRate held dice pairs rate,
      correctLines_atRate held dice pairs rate⟩, ⟨?_, ?_⟩, fun rate h => ⟨?_, ?_⟩⟩
  · rw [atRate_eq]
  · rw [atRate_eq, Sampler.keeps_zero, List.map_replicate]
  · rw [linesFrom_atRate, Sampler.keeps_zero, writtenOf_replicate_false, List.map_map]
    rfl
  · rw [atRate_eq, Sampler.keeps_hundred h, List.map_replicate]
  · intro sampler hbalanced
    rw [writePairs_unbounded rfl, atRate_eq, Sampler.keeps_hundred h]
    dsimp only
    rw [Sampler.keeps_balanced hbalanced]
    rfl

end Rates

/-- A comparison and the one that it can be confused with. -/
def comparedPair : RecordPair :=
  let record := TrainingRecord.correct ["<"] []
  ⟨record, { record.markBug .offByOne 0 with sourceTokens := ["<="] }⟩

/-- Dice that give 30 and then 70 of a hundred. -/
def thirtySeventy : Dice := .cycling [1288490189, 3006477108]

/-- Two mutants for which 30 and 70 are drawn.  One of them is kept at a rate of 50, and both are
kept at a rate of 80; the empty line is the one behind the last line end. -/
theorem writePairs_raise_thirtySeventy :
    AddsMutants #[] (atRate #[] 50 thirtySeventy [comparedPair, comparedPair])
      (atRate #[] 80 thirtySeventy [comparedPair, comparedPair]) ∧
    (atRate #[] 50 thirtySeventy [comparedPair, comparedPair]).1.sink.linesFrom 0 =
      [comparedPair.correct.bytes, comparedPair.buggy.bytes, comparedPair.correct.bytes, []] ∧
    (atRate #[] 80 thirtySeventy [comparedPair, comparedPair]).1.sink.linesFrom 0 =
      [comparedPair.correct.bytes, comparedPair.buggy.bytes, comparedPair.correct.bytes,
        comparedPair.buggy.bytes, []] ∧
    (atRate #[] 0 thirtySeventy [comparedPair, comparedPair]).2.2 = [.ok false, .ok false] ∧
    (atRate #[] 100 thirtySeventy [comparedPair, comparedPair]).2.2 = [.ok true, .ok true] := by
  obtain ⟨hraise, -, ⟨hzero, -⟩, hhundred⟩ :=
    writePairs_raise #[] thirtySeventy [comparedPair, comparedPair]
  refine ⟨hraise 50 80 (by decide), ?_, ?_, hzero, (hhundred 100 le_rfl).1⟩
  · have hkeeps : ((Sampler.ofRate 50).keeps thirtySeventy 2).1 = [true, false] := by decide
    refine (linesFrom_atRate #[] thirtySeventy [comparedPair, comparedPair] 50).trans ?_
    rw [List.length_cons, List.length_singleton, hkeeps]
    rfl
  · have hkeeps : ((Sampler.ofRate 80).keeps thirtySeventy 2).1 = [true, true] := by decide
    refine (linesFrom_atRate #[] thirtySeventy [comparedPair, comparedPair] 80).trans ?_
    rw [List.length_cons, List.length_singleton, hkeeps]
    rfl

end DatasetWriter

end CodeGraph
