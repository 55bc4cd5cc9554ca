/-
# Pairs with the same dice

Pairs are made of the records that the mutator accepts: those with a comparison and, unless records
without edges get mutants too, an edge.  The mutant of each is made with the dice that the pairs
before it leave (`Mutator.MadeFrom`).  A record that is not accepted draws nothing, so the pairs are
those of the accepted records alone, and which these are does not depend on the dice
(`ClassGraph.madeFrom_recordPairs?`).
-/
import CodeGraph.Proofs.Dataset.ErrorLocation
import CodeGraph.Proofs.Dataset.Flipped
import CodeGraph.Proofs.Record.Blocks

namespace CodeGraph

namespace Mutator

variable {mutator : Mutator} {record : TrainingRecord}

/-! ## Accepted records -/

/-- The record is to get a mutant: it has a comparison and, if it needs one, an edge. -/
def Accepts (mutator : Mutator) (record : TrainingRecord) : Prop :=
  (∃ label ∈ record.sourceTokens, label ∈ relationalOperators) ∧
    (mutator.skipEmptyRecords = true → record.edges ≠ [])

instance (mutator : Mutator) : DecidablePred mutator.Accepts := fun record =>
  inferInstanceAs (Decidable ((∃ label ∈ record.sourceTokens, label ∈ relationalOperators) ∧
    (mutator.skipEmptyRecords = true → record.edges ≠ [])))

/-- A record is skipped if it needs an edge and has none. -/
theorem skips_iff (mutator : Mutator) (record : TrainingRecord) :
    (mutator.skipEmptyRecords && record.edges.isEmpty) = true ↔
      ¬ (mutator.skipEmptyRecords = true → record.edges ≠ []) := by
  rw [Bool.and_eq_true, List.isEmpty_iff, Classical.not_imp, not_not]

/-- A record that is not accepted gets no mutant, and nothing is drawn for it. -/
theorem pair_of_not_accepts (h : ¬ mutator.Accepts record) (dice : Dice) :
    mutator.pair record dice = (none, dice) := by
  rw [pair]
  split
  · rfl
  · next hskips =>
    rw [skips_iff, not_not] at hskips
    have hnone : record.candidates = [] := by
      rw [TrainingRecord.candidates_eq_nil_iff]
      exact fun label hmem hoperator => h ⟨⟨label, hmem, hoperator⟩, hskips⟩
    rw [TrainingRecord.mutate_of_nil hnone]
    rfl

/-- A record that is accepted gets a mutant, whatever is drawn. -/
theorem exists_pair_of_accepts (h : mutator.Accepts record) (dice : Dice) :
    ∃ buggy next, record.mutate dice = (some buggy, next) ∧
      mutator.pair record dice = (some ⟨record, buggy⟩, next) := by
  obtain ⟨⟨label, hmem, hoperator⟩, hedges⟩ := h
  have hsome : record.candidates ≠ [] := by
    rw [Ne, TrainingRecord.candidates_eq_nil_iff]
    exact fun hnone => hnone label hmem hoperator
  obtain ⟨buggy, hbuggy⟩ := TrainingRecord.exists_mutate hsome dice
  have hmutate : record.mutate dice = (some buggy, (record.mutate dice).2) :=
    Prod.ext hbuggy rfl
  refine ⟨buggy, (record.mutate dice).2, hmutate, ?_⟩
  rw [pair, if_neg, hmutate]
  · rfl
  · rw [skips_iff, not_not]
    exact hedges

/-! ## One pair after another -/

/-- The pairs are made one after another with these dice, which become those at the end. -/
inductive MadeFrom : Dice → List RecordPair → Dice → Prop
  | nil (dice : Dice) : MadeFrom dice [] dice
  | cons {dice next last : Dice} {pair : RecordPair} {pairs : List RecordPair}
      (first : pair.correct.mutate dice = (some pair.buggy, next))
      (later : MadeFrom next pairs last) : MadeFrom dice (pair :: pairs) last

/-- A record that is not accepted can be left out. -/
theorem pairs_cons_of_not_accepts (h : ¬ mutator.Accepts record)
    (records : List TrainingRecord) :
    mutator.pairs (record :: records) = mutator.pairs records := by
  funext dice
  rw [pairs, pair_of_not_accepts h]
  rfl

/-- Only the accepted records count. -/
theorem pairs_filter (mutator : Mutator) (records : List TrainingRecord) :
    mutator.pairs (records.filter mutator.Accepts) = mutator.pairs records := by
  induction records with
  | nil => rfl
  | cons record records ih =>
    by_cases h : mutator.Accepts record
    · funext dice
      rw [List.filter_cons_of_pos (by rwa [decide_eq_true_eq]), pairs, pairs, ih]
    · rw [List.filter_cons_of_neg (by rwa [decide_eq_true_eq]), ih, pairs_cons_of_not_accepts h]

/-- Lists with the same accepted records have the same pairs, and draw the same. -/
theorem pairs_congr {records kept : List TrainingRecord}
    (h : kept.filter mutator.Accepts = records.filter mutator.Accepts) :
    mutator.pairs kept = mutator.pairs records := by
  rw [← pairs_filter, h, pairs_filter]

/-- **Each accepted record gets its mutant from the dice that are left for it.** -/
theorem madeFrom_pairs (mutator : Mutator) (records : List TrainingRecord) (dice : Dice) :
    (mutator.pairs records dice).1.map RecordPair.correct = records.filter mutator.Accepts ∧
      MadeFrom dice (mutator.pairs records dice).1 (mutator.pairs records dice).2 := by
  induction records generalizing dice with
  | nil => exact ⟨rfl, .nil dice⟩
  | cons record records ih =>
    by_cases h : mutator.Accepts record
    · obtain ⟨buggy, next, hmutate, hpair⟩ := exists_pair_of_accepts h dice
      obtain ⟨hcorrect, hmade⟩ := ih next
      rw [List.filter_cons_of_pos (by rwa [decide_eq_true_eq]), ← hcorrect, pairs, hpair]
      exact ⟨rfl, .cons hmutate hmade⟩
    · rw [List.filter_cons_of_neg (by rwa [decide_eq_true_eq]), pairs_cons_of_not_accepts h]
      exact ih dice

-- a record without a comparison and one without an edge stand between the two that are paired, and
-- the first of these takes two words
example :
    let edges := [RecordEdge.ofKind 0 1 .nextToken]
    let records : List TrainingRecord :=
      [.correct ["<", "<=", ">"] edges, .correct ["a", "b"] edges, .correct ["<"] [],
        .correct [">=", "0"] edges]
    let made := Mutator.pairs {} records (.cycling [1431655765, 4294967295, 7])
    made.1.map (fun pair => (pair.correct.sourceTokens, pair.buggy.sourceTokens)) =
      [(["<", "<=", ">"], ["<", "<", ">"]), ([">=", "0"], [">", "0"])] ∧ made.2.drawn = 3 := by
  decide

end Mutator

/-! ## Pairs of a class -/

/-- **The pairs of a class are those of its accepted records**, made one after another.  A class
that is built has a record for each method unless the numbers run out, and of any records that it
has just the accepted ones are paired, in the order of the methods and whatever the dice are.  The
mutant of each comes from the dice that the pairs before it leave.  Nothing is drawn for a record
that is not accepted, so records of this kind can be left out and no pair and no draw changes. -/
theorem ClassGraph.madeFrom_recordPairs? (mutator : Mutator) :
    (∀ builder : ClassBuilder, builder.IsRun →
      builder.build.walk .fresh ≠ .error .idsExhausted →
        builder.build.records? = some builder.build.methodRecords) ∧
    (∀ (graph : ClassGraph) records, graph.records? = some records →
      List.Forall₂ (fun block record => recordsOf? block = some [record])
        (graph.blocksFrom IdSequence.fresh.next) records ∧
      ∀ dice, ∃ pairs log rest, graph.recordPairs? mutator dice = some (pairs, log, rest) ∧
        mutator.pairs records dice = (pairs, rest) ∧
        pairs.map RecordPair.correct = records.filter mutator.Accepts ∧
        Mutator.MadeFrom dice pairs rest) ∧
    (∀ record, ¬ mutator.Accepts record → ∀ dice, mutator.pair record dice = (none, dice)) ∧
    ∀ records kept, kept.filter mutator.Accepts = records.filter mutator.Accepts →
      ∀ dice, mutator.pairs kept dice = mutator.pairs records dice := by
  refine ⟨fun builder hrun hids => hrun.sound.records?_eq hids,
    fun graph records hrecords => ⟨forall₂_blocks hrecords, fun dice => ?_⟩,
    fun record hnot => Mutator.pair_of_not_accepts hnot,
    fun records kept hkept dice => congrFun (Mutator.pairs_congr hkept) dice⟩
  obtain ⟨hcorrect, hmade⟩ := mutator.madeFrom_pairs records dice
  obtain ⟨log, hpairs⟩ := recordPairs?_of_records? hrecords mutator dice
  exact ⟨_, log, _, hpairs, rfl, hcorrect, hmade⟩

/-- Three methods, of which the second has no comparison. -/
def comparingSteps : List Session.Step :=
  [.openMethod "less/0", .move (.emit "<" .plain), .move (.emit "0" .plain), .close, .add 0,
    .openMethod "same/0", .move (.emit "==" .plain), .move (.emit "0" .plain), .close, .add 1,
    .openMethod "both/0", .move (.emit "<" .plain), .move (.emit ">=" .plain), .close, .add 2]

/-- The class of these methods. -/
def comparingBuilder : ClassBuilder :=
  ((Session.start "C").run comparingSteps).builder?.getD { name := "C" }

/-- The record of a method with two tokens at its root. -/
def twoTokens (first second : String) : TrainingRecord :=
  .correct ["MethodDeclaration", first, second]
    [.ofKind 1 2 .nextToken, .ofKind 0 1 .child, .ofKind 0 2 .child]

/-- The class with three methods is built by a run. -/
theorem isRun_comparingBuilder : comparingBuilder.IsRun :=
  ⟨"C", comparingSteps, by decide, by decide +kernel⟩

/-- The class with three methods can be walked. -/
theorem walk_comparingBuilder : comparingBuilder.build.walk .fresh ≠ .error .idsExhausted :=
  ne_error_of_toBool (by decide +kernel) _

/-- Of three records the one without a comparison gets no mutant.  Nothing is drawn for it, so the
second of the two pairs is made with the second word. -/
theorem ClassGraph.madeFrom_recordPairs?_comparing :
    comparingBuilder.IsRun ∧
    comparingBuilder.build.records? =
      some [twoTokens "<" "0", twoTokens "==" "0", twoTokens "<" ">="] ∧
    (∀ dice, ∃ pairs log rest,
      comparingBuilder.build.recordPairs? {} dice = some (pairs, log, rest) ∧
      pairs.map RecordPair.correct = [twoTokens "<" "0", twoTokens "<" ">="] ∧
      Mutator.MadeFrom dice pairs rest) ∧
    (∃ pairs log rest,
      comparingBuilder.build.recordPairs? {} (.cycling [7, 2147483648]) = some (pairs, log, rest) ∧
      pairs.map (·.buggy.sourceTokens) =
        [["MethodDeclaration", "<=", "0"], ["MethodDeclaration", "<", ">"]] ∧
      rest.drawn = 2) ∧
    ∀ dice, Mutator.pair {} (twoTokens "==" "0") dice = (none, dice) := by
  obtain ⟨hrun, hgraph, hskipped, -⟩ := madeFrom_recordPairs? {}
  have hrecords : comparingBuilder.build.records? =
      some [twoTokens "<" "0", twoTokens "==" "0", twoTokens "<" ">="] := by
    rw [hrun comparingBuilder isRun_comparingBuilder walk_comparingBuilder]
    exact congrArg some (by decide +kernel)
  have hmade := (hgraph comparingBuilder.build _ hrecords).2
  refine ⟨isRun_comparingBuilder, hrecords, fun dice => ?_, ?_, hskipped _ (by decide)⟩
  · obtain ⟨pairs, log, rest, hpairs, -, hcorrect, hfrom⟩ := hmade dice
    exact ⟨pairs, log, rest, hpairs, hcorrect.trans (by decide), hfrom⟩
  · obtain ⟨pairs, log, rest, hpairs, hdrawn, -, -⟩ := hmade (.cycling [7, 2147483648])
    have hfirst : (Mutator.pairs {} _ (.cycling [7, 2147483648])).1 = pairs :=
      congrArg Prod.fst hdrawn
    have hlast : (Mutator.pairs {} _ (.cycling [7, 2147483648])).2 = rest :=
      congrArg Prod.snd hdrawn
    refine ⟨pairs, log, rest, hpairs, ?_, ?_⟩
    · rw [← hfirst]
      decide +kernel
    · rw [← hlast]
      decide +kernel

end CodeGraph
