/-
# Which mutants there are

A mutant differs from its record at one position, where the record has a comparison
(`Mutator.exists_of_mem_pairs`).  Any of these positions can be hit: for each comparison of each
record there are dice that change it (`Mutator.exists_dice`).
-/
import CodeGraph.Dataset.Mutation
import CodeGraph.Proofs.Random.Pick

namespace CodeGraph

/-! ## Comparisons -/

/-- The comparisons are the labels that can be changed. -/
theorem offByOne?_isSome_iff {label : String} :
    (offByOne? label).isSome ↔ label ∈ relationalOperators := by
  constructor
  · intro h
    unfold offByOne? at h
    split at h
    · decide
    · decide
    · decide
    · decide
    · cases h
  · intro h
    have hall : ∀ operator ∈ relationalOperators, (offByOne? operator).isSome := by decide
    exact hall label h

/-! ## Mutants of a record -/

namespace TrainingRecord

variable {record mutant : TrainingRecord} {dice : Dice} {p : Nat}

/-- The candidates are the positions of comparisons. -/
theorem mem_candidates : p ∈ record.candidates ↔
    ∃ label, record.sourceTokens[p]? = some label ∧ (offByOne? label).isSome := by
  rw [candidates, List.mem_filterMap]
  constructor
  · rintro ⟨⟨label, i⟩, hmem, h⟩
    obtain ⟨hlabel, heq⟩ := Option.ite_none_right_eq_some.mp h
    obtain rfl := Option.some.inj heq
    exact ⟨label, List.mk_mem_zipIdx_iff_getElem?.mp hmem, hlabel⟩
  · rintro ⟨label, hp, hlabel⟩
    exact ⟨(label, p), List.mk_mem_zipIdx_iff_getElem?.mpr hp, if_pos hlabel⟩

theorem length_candidates_le : record.candidates.length ≤ record.sourceTokens.length := by
  rw [candidates]
  exact (List.length_filterMap_le _ _).trans_eq List.length_zipIdx

/-- Each candidate can be changed, and the mutant says where. -/
theorem exists_mutateAt? (h : p ∈ record.candidates) :
    ∃ mutant, record.mutateAt? p = some mutant ∧ mutant.errorLocation = p := by
  obtain ⟨label, hp, hlabel⟩ := mem_candidates.mp h
  obtain ⟨replacement, hreplacement⟩ := Option.isSome_iff_exists.mp hlabel
  rw [mutateAt?, hp, Option.bind_eq_bind, Option.bind_some, hreplacement]
  exact ⟨_, rfl, rfl⟩

/-- What is changed is a candidate. -/
theorem exists_of_mutate (h : (record.mutate dice).1 = some mutant) :
    ∃ p ∈ record.candidates, record.mutateAt? p = some mutant ∧ mutant.errorLocation = p := by
  obtain ⟨p, hpick, hmutant⟩ := Option.bind_eq_some_iff.mp h
  have hp := Dice.mem_of_pick? hpick
  obtain ⟨other, hother, hlocation⟩ := exists_mutateAt? hp
  obtain rfl := Option.some.inj (hmutant.symm.trans hother)
  exact ⟨p, hp, hmutant, hlocation⟩

end TrainingRecord

/-! ## Mutants of pairs -/

namespace Mutator

variable {mutator : Mutator} {records : List TrainingRecord} {record : TrainingRecord}
  {pair : RecordPair} {dice : Dice}

theorem pairs_cons (mutator : Mutator) (record : TrainingRecord) (records : List TrainingRecord)
    (dice : Dice) : (mutator.pairs (record :: records) dice).1 =
      (mutator.pair record dice).1.toList ++
        (mutator.pairs records (mutator.pair record dice).2).1 := rfl

/-- A pair is a record and the record with one comparison changed. -/
theorem exists_of_pair (h : (mutator.pair record dice).1 = some pair) : pair.correct = record ∧
    ∃ p ∈ record.candidates, record.mutateAt? p = some pair.buggy ∧
      pair.buggy.errorLocation = p := by
  rw [Mutator.pair] at h
  split at h
  · cases h
  · obtain ⟨mutant, hmutant, rfl⟩ := Option.map_eq_some_iff.mp h
    exact ⟨rfl, TrainingRecord.exists_of_mutate hmutant⟩

/-- **A mutant is one of the records with a comparison changed.** -/
theorem exists_of_mem_pairs (h : pair ∈ (mutator.pairs records dice).1) :
    pair.correct ∈ records ∧ ∃ p ∈ pair.correct.candidates,
      pair.correct.mutateAt? p = some pair.buggy ∧ pair.buggy.errorLocation = p := by
  induction records generalizing dice with
  | nil => cases h
  | cons record records ih =>
    rw [pairs_cons, List.mem_append] at h
    rcases h with hhere | hlater
    · obtain ⟨rfl, hmutant⟩ := exists_of_pair (Option.mem_toList.mp hhere)
      exact ⟨List.mem_cons_self, hmutant⟩
    · obtain ⟨hmem, hmutant⟩ := ih hlater
      exact ⟨List.mem_cons_of_mem record hmem, hmutant⟩

/-- Makes pairs of all records that have a comparison. -/
def keepEmptyRecords : Mutator := { skipEmptyRecords := false }

/-- Whether or not it has edges, a record is paired with its mutant. -/
theorem pair_keepEmptyRecords (record : TrainingRecord) (dice : Dice) :
    keepEmptyRecords.pair record dice =
      ((record.mutate dice).1.map fun buggy => { correct := record, buggy },
        (record.mutate dice).2) := rfl

/-- Every candidate of a record can be picked at any time. -/
theorem exists_word_pair {p : Nat} (hp : p ∈ record.candidates)
    (hcount : record.candidates.length ≤ UInt32.size) :
    ∃ word, ∀ d, ∃ pair, (keepEmptyRecords.pair record (.only d word d)).1 = some pair ∧
      pair.correct = record ∧ pair.buggy.errorLocation = p := by
  obtain ⟨word, hpick⟩ := Dice.exists_word_pick? hp hcount
  obtain ⟨mutant, hmutant, hlocation⟩ := TrainingRecord.exists_mutateAt? hp
  refine ⟨word, fun d => ⟨⟨record, mutant⟩, ?_, rfl, hlocation⟩⟩
  have hmutate : (record.mutate (.only d word d)).1 = some mutant := by
    show ((Dice.only d word d).pick? record.candidates).1.bind record.mutateAt? = some mutant
    rw [hpick d]
    exact hmutant
  rw [pair_keepEmptyRecords, hmutate]
  rfl

/-- A word of zero is used up by a record with a comparison, and by no other. -/
theorem pair_only (record : TrainingRecord) {d : Nat} (word : UInt32) {drawn : Nat}
    (hd : record.candidates ≠ [] → d ≠ drawn) :
    (keepEmptyRecords.pair record (.only d word drawn)).2 =
      .only d word (drawn + if record.candidates = [] then 0 else 1) := by
  show ((Dice.only d word drawn).pick? record.candidates).2 = _
  split
  · next hnil =>
    rw [hnil]
    rfl
  · next hcandidates =>
    have hzero : (Dice.only d word drawn).stream drawn = 0 := if_neg (hd hcandidates).symm
    rw [Dice.pick?_of_zero hcandidates hzero]
    rfl

/-- **Every comparison of every record can be changed.** -/
theorem exists_dice {p : Nat} (hmem : record ∈ records) (hp : p ∈ record.candidates)
    (hcount : record.candidates.length ≤ UInt32.size) :
    ∃ dice, ∃ pair ∈ (keepEmptyRecords.pairs records dice).1,
      pair.correct = record ∧ pair.buggy.errorLocation = p := by
  -- the records before get zeros, and the record itself the word that picks the position
  obtain ⟨word, hword⟩ := exists_word_pair hp hcount
  suffices h : ∀ start, ∃ d ≥ start, ∃ pair ∈ (keepEmptyRecords.pairs records (.only d word start)).1,
      pair.correct = record ∧ pair.buggy.errorLocation = p by
    obtain ⟨d, -, hpair⟩ := h 0
    exact ⟨_, hpair⟩
  induction records with
  | nil => cases hmem
  | cons first records ih =>
    intro start
    by_cases hfirst : first = record
    · subst hfirst
      obtain ⟨pair, hpair, hsays⟩ := hword start
      refine ⟨start, Nat.le_refl start, pair, ?_, hsays⟩
      rw [pairs_cons, hpair]
      exact List.mem_append_left _ (List.mem_singleton_self pair)
    · have hlater := (List.mem_cons.mp hmem).resolve_left (Ne.symm hfirst)
      obtain ⟨d, hd, pair, hpair, hsays⟩ :=
        ih hlater (start + if first.candidates = [] then 0 else 1)
      refine ⟨d, by omega, pair, ?_, hsays⟩
      rw [pairs_cons, pair_only first word fun hcandidates => ?_]
      · exact List.mem_append_right _ hpair
      · rw [if_neg hcandidates] at hd
        omega

end Mutator

end CodeGraph
