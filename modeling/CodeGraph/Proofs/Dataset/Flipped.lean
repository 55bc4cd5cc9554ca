/-
# A mutant and its way back

A mutant is its record with one comparison changed into its counterpart and a mark that says where
(`TrainingRecord.FlippedAt`).  Since the counterpart of the counterpart is the comparison itself, the
mutant has the same candidates as its record, and the label at its only repair target tells what the
record was like.  A record has a mutant whatever is drawn, unless it has no comparison, and each of
its comparisons can be the one that is changed (`TrainingRecord.mutate_flips`).
-/
import CodeGraph.Proofs.Dataset.Mutants

namespace CodeGraph

/-! ## Counterparts -/

/-- The counterpart of the counterpart is the comparison itself. -/
theorem offByOne?_symm {label other : String} (h : offByOne? label = some other) :
    offByOne? other = some label := by
  have hall : ∀ operator ∈ relationalOperators,
      (offByOne? operator).bind offByOne? = some operator := by decide
  have hlabel := hall label (offByOne?_isSome_iff.mp (Option.isSome_of_eq_some h))
  rw [h] at hlabel
  exact hlabel

/-- The operator that differs at equality is another one. -/
theorem offByOne?_ne {label other : String} (h : offByOne? label = some other) :
    other ≠ label := by
  have hall : ∀ operator ∈ relationalOperators, offByOne? operator ≠ some operator := by decide
  rintro rfl
  exact hall other (offByOne?_isSome_iff.mp (Option.isSome_of_eq_some h)) h

namespace TrainingRecord

variable {record mutant : TrainingRecord} {dice : Dice} {p : Nat} {label other : String}

/-! ## Candidates -/

/-- Which labels are comparisons decides on the candidates. -/
theorem candidates_eq (record : TrainingRecord) : record.candidates =
    (record.sourceTokens.map fun label => (offByOne? label).isSome).zipIdx.filterMap fun (b, i) =>
      if b then some i else none := by
  rw [candidates, List.zipIdx_map, List.filterMap_map]
  rfl

/-- A comparison that is changed into its counterpart leaves the candidates as they are. -/
theorem candidates_flip (hlabel : record.sourceTokens[p]? = some label)
    (hother : offByOne? label = some other)
    (hmutant : mutant.sourceTokens = record.sourceTokens.set p other) :
    mutant.candidates = record.candidates := by
  have hsame : (offByOne? other).isSome = (offByOne? label).isSome := by
    rw [hother, offByOne?_symm hother]
    rfl
  have hkept : (record.sourceTokens.map fun label => (offByOne? label).isSome)[p]? =
      some (offByOne? label).isSome := by
    rw [List.getElem?_map, hlabel, Option.map_some]
  obtain ⟨hlt, hget⟩ := List.getElem?_eq_some_iff.mp hkept
  rw [candidates_eq, candidates_eq, hmutant, List.map_set, hsame, ← hget, List.set_getElem_self]

/-- There is nothing to change in a record without comparisons. -/
theorem candidates_eq_nil_iff :
    record.candidates = [] ↔ ∀ label ∈ record.sourceTokens, label ∉ relationalOperators := by
  rw [List.eq_nil_iff_forall_not_mem]
  constructor
  · intro hnone label hmem hoperator
    obtain ⟨p, hp⟩ := List.mem_iff_getElem?.mp hmem
    exact hnone p (mem_candidates.mpr ⟨label, hp, offByOne?_isSome_iff.mpr hoperator⟩)
  · intro hnone p hp
    obtain ⟨label, hlabel, hsome⟩ := mem_candidates.mp hp
    exact hnone label (List.mem_of_getElem? hlabel) (offByOne?_isSome_iff.mp hsome)

/-! ## There and back -/

/-- The labels of a record with the comparison at its only repair target changed. -/
def repaired? (mutant : TrainingRecord) : Option (List String) :=
  match mutant.repairTargets with
  | [p] => do
    let original ← offByOne? (← mutant.sourceTokens[p]?)
    return mutant.sourceTokens.set p original
  | _ => none

/-- The mutant is the record with the comparison at a position changed, and says so. -/
structure FlippedAt (record : TrainingRecord) (p : Nat) (mutant : TrainingRecord) : Prop where
  mem_candidates : p ∈ record.candidates
  length_eq : mutant.sourceTokens.length = record.sourceTokens.length
  differs_iff : ∀ i, mutant.sourceTokens[i]? ≠ record.sourceTokens[i]? ↔ i = p
  edges_eq : mutant.edges = record.edges
  repairCandidates_eq : mutant.repairCandidates = record.repairCandidates
  hasBug : mutant.hasBug = true
  errorLocation_eq : mutant.errorLocation = p
  repairTargets_eq : mutant.repairTargets = [p]
  candidates_eq : mutant.candidates = record.candidates
  repaired?_eq : mutant.repaired? = some record.sourceTokens

/-- A label that is set differs from what was there, and no other does. -/
theorem getElem?_set_ne_iff (hlabel : record.sourceTokens[p]? = some label) (hne : other ≠ label)
    (i : Nat) : (record.sourceTokens.set p other)[i]? ≠ record.sourceTokens[i]? ↔ i = p := by
  by_cases hi : i = p
  · subst hi
    have hlt := (List.getElem?_eq_some_iff.mp hlabel).1
    rw [List.getElem?_set_self hlt, hlabel, Ne, Option.some.injEq]
    exact iff_of_true hne rfl
  · rw [List.getElem?_set_ne (Ne.symm hi)]
    exact iff_of_false (fun h => h rfl) hi

/-- **Changing a comparison changes nothing else, and can be taken back.** -/
theorem flippedAt_of_mutateAt? (h : record.mutateAt? p = some mutant) :
    record.FlippedAt p mutant := by
  obtain ⟨label, hlabel, h⟩ := Option.bind_eq_some_iff.mp h
  obtain ⟨other, hother, h⟩ := Option.bind_eq_some_iff.mp h
  obtain rfl := Option.some.inj h
  obtain ⟨hlt, hget⟩ := List.getElem?_eq_some_iff.mp hlabel
  refine
    { mem_candidates := TrainingRecord.mem_candidates.mpr
        ⟨label, hlabel, Option.isSome_of_eq_some hother⟩
      length_eq := List.length_set
      differs_iff := getElem?_set_ne_iff hlabel (offByOne?_ne hother)
      edges_eq := rfl
      repairCandidates_eq := rfl
      hasBug := rfl
      errorLocation_eq := rfl
      repairTargets_eq := rfl
      candidates_eq := candidates_flip hlabel hother rfl
      repaired?_eq := ?_ }
  show (do
    let original ← offByOne? (← (record.sourceTokens.set p other)[p]?)
    return (record.sourceTokens.set p other).set p original) = _
  rw [List.getElem?_set_self hlt, Option.bind_eq_bind, Option.bind_some, offByOne?_symm hother,
    Option.bind_some, List.set_set, ← hget, List.set_getElem_self]
  rfl

/-! ## Picking the position -/

/-- Nothing is drawn for a record without candidates. -/
theorem mutate_of_nil (h : record.candidates = []) (dice : Dice) :
    record.mutate dice = (none, dice) := by
  rw [mutate, h, Dice.pick?_nil]
  rfl

/-- A record with candidates has a mutant whatever is drawn. -/
theorem exists_mutate (h : record.candidates ≠ []) (dice : Dice) :
    ∃ mutant, (record.mutate dice).1 = some mutant := by
  obtain ⟨p, hpick⟩ := Dice.exists_pick? h dice
  obtain ⟨mutant, hmutant, -⟩ := exists_mutateAt? (Dice.mem_of_pick? hpick)
  refine ⟨mutant, ?_⟩
  show (dice.pick? record.candidates).1.bind record.mutateAt? = _
  rw [hpick, Option.bind_some, hmutant]

/-- Only a record without comparisons has no mutant. -/
theorem mutate_eq_none_iff (dice : Dice) :
    (record.mutate dice).1 = none ↔ record.candidates = [] := by
  constructor
  · intro hnone
    by_contra h
    obtain ⟨mutant, hmutant⟩ := exists_mutate h dice
    rw [hnone] at hmutant
    cases hmutant
  · intro h
    rw [mutate_of_nil h]

/-- **A mutant is its record with one comparison flipped.**  Whatever is drawn, a record has no
mutant just if none of its labels is a comparison, and then nothing is drawn; any mutant it has is
flipped at one of its candidates.  Each candidate of a record with fewer than 2³¹ of them is where
the mutant is flipped for some stream of words. -/
theorem mutate_flips (record : TrainingRecord) :
    (∀ dice,
      ((record.mutate dice).1 = none ↔
        ∀ label ∈ record.sourceTokens, label ∉ relationalOperators) ∧
      ((record.mutate dice).1 = none → (record.mutate dice).2 = dice) ∧
      ∀ mutant, (record.mutate dice).1 = some mutant → ∃ p, record.FlippedAt p mutant) ∧
    (record.candidates.length < 2 ^ 31 → ∀ p ∈ record.candidates, ∃ stream mutant,
      (record.mutate { stream }).1 = some mutant ∧ record.FlippedAt p mutant) := by
  refine ⟨fun dice => ⟨?_, fun hnone => ?_, fun mutant hmutant => ?_⟩, fun hcount p hp => ?_⟩
  · rw [mutate_eq_none_iff, candidates_eq_nil_iff]
  · rw [mutate_of_nil ((mutate_eq_none_iff dice).mp hnone)]
  · obtain ⟨p, -, hmutate, -⟩ := exists_of_mutate hmutant
    exact ⟨p, flippedAt_of_mutateAt? hmutate⟩
  · obtain ⟨word, hword⟩ := Dice.exists_word_pick? hp (by show _ ≤ 4294967296; omega)
    obtain ⟨mutant, hmutant, -⟩ := exists_mutateAt? hp
    refine ⟨(Dice.only 0 word 0).stream, mutant, ?_, flippedAt_of_mutateAt? hmutant⟩
    show ((Dice.only 0 word 0).pick? record.candidates).1.bind record.mutateAt? = _
    rw [hword 0, Option.bind_some, hmutant]

end TrainingRecord

end CodeGraph
