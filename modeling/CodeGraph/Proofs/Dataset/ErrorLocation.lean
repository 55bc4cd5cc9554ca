/-
# Where mutants differ from their records

Comparisons are looked for among all labels of a record.  No node is called like one, but a symbol of
the method or a word of the class may be, and then there are dice that change it instead of a token
(`Tree.exists_recordPairs`).
-/
import CodeGraph.Dataset.Writer
import CodeGraph.Proofs.Dataset.Mutants
import CodeGraph.Proofs.Graph.Label
import CodeGraph.Proofs.Record.Composed
import CodeGraph.Proofs.Record.WellTyped
import CodeGraph.Proofs.Walk.Announced

namespace CodeGraph

/-! ## Labels that are comparisons -/

/-- The label of a node has letters in it, and a comparison has none. -/
theorem NonTerminal.label_not_mem_relationalOperators (node : NonTerminal) :
    node.label ∉ relationalOperators := by
  intro hmem
  have hoperator : ∀ operator ∈ relationalOperators,
      operator.toList.all (fun c => !c.isAlpha) = true := by decide +kernel
  have hname : node.kind.name.toList ≠ [] := fun hnil =>
    node.kind.name_ne_empty (String.toList_inj.mp hnil)
  obtain ⟨c, hc⟩ := List.exists_mem_of_ne_nil _ hname
  have hlabel : c ∈ node.label.toList := by
    rw [node.toList_label]
    exact List.mem_append_left _ hc
  have hnone := List.all_eq_true.mp (hoperator node.label hmem) c hlabel
  rw [Kind.isAlpha_of_mem_name hc] at hnone
  cases hnone

/-! ## Sections of a record -/

namespace ClassGraph

variable {graph : ClassGraph} {method : MethodGraph} {index p : Nat} {label : String}

/-- A label of a record is that of a node, a token, a symbol or a word, by its section. -/
theorem label_cases (h : method.Shaped)
    (hp : (graph.recordOf method index).sourceTokens[p]? = some label) :
    (graph.InSection method index .node p ∧ ∃ node, label = NonTerminal.label node) ∨
    graph.InSection method index .token p ∨
    (graph.InSection method index .symbol p ∧ label ∈ method.symbols) ∨
    (graph.InSection method index .word p ∧ label ∈ graph.vocabulary) := by
  have hlt := (List.getElem?_eq_some_iff.mp hp).1
  have hlength := hlt
  rw [length_sourceTokens h] at hlength
  rcases Nat.lt_or_ge p method.nodes.size with hnode | hnode
  · have hlabel : (method.labelsIn graph.vocabulary)[p]? = _ :=
      h.getElem?_labelsIn_node (Array.getElem?_eq_getElem hnode)
    exact Or.inl ⟨hnode, _, Option.some.inj (hp.symm.trans hlabel)⟩
  rcases Nat.lt_or_ge p (method.nodes.size + method.tokens.size) with htoken | htoken
  · exact Or.inr (Or.inl ⟨hnode, htoken⟩)
  rcases Nat.lt_or_ge p (method.nodes.size + method.tokens.size + method.symbols.size) with
    hsymbol | hsymbol
  · obtain ⟨s, rfl⟩ := Nat.exists_eq_add_of_le htoken
    have hs : s < method.symbols.size := by omega
    have hlabel : (method.labelsIn graph.vocabulary)[method.symbolPosition s]? = _ :=
      h.getElem?_labelsIn_symbol (Array.getElem?_eq_getElem hs)
    refine Or.inr (Or.inr (Or.inl ⟨⟨htoken, hsymbol⟩, ?_⟩))
    rw [Option.some.inj (hp.symm.trans hlabel)]
    exact Array.getElem_mem hs
  · obtain ⟨w, rfl⟩ := Nat.exists_eq_add_of_le hsymbol
    have hw : w < graph.vocabulary.size := by omega
    have hlabel : (method.labelsIn graph.vocabulary)[method.wordPosition w]? = _ :=
      h.getElem?_labelsIn_word (Array.getElem?_eq_getElem hw)
    refine Or.inr (Or.inr (Or.inr ⟨⟨hsymbol, hlt⟩, ?_⟩))
    rw [Option.some.inj (hp.symm.trans hlabel)]
    exact Array.getElem_mem hw

/-- A comparison in a record is not the label of a node. -/
theorem section_of_mem_candidates (h : method.Shaped)
    (hp : p ∈ (graph.recordOf method index).candidates) :
    ∃ label sort, (graph.recordOf method index).sourceTokens[p]? = some label ∧
      label ∈ relationalOperators ∧ sort ≠ .node ∧ graph.InSection method index sort p ∧
      (sort = .token ∨ label ∈ method.symbols ∨ label ∈ graph.vocabulary) := by
  obtain ⟨label, hlabel, hsome⟩ := TrainingRecord.mem_candidates.mp hp
  have hoperator := offByOne?_isSome_iff.mp hsome
  rcases label_cases h hlabel with ⟨-, node, rfl⟩ | hsection | ⟨hsection, hmem⟩ | ⟨hsection, hmem⟩
  · exact absurd hoperator node.label_not_mem_relationalOperators
  · exact ⟨label, .token, hlabel, hoperator, by decide, hsection, Or.inl rfl⟩
  · exact ⟨label, .symbol, hlabel, hoperator, by decide, hsection, Or.inr (Or.inl hmem)⟩
  · exact ⟨label, .word, hlabel, hoperator, by decide, hsection, Or.inr (Or.inr hmem)⟩

/-- A symbol or a word that is a comparison is a candidate that is no token. -/
theorem exists_candidate (h : method.Shaped) (index : Nat)
    (hoperator : label ∈ relationalOperators)
    (hmem : label ∈ method.symbols ∨ label ∈ graph.vocabulary) :
    ∃ p ∈ (graph.recordOf method index).candidates, ¬ graph.InSection method index .token p := by
  have hsome := offByOne?_isSome_iff.mpr hoperator
  rcases hmem with hsymbol | hword
  · obtain ⟨s, hs⟩ := Array.mem_iff_getElem?.mp hsymbol
    refine ⟨method.symbolPosition s,
      TrainingRecord.mem_candidates.mpr ⟨label, h.getElem?_labelsIn_symbol hs, hsome⟩, ?_⟩
    rintro ⟨-, hlt⟩
    rw [MethodGraph.symbolPosition] at hlt
    omega
  · obtain ⟨w, hw⟩ := Array.mem_iff_getElem?.mp hword
    refine ⟨method.wordPosition w,
      TrainingRecord.mem_candidates.mpr ⟨label, h.getElem?_labelsIn_word hw, hsome⟩, ?_⟩
    rintro ⟨-, hlt⟩
    rw [MethodGraph.wordPosition] at hlt
    omega

/-! ## Pairs of a class -/

/-- The mutant differs from its record in a token, whichever method of the class the record is of. -/
def ChangesToken (graph : ClassGraph) (pair : RecordPair) : Prop :=
  ∀ (index : Nat) (method : MethodGraph), graph.methods[index]? = some method →
    pair.correct = graph.recordOf method index →
      graph.InSection method index .token pair.buggy.errorLocation

/-- The records of the methods, in the order of the methods. -/
def methodRecords (graph : ClassGraph) : List TrainingRecord :=
  graph.methods.zipIdx.map fun (method, index) => graph.recordOf method index

theorem mem_methodRecords {record : TrainingRecord} : record ∈ graph.methodRecords ↔
    ∃ index method, graph.methods[index]? = some method ∧
      record = graph.recordOf method index := by
  rw [methodRecords, List.mem_map]
  constructor
  · rintro ⟨⟨method, index⟩, hmem, rfl⟩
    exact ⟨index, method, List.mk_mem_zipIdx_iff_getElem?.mp hmem, rfl⟩
  · rintro ⟨index, method, hmethod, rfl⟩
    exact ⟨(method, index), List.mk_mem_zipIdx_iff_getElem?.mpr hmethod, rfl⟩

/-- The pairs of a class are made of its records. -/
theorem recordPairs?_of_records? {records : List TrainingRecord} (h : graph.records? = some records)
    (mutator : Mutator) (dice : Dice) : ∃ log, graph.recordPairs? mutator dice =
      some ((mutator.pairs records dice).1, log, (mutator.pairs records dice).2) := by
  rw [recordPairs?, h]
  exact ⟨_, rfl⟩

namespace Sound

/-- The pairs of a sound class are made of the records of its methods. -/
theorem recordPairs?_eq (h : graph.Sound) (hids : graph.walk .fresh ≠ .error .idsExhausted)
    (mutator : Mutator) (dice : Dice) :
    ∃ log, graph.recordPairs? mutator dice =
      some ((mutator.pairs graph.methodRecords dice).1, log,
        (mutator.pairs graph.methodRecords dice).2) :=
  recordPairs?_of_records? (h.records?_eq hids) mutator dice

/-- A record has no more labels than there are numbers. -/
theorem length_sourceTokens_le (h : graph.Sound)
    (hids : graph.walk .fresh ≠ .error .idsExhausted)
    (hmethod : graph.methods[index]? = some method) :
    (graph.recordOf method index).sourceTokens.length ≤ UInt32.size := by
  obtain ⟨layouts, rest, hlayouts, -⟩ := h.walk_eq hids
  have hmem := List.mem_of_getElem? hmethod
  have hcount : graph.idCount ≤ idLimit := by
    have hrest := (h.walk_eq_ok hlayouts).2
    have hlimit := rest.next_le
    omega
  have hown : (graph.recordOf method index).sourceTokens.length ≤ graph.idCount := by
    rw [length_sourceTokens (h.shaped method hmem), idCount]
    exact List.le_sum_of_mem (List.mem_map_of_mem hmem)
  exact (hown.trans hcount).trans (Nat.sub_le _ _)

/-- All pairs change a token if no symbol and no word is a comparison. -/
theorem changesToken (h : graph.Sound) (hnone : ∀ method ∈ graph.methods,
      ∀ operator ∈ relationalOperators, operator ∉ method.symbols ∧ operator ∉ graph.vocabulary)
    {mutator : Mutator} {dice : Dice} {pair : RecordPair}
    (hpair : pair ∈ (mutator.pairs graph.methodRecords dice).1) : graph.ChangesToken pair := by
  intro index method hmethod hrecord
  have hmem := List.mem_of_getElem? hmethod
  obtain ⟨-, p, hp, -, rfl⟩ := Mutator.exists_of_mem_pairs hpair
  rw [hrecord] at hp
  obtain ⟨label, sort, -, hoperator, -, hsection, rfl | hlabel⟩ :=
    section_of_mem_candidates (h.shaped method hmem) hp
  · exact hsection
  · obtain ⟨hsymbol, hword⟩ := hnone method hmem label hoperator
    exact absurd hlabel (not_or.mpr ⟨hsymbol, hword⟩)

/-- A symbol or a word that is a comparison is changed by some dice. -/
theorem exists_not_changesToken (h : graph.Sound)
    (hids : graph.walk .fresh ≠ .error .idsExhausted) (hmethod : graph.methods[index]? = some method)
    (hoperator : label ∈ relationalOperators)
    (hmem : label ∈ method.symbols ∨ label ∈ graph.vocabulary) :
    ∃ dice, ∃ pair ∈ (Mutator.keepEmptyRecords.pairs graph.methodRecords dice).1,
      ¬ graph.ChangesToken pair := by
  have hshaped := h.shaped method (List.mem_of_getElem? hmethod)
  obtain ⟨p, hp, houtside⟩ := exists_candidate hshaped index hoperator hmem
  have hcount := (TrainingRecord.length_candidates_le).trans (h.length_sourceTokens_le hids hmethod)
  obtain ⟨dice, pair, hpair, hrecord, rfl⟩ :=
    Mutator.exists_dice (mem_methodRecords.mpr ⟨index, method, hmethod, rfl⟩) hp hcount
  exact ⟨dice, pair, hpair, fun hall => houtside (hall index method hmethod hrecord)⟩

end Sound

end ClassGraph

/-! ## Pairs of a tree -/

namespace Tree

/-- **Where the mutants of a tree differ from their records.**  If a tree gives the graph of a class,
then unless the numbers run out there are pairs for all settings and dice.  Each is of the record of
a method, and its mutant differs where this has a comparison: in a token, a symbol or a word, but not
in a node.  It is a token whatever the settings and the dice just if no symbol of a method and no
word of its class is a comparison. -/
theorem exists_recordPairs {tree : Tree} {graph : ClassGraph}
    (h : tree.classGraph? = .ok (some graph)) (hids : graph.walk .fresh ≠ .error .idsExhausted) :
    (∀ (mutator : Mutator) (dice : Dice), ∃ pairs log rest,
      graph.recordPairs? mutator dice = some (pairs, log, rest) ∧
      ∀ pair ∈ pairs, ∃ index method, graph.methods[index]? = some method ∧
        pair.correct = graph.recordOf method index ∧
        ∃ label sort, pair.correct.sourceTokens[pair.buggy.errorLocation]? = some label ∧
          label ∈ relationalOperators ∧ sort ≠ .node ∧
          graph.InSection method index sort pair.buggy.errorLocation) ∧
    ((∀ (mutator : Mutator) (dice : Dice) pairs log rest,
        graph.recordPairs? mutator dice = some (pairs, log, rest) →
          ∀ pair ∈ pairs, graph.ChangesToken pair) ↔
      ∀ method ∈ graph.methods, ∀ operator ∈ relationalOperators,
        operator ∉ method.symbols ∧ operator ∉ graph.vocabulary) := by
  obtain ⟨builder, hrun, rfl⟩ := exists_isRun_of_classGraph? h
  have hsound := hrun.sound
  refine ⟨fun mutator dice => ?_, ?_, ?_⟩
  · obtain ⟨log, hpairs⟩ := hsound.recordPairs?_eq hids mutator dice
    refine ⟨_, log, _, hpairs, fun pair hpair => ?_⟩
    obtain ⟨hmem, p, hp, -, rfl⟩ := Mutator.exists_of_mem_pairs hpair
    obtain ⟨index, method, hmethod, hrecord⟩ := ClassGraph.mem_methodRecords.mp hmem
    rw [hrecord] at hp ⊢
    obtain ⟨label, sort, hlabel, hoperator, hnode, hsection, -⟩ :=
      ClassGraph.section_of_mem_candidates
        (hsound.shaped method (List.mem_of_getElem? hmethod)) hp
    exact ⟨index, method, hmethod, rfl, label, sort, hlabel, hoperator, hnode, hsection⟩
  · intro hall method hmem operator hoperator
    by_contra hcon
    obtain ⟨index, hmethod⟩ := List.mem_iff_getElem?.mp hmem
    rw [not_and_or, not_not, not_not] at hcon
    obtain ⟨dice, pair, hpair, hnot⟩ :=
      hsound.exists_not_changesToken hids hmethod hoperator hcon
    obtain ⟨log, hpairs⟩ := hsound.recordPairs?_eq hids .keepEmptyRecords dice
    exact hnot (hall _ dice _ log _ hpairs pair hpair)
  · intro hnone mutator dice pairs log rest heq pair hpair
    obtain ⟨log', hpairs⟩ := hsound.recordPairs?_eq hids mutator dice
    obtain ⟨rfl, -⟩ := Prod.mk.inj (Option.some.inj (heq.symm.trans hpairs))
    exact hsound.changesToken hnone hpair

/-! ## A comparison in a literal -/

/-- A method that returns a text in which a comparison stands between two underscores. -/
def literalTree : Tree where
  kind := .typeDeclaration
  name := some "C"
  children := .node .methodDeclaration none (some "f:0")
    (.token "f" .identifier
      (.node .returnStatement none none
        (.token "return" .plain (.token "\"a_<_b\"" .literal .nil)) .nil)) .nil

/-- The graph of that method. None of its tokens is a comparison. -/
def literalMethod : MethodGraph where
  signature := "f:0"
  nodes := #[
    { kind := .methodDeclaration, children := [1], tokens := [0] },
    { kind := .returnStatement, parent := some 0, tokens := [1, 2] }]
  tokens := #[
    { text := "f", owner := 0, symbol := some 0, vocabulary := [0] },
    { text := "return", owner := 1 },
    { text := "\"a_<_b\"", owner := 1, vocabulary := [1, 2, 3] }]
  symbols := #["f"]

/-- The graph of its class. One of the words is a comparison. -/
def literalGraph : ClassGraph where
  name := "C"
  methods := [literalMethod]
  vocabulary := #["f", "\"a", "<", "b\""]
  invocations := { callers := ["f:0"] }

/-- The literal with the comparison is split into words, of which the comparison is one. -/
theorem classGraph?_literalTree : literalTree.classGraph? = .ok (some literalGraph) :=
  eq_ok_of_toOption (by decide +kernel)

theorem walk_literalGraph : literalGraph.walk .fresh ≠ .error .idsExhausted :=
  ne_error_of_toBool (by decide +kernel) _

/-- Of a method with a comparison in a literal, any mutant differs outside the nodes. -/
theorem exists_recordPairs_literalTree :
    (literalTree.classGraph? = .ok (some literalGraph) ∧
      literalGraph.walk .fresh ≠ .error .idsExhausted) ∧
    (∀ (mutator : Mutator) (dice : Dice), ∃ pairs log rest,
      literalGraph.recordPairs? mutator dice = some (pairs, log, rest) ∧
      ∀ pair ∈ pairs, ∃ index method, literalGraph.methods[index]? = some method ∧
        pair.correct = literalGraph.recordOf method index ∧
        ∃ label sort, pair.correct.sourceTokens[pair.buggy.errorLocation]? = some label ∧
          label ∈ relationalOperators ∧ sort ≠ .node ∧
          literalGraph.InSection method index sort pair.buggy.errorLocation) ∧
    ((∀ (mutator : Mutator) (dice : Dice) pairs log rest,
        literalGraph.recordPairs? mutator dice = some (pairs, log, rest) →
          ∀ pair ∈ pairs, literalGraph.ChangesToken pair) ↔
      ∀ method ∈ literalGraph.methods, ∀ operator ∈ relationalOperators,
        operator ∉ method.symbols ∧ operator ∉ literalGraph.vocabulary) :=
  ⟨⟨classGraph?_literalTree, walk_literalGraph⟩,
    exists_recordPairs classGraph?_literalTree walk_literalGraph⟩

/-- A mutant can differ from its record in a word, where no token is a comparison. -/
theorem not_changesToken_literalGraph : literalTree.classGraph? = .ok (some literalGraph) ∧
    ∃ pairs log rest, literalGraph.recordPairs? {} (.cycling [0]) = some (pairs, log, rest) ∧
      ∃ pair ∈ pairs, ¬ literalGraph.ChangesToken pair := by
  refine ⟨classGraph?_literalTree, ?_⟩
  have hpairs : (literalGraph.recordPairs? {} (.cycling [0])).map (fun result =>
      result.1.map fun pair => (pair.correct, pair.buggy.errorLocation)) =
        some [(literalGraph.recordOf literalMethod 0, 8)] := by decide +kernel
  obtain ⟨⟨pairs, log, rest⟩, hresult, hpairs⟩ := Option.map_eq_some_iff.mp hpairs
  obtain ⟨pair, hpair, heq⟩ := List.mem_map.mp (hpairs ▸ List.mem_singleton_self _)
  obtain ⟨hcorrect, hlocation⟩ := Prod.mk.inj heq
  refine ⟨pairs, log, rest, hresult, pair, hpair, fun hall => ?_⟩
  -- the token section ends at the fifth label
  have hsection := (hall 0 literalMethod rfl hcorrect).2
  rw [hlocation] at hsection
  exact absurd hsection (by decide)

end Tree

end CodeGraph
