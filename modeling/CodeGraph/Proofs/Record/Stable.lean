/-
# Records in a class that grows

The record of a method does not change when more methods come into the class, but for the new words
of the class at the end of its labels (`ClassBuilder.ContinuesTo.records_stable`).  New methods may
call old ones, and the returns of these then go back to the new call sites as well; but such edges
lead out of the method, and a call within the method reaches the same method as before.
-/
import CodeGraph.Proofs.Build.Continuation
import CodeGraph.Proofs.Record.OfGraph

namespace CodeGraph

/-! ## Calls in a class that grows -/

namespace Linkage

variable {methods : List MethodGraph} {t : Nat} {callee : String}

/-- Later methods do not take the calls of an earlier one. -/
theorem isFirst_append_iff (more : List MethodGraph) (ht : t < methods.length) :
    IsFirst (methods ++ more) t callee ↔ IsFirst methods t callee := by
  have hold : ∀ u ≤ t, (methods ++ more)[u]? = methods[u]? := fun u hu =>
    List.getElem?_append_left (Nat.lt_of_le_of_lt hu ht)
  rw [IsFirst, IsFirst, hold t (Nat.le_refl t)]
  refine and_congr_right fun _ => forall_congr' fun u => forall_congr' fun hu => ?_
  rw [hold u (Nat.le_of_lt hu)]

/-- Methods that come later do not change where a callee is found. -/
theorem targetOf?_append_eq_iff (more : List MethodGraph) (ht : t < methods.length) :
    targetOf? (methods ++ more) callee = some t ↔ targetOf? methods callee = some t := by
  rw [targetOf?_eq_some_iff, targetOf?_eq_some_iff, isFirst_append_iff more ht]

/-- The sites of a method are found call by call. -/
theorem sitesOf_eq_filterMap (methods : List MethodGraph) (t : Nat) :
    sitesOf (links methods) t = (calls methods).filterMap fun (site, callee) =>
      if targetOf? methods callee = some t then some site else none := by
  rw [sitesOf, links, List.filterMap_filterMap]
  refine List.filterMap_congr fun call _ => ?_
  obtain ⟨site, callee⟩ := call
  dsimp only
  cases htarget : targetOf? methods callee with
  | none => rfl
  | some target => simp only [Option.map_some, Option.bind_some, Option.some.injEq]

/-- The calls of later methods come behind those of the earlier ones. -/
theorem exists_calls_append (methods more : List MethodGraph) :
    ∃ later, calls (methods ++ more) = calls methods ++ later ∧
      ∀ call ∈ later, methods.length ≤ call.1.method := by
  refine ⟨(more.zipIdx methods.length).flatMap fun entry =>
    entry.1.callSites.map fun site => (⟨entry.2, site.1⟩, site.2), ?_, ?_⟩
  · rw [calls, List.zipIdx_append, List.flatMap_append, Nat.zero_add]
    rfl
  · intro call hcall
    obtain ⟨entry, hmem, hcall⟩ := List.mem_flatMap.mp hcall
    obtain ⟨site, -, rfl⟩ := List.mem_map.mp hcall
    exact List.le_snd_of_mem_zipIdx hmem

/-- **The calls of a method to itself stay as they are.** -/
theorem filter_sitesOf_append (more : List MethodGraph) (ht : t < methods.length) :
    (sitesOf (links (methods ++ more)) t).filter (·.method = t) =
      (sitesOf (links methods) t).filter (·.method = t) := by
  obtain ⟨later, hcalls, hlater⟩ := exists_calls_append methods more
  -- of the later calls none is in the method, and the earlier ones reach it as before
  have hnone : (later.filterMap fun (site, callee) =>
      if targetOf? (methods ++ more) callee = some t then some site else none).filter
        (·.method = t) = [] := by
    rw [List.filter_eq_nil_iff]
    intro site hsite hmethod
    obtain ⟨call, hcall, heq⟩ := List.mem_filterMap.mp hsite
    obtain ⟨-, heq⟩ := Option.ite_none_right_eq_some.mp heq
    have hle := hlater call hcall
    rw [Option.some.inj heq, of_decide_eq_true hmethod] at hle
    omega
  rw [sitesOf_eq_filterMap, sitesOf_eq_filterMap, hcalls, List.filterMap_append,
    List.filter_append, hnone, List.append_nil]
  simp only [targetOf?_append_eq_iff more ht]

end Linkage

/-! ## What a record shows of the links -/

namespace MethodGraph

variable {method : MethodGraph}

theorem labelsIn_linkReturns (h : method.Shaped) (sites : List CallSite) (words : Array String) :
    (Linkage.linkReturns method sites).labelsIn words = method.labelsIn words := by
  rw [(h.linkReturns sites).labelsIn_eq, h.labelsIn_eq, texts_linkReturns]
  rfl

/-- Noting calls leaves the order of the nodes alone. -/
theorem preorder_linkReturns (h : method.Shaped) (sites : List CallSite) :
    (Linkage.linkReturns method sites).preorder = method.preorder := by
  rw [(h.linkReturns sites).preorder_eq, h.preorder_eq]
  rfl

/-- The edges of tokens after linking. -/
theorem tokenLinks_linkReturns (sites : List CallSite) (edges : Nat → Token → List RecordEdge) :
    (Linkage.linkReturns method sites).tokenLinks edges = method.tokenLinks fun i token =>
      edges i (if token.isReturn then { token with returnsTo := token.returnsTo ++ sites }
        else token) := by
  rw [tokenLinks, tokenLinks, Linkage.linkReturns, Array.toList_map, List.zipIdx_map,
    List.flatMap_map]
  rfl

/-- Edges that have nothing to do with returns are the same after linking. -/
theorem tokenLinks_linkReturns_of_eq (sites : List CallSite) {edges : Nat → Token → List RecordEdge}
    (hedges : ∀ i token sites, edges i { token with returnsTo := sites } = edges i token) :
    (Linkage.linkReturns method sites).tokenLinks edges = method.tokenLinks edges := by
  rw [tokenLinks_linkReturns]
  congr 1
  funext i token
  split
  · exact hedges i token _
  · rfl

/-- Noting calls leaves the positions of nodes alone. -/
theorem nodePosition_linkReturns (h : method.Shaped) (sites : List CallSite) (v : Nat) :
    (Linkage.linkReturns method sites).nodePosition v = method.nodePosition v := by
  rw [nodePosition, preorder_linkReturns h, nodePosition]

/-- Noting calls leaves the number of tokens alone. -/
theorem size_tokens_linkReturns (sites : List CallSite) :
    (Linkage.linkReturns method sites).tokens.size = method.tokens.size := by
  rw [Linkage.linkReturns, Array.size_map]

theorem symbolPosition_linkReturns (sites : List CallSite) (s : Nat) :
    (Linkage.linkReturns method sites).symbolPosition s = method.symbolPosition s := by
  rw [symbolPosition, size_tokens_linkReturns, symbolPosition]
  rfl

theorem wordPosition_linkReturns (sites : List CallSite) (w : Nat) :
    (Linkage.linkReturns method sites).wordPosition w = method.wordPosition w := by
  rw [wordPosition, size_tokens_linkReturns, wordPosition]
  rfl

/-- The edges of a method after linking: those from before, with the call sites added to returns. -/
theorem edgesIn_linkReturns (h : method.Shaped) (sites : List CallSite) (index : Nat) :
    (Linkage.linkReturns method sites).edgesIn index =
      method.nextTokenEdges ++ method.ownerEdges ++ method.parentEdges ++ method.occurrenceEdges ++
        method.subtokenEdges ++ method.nextUseEdges ++ method.assignedEdges ++
        method.tokenLinks fun i token =>
          ((token.returnsTo ++ if token.isReturn then sites else []).filter (·.method = index)).map
            fun site => .ofKind (method.nodePosition site.node) (method.tokenPosition i)
              .returnsTo := by
  -- seven of the eight kinds of edges do not look at returns
  have hnext : (Linkage.linkReturns method sites).nextTokenEdges = method.nextTokenEdges := by
    rw [nextTokenEdges, size_tokens_linkReturns]
    rfl
  have howner : (Linkage.linkReturns method sites).ownerEdges = method.ownerEdges := by
    simp only [ownerEdges, preorder_linkReturns h, nodePosition_linkReturns h]
    rfl
  have hparent : (Linkage.linkReturns method sites).parentEdges = method.parentEdges := by
    simp only [parentEdges, preorder_linkReturns h, nodePosition_linkReturns h]
    rfl
  have hoccurrence :
      (Linkage.linkReturns method sites).occurrenceEdges = method.occurrenceEdges := by
    simp only [occurrenceEdges, symbolPosition_linkReturns]
    exact tokenLinks_linkReturns_of_eq sites fun _ _ _ => rfl
  have hsubtoken : (Linkage.linkReturns method sites).subtokenEdges = method.subtokenEdges := by
    simp only [subtokenEdges, wordPosition_linkReturns]
    exact tokenLinks_linkReturns_of_eq sites fun _ _ _ => rfl
  have hnextUse : (Linkage.linkReturns method sites).nextUseEdges = method.nextUseEdges :=
    tokenLinks_linkReturns_of_eq sites fun _ _ _ => rfl
  have hassigned : (Linkage.linkReturns method sites).assignedEdges = method.assignedEdges := by
    simp only [assignedEdges, nodePosition_linkReturns h]
    exact tokenLinks_linkReturns_of_eq sites fun _ _ _ => rfl
  rw [edgesIn, hnext, howner, hparent, hoccurrence, hsubtoken, hnextUse, hassigned, returnEdges,
    tokenLinks_linkReturns]
  simp only [nodePosition_linkReturns h]
  congr 2
  funext i token
  split
  · rfl
  · rw [List.append_nil]
    rfl

/-- **Of the call sites that are linked, a record shows those in the method itself.** -/
theorem edgesIn_linkReturns_eq (h : method.Shaped) {sites others : List CallSite} {index : Nat}
    (hsame : sites.filter (·.method = index) = others.filter (·.method = index)) :
    (Linkage.linkReturns method sites).edgesIn index =
      (Linkage.linkReturns method others).edgesIn index := by
  have hparts : ∀ token : Token,
      (token.returnsTo ++ if token.isReturn then sites else []).filter (·.method = index) =
        (token.returnsTo ++ if token.isReturn then others else []).filter (·.method = index) := by
    intro token
    rw [List.filter_append, List.filter_append]
    by_cases hreturn : token.isReturn = true
    · rw [if_pos hreturn, if_pos hreturn, hsame]
    · rw [if_neg hreturn, if_neg hreturn]
  rw [edgesIn_linkReturns h, edgesIn_linkReturns h]
  simp only [hparts]

end MethodGraph

/-! ## The records of a class that grows -/

namespace ClassBuilder

/-- The record of method number `i` of a builder that is finished. -/
theorem recordOf_build (builder : ClassBuilder) {i : Nat} {method : MethodGraph}
    (hi : builder.methods[i]? = some method) :
    (builder.build.methods.zipIdx.map fun (method, index) =>
      builder.build.recordOf method index)[i]? =
        some (builder.build.recordOf
          (Linkage.linkReturns method (Linkage.sitesOf (Linkage.links builder.methods) i)) i) := by
  have hlinked : builder.build.methods[i]? =
      some (Linkage.linkReturns method (Linkage.sitesOf (Linkage.links builder.methods) i)) := by
    show (Linkage.linked builder.methods)[i]? = _
    rw [Linkage.getElem?_linked, hi, Option.map_some]
  rw [List.getElem?_map, List.getElem?_zipIdx, hlinked, Option.map_some, Option.map_some,
    Nat.zero_add]

namespace ContinuesTo

variable {builder later : ClassBuilder}

/-- The record of an earlier method: the same in the class that has grown, but for the new words. -/
theorem recordOf_eq (h : builder.ContinuesTo later) {newWords : List String}
    (hwords : later.vocabulary.toList = builder.vocabulary.toList ++ newWords)
    {i : Nat} {method : MethodGraph} (hi : builder.methods[i]? = some method) :
    later.build.recordOf
        (Linkage.linkReturns method (Linkage.sitesOf (Linkage.links later.methods) i)) i =
      { builder.build.recordOf
          (Linkage.linkReturns method (Linkage.sitesOf (Linkage.links builder.methods) i)) i with
        sourceTokens := (builder.build.recordOf (Linkage.linkReturns method
          (Linkage.sitesOf (Linkage.links builder.methods) i)) i).sourceTokens ++ newWords } := by
  have hshaped := (h.isRun.finished method (List.mem_of_getElem? hi)).shaped
  have hlt := (List.getElem?_eq_some_iff.mp hi).1
  obtain ⟨more, hmethods⟩ := h.grows.methods
  have hlabels : method.labelsIn later.vocabulary =
      method.labelsIn builder.vocabulary ++ newWords := by
    rw [hshaped.labelsIn_eq, hshaped.labelsIn_eq, hwords, List.append_assoc _ _ newWords]
  have hedges : (Linkage.linkReturns method
      (Linkage.sitesOf (Linkage.links later.methods) i)).edgesIn i =
        (Linkage.linkReturns method
          (Linkage.sitesOf (Linkage.links builder.methods) i)).edgesIn i := by
    refine MethodGraph.edgesIn_linkReturns_eq hshaped ?_
    rw [← hmethods, Linkage.filter_sitesOf_append more hlt]
  show TrainingRecord.correct ((Linkage.linkReturns method _).labelsIn later.vocabulary) _ =
    TrainingRecord.correct ((Linkage.linkReturns method _).labelsIn builder.vocabulary ++ newWords)
      ((Linkage.linkReturns method _).edgesIn i)
  rw [MethodGraph.labelsIn_linkReturns hshaped, MethodGraph.labelsIn_linkReturns hshaped, hlabels,
    hedges]

end ContinuesTo

end ClassBuilder

/-- A walk with these numbers gives these records. -/
def ClassGraph.Yields (graph : ClassGraph) (ids : IdSequence) (records : List TrainingRecord) :
    Prop :=
  ∃ events rest, graph.walk ids = .ok (events, rest) ∧ recordsOf? events = some records

/-- **Earlier records are stable.**  However a run goes on, the class later on begins with the same
methods, and each of their records is the one of the class as it was, with the new words of the
class behind its labels.  The numbers of the two walks do not matter. -/
theorem ClassBuilder.ContinuesTo.records_stable {builder later : ClassBuilder}
    (h : builder.ContinuesTo later) {ids laterIds : IdSequence}
    (hids : builder.build.walk ids ≠ .error .idsExhausted)
    (hlaterIds : later.build.walk laterIds ≠ .error .idsExhausted) :
    ∃ records laterRecords newWords,
      builder.build.Yields ids records ∧ later.build.Yields laterIds laterRecords ∧
      builder.methods <+: later.methods ∧
      records.length = builder.methods.length ∧ laterRecords.length = later.methods.length ∧
      later.build.vocabulary.toList = builder.build.vocabulary.toList ++ newWords ∧
      ∀ (i : Nat) (record : TrainingRecord), records[i]? = some record →
        laterRecords[i]? =
          some { record with sourceTokens := record.sourceTokens ++ newWords } := by
  obtain ⟨events, rest, hwalk, hrecords⟩ := h.isRun.sound.exists_records hids
  obtain ⟨laterEvents, laterRest, hlaterWalk, hlaterRecords⟩ :=
    h.isRun_later.sound.exists_records hlaterIds
  obtain ⟨newWords, hwords⟩ := h.grows.words
  have hlength (builder : ClassBuilder) : (builder.build.methods.zipIdx.map fun (method, index) =>
      builder.build.recordOf method index).length = builder.methods.length := by
    rw [List.length_map, List.length_zipIdx]
    show (Linkage.linked builder.methods).length = _
    rw [Linkage.linked, List.length_map, List.length_zipIdx]
  refine ⟨_, _, newWords, ⟨events, rest, hwalk, hrecords⟩,
    ⟨laterEvents, laterRest, hlaterWalk, hlaterRecords⟩, h.grows.methods, hlength builder,
    hlength later, hwords.symm, ?_⟩
  intro i record hrecord
  -- the record is that of a method that both classes have
  have hlt : i < builder.methods.length := by
    rw [← hlength builder]
    exact (List.getElem?_eq_some_iff.mp hrecord).1
  have hi := List.getElem?_eq_getElem hlt
  have hlater : later.methods[i]? = some builder.methods[i] := by
    obtain ⟨more, hmethods⟩ := h.grows.methods
    rw [← hmethods, List.getElem?_append_left hlt, hi]
  rw [builder.recordOf_build hi, Option.some.injEq] at hrecord
  rw [later.recordOf_build hlater, h.recordOf_eq hwords.symm hi, hrecord]

/-- A run goes on with another method of the first signature, which calls both old methods and has a
new word, with one that is given up, and with the first method once more. -/
def laterSteps : List Session.Step :=
  [.openMethod "a:0", .move (.emit "newX" .identifier), .move (.descendCall .methodInvocation "b:0"),
    .move .ascend, .move (.descendCall .methodInvocation "a:0"), .move .ascend,
    .move (.emit "return" .plain), .close, .openMethod "c:0",
    .move (.emit "unused" .literal), .abandon, .add 2, .add 0]

/-- The class of two methods after these steps. -/
def grownBuilder : ClassBuilder :=
  ((Session.start "C").run (twoMethodSteps ++ laterSteps)).builder?.getD { name := "C" }

/-- The larger class continues the one with two methods. -/
theorem continuesTo_grownBuilder : twoMethodBuilder.ContinuesTo grownBuilder :=
  ⟨"C", twoMethodSteps, laterSteps, by decide, by decide +kernel, by decide +kernel⟩

theorem walk_grownBuilder : grownBuilder.build.walk .fresh ≠ .error .idsExhausted :=
  ne_error_of_toBool (by decide +kernel) _

/-- New words come last in the labels of the two records, and calls from a new method leave their
edges alone. -/
theorem ClassBuilder.ContinuesTo.records_stable_grown :
    twoMethodBuilder.ContinuesTo grownBuilder ∧
    twoMethodBuilder.build.walk .fresh ≠ .error .idsExhausted ∧
    grownBuilder.build.walk .fresh ≠ .error .idsExhausted ∧
    grownBuilder.build.vocabulary.toList =
      twoMethodBuilder.build.vocabulary.toList ++ ["new", "unused"] ∧
    ∃ records laterRecords newWords,
      twoMethodBuilder.build.Yields .fresh records ∧
      grownBuilder.build.Yields .fresh laterRecords ∧
      twoMethodBuilder.methods <+: grownBuilder.methods ∧
      records.length = twoMethodBuilder.methods.length ∧
      laterRecords.length = grownBuilder.methods.length ∧
      grownBuilder.build.vocabulary.toList =
        twoMethodBuilder.build.vocabulary.toList ++ newWords ∧
      ∀ (i : Nat) (record : TrainingRecord), records[i]? = some record →
        laterRecords[i]? =
          some { record with sourceTokens := record.sourceTokens ++ newWords } :=
  ⟨continuesTo_grownBuilder, walk_twoMethodBuilder, walk_grownBuilder, by decide +kernel,
    ClassBuilder.ContinuesTo.records_stable continuesTo_grownBuilder walk_twoMethodBuilder
      walk_grownBuilder⟩

end CodeGraph
