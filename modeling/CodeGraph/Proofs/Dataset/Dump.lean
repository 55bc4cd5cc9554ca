/-
# What a vocabulary dump holds

The lists that are dumped of a method are the sections of its record: the dump reads the nodes in
the order in which they were made, and the walk comes to them in the same order.  A sink that is too
small for a dump has the first bytes of it, whichever of the many small writes is the one that does
not fit (`ClassBuilder.IsRun.writeVocabulary_bounded`).
-/
import CodeGraph.Dataset.VocabularyDump
import CodeGraph.Proofs.Dataset.Sinks
import CodeGraph.Proofs.Record.OfGraph

namespace CodeGraph

namespace ClassGraph

/-! ## Writing a dump -/

/-- It is as if the text were written at once. -/
theorem putAll_vocabularyPieces (graph : ClassGraph) (sink : Sink) :
    sink.putAll (graph.vocabularyPieces.map Text.utf8) = sink.putText graph.dump := by
  have hbytes : (graph.vocabularyPieces.map Text.utf8).flatten = Text.utf8 graph.dump := by
    rw [← flatten_vocabularyPieces, Text.utf8, List.flatMap_def, List.map_flatten,
      List.flatten_flatten, List.map_map]
    rfl
  rw [Sink.putAll_eq, hbytes, Sink.putText]

/-- **A bounded sink has the first bytes of a dump**, and says whether these are all. -/
theorem writeVocabulary_eq (graph : ClassGraph) (c : Nat) :
    graph.writeVocabulary { capacity? := some c } =
      (Sink.extend { capacity? := some c } ((Text.utf8 graph.dump).take c),
        if (Text.utf8 graph.dump).length ≤ c then .ok () else .error (.io .sinkFull)) := by
  have hput : Sink.putText { capacity? := some c } graph.dump =
      (Sink.extend { capacity? := some c } ((Text.utf8 graph.dump).take c),
        decide ((Text.utf8 graph.dump).length ≤ c)) := Sink.put_bounded rfl _
  rw [writeVocabulary, putAll_vocabularyPieces, hput]
  simp only [decide_eq_true_eq]

end ClassGraph

/-! ## The sections of a record -/

/-- The labels of the record of a method, cut where one sort ends and the next begins, and put in
the order of a dump: tokens, symbols, words and nodes. -/
def TrainingRecord.sectionsOf (record : TrainingRecord) (method : MethodGraph) :
    List (List String) :=
  [(record.sourceTokens.drop method.nodes.size).take method.tokens.size,
    (record.sourceTokens.drop (method.nodes.size + method.tokens.size)).take method.symbols.size,
    record.sourceTokens.drop (method.nodes.size + method.tokens.size + method.symbols.size),
    record.sourceTokens.take method.nodes.size]

/-- The sections of the record of a method are its lists. -/
theorem ClassGraph.sectionsOf_recordOf (graph : ClassGraph) {method : MethodGraph}
    (h : method.Shaped) (index : Nat) :
    (graph.recordOf method index).sectionsOf method = graph.listsOf method := by
  have hlabels : (graph.recordOf method index).sourceTokens =
      method.nodes.toList.map NonTerminal.label ++ (method.texts ++ (method.symbols.toList ++
        graph.vocabulary.toList)) := by
    show method.labelsIn graph.vocabulary = _
    rw [h.labelsIn_eq, List.append_assoc, List.append_assoc]
  have hnodes : (method.nodes.toList.map NonTerminal.label).length = method.nodes.size := by
    rw [List.length_map, Array.length_toList]
  have htokens : method.texts.length = method.tokens.size := by
    rw [MethodGraph.texts, List.length_map, Array.length_toList]
  have hsymbols : method.symbols.toList.length = method.symbols.size := Array.length_toList
  rw [TrainingRecord.sectionsOf, hlabels]
  simp only [← List.drop_drop, List.take_left' hnodes, List.drop_left' hnodes,
    List.take_left' htokens, List.drop_left' htokens, List.take_left' hsymbols,
    List.drop_left' hsymbols]
  rfl

/-- **A dump agrees with the records and is cut cleanly.**  A sink that takes so many bytes has that
many of the dump, and reports a fault just if there are more.  Unless the numbers run out, the walk
over the class gives a record for each method, and the sections of the record are the lists that are
dumped of the method. -/
theorem ClassBuilder.IsRun.writeVocabulary_bounded {builder : ClassBuilder} (h : builder.IsRun) :
    (∀ c : Nat,
      (builder.build.writeVocabulary { capacity? := some c }).1.bytes.toList =
        (Text.utf8 builder.build.dump).take c ∧
      (builder.build.writeVocabulary { capacity? := some c }).2 =
        if (Text.utf8 builder.build.dump).length ≤ c then .ok () else .error (.io .sinkFull)) ∧
    ∀ ids, builder.build.walk ids ≠ .error .idsExhausted →
      ∃ events rest records, builder.build.walk ids = .ok (events, rest) ∧
        recordsOf? events = some records ∧
        List.Forall₂ (fun method record => record.sectionsOf method = builder.build.listsOf method)
          builder.build.methods records := by
  refine ⟨fun c => ?_, fun ids hids => ?_⟩
  · rw [ClassGraph.writeVocabulary_eq]
    exact ⟨Sink.extend_bytes _ _, rfl⟩
  · have hsound := h.sound
    obtain ⟨events, rest, hwalk, hrecords⟩ := hsound.exists_records hids
    refine ⟨events, rest, _, hwalk, hrecords, ?_⟩
    refine ClassGraph.forall₂_recordOf fun index method hmethod => ?_
    have hshaped := hsound.shaped method (List.mem_of_getElem? hmethod)
    exact builder.build.sectionsOf_recordOf hshaped index

/-- Of the dump of two methods, a sink of forty bytes takes the first forty. -/
theorem ClassBuilder.IsRun.writeVocabulary_bounded_two :
    twoMethodBuilder.IsRun ∧ twoMethodBuilder.build.walk .fresh ≠ .error .idsExhausted ∧
    40 < (Text.utf8 twoMethodBuilder.build.dump).length ∧
    ((twoMethodBuilder.build.writeVocabulary { capacity? := some 40 }).1.bytes.toList =
        (Text.utf8 twoMethodBuilder.build.dump).take 40 ∧
      (twoMethodBuilder.build.writeVocabulary { capacity? := some 40 }).2 =
        if (Text.utf8 twoMethodBuilder.build.dump).length ≤ 40 then .ok ()
        else .error (.io .sinkFull)) ∧
    ∃ events rest records, twoMethodBuilder.build.walk .fresh = .ok (events, rest) ∧
      recordsOf? events = some records ∧
      List.Forall₂ (fun method record =>
        record.sectionsOf method = twoMethodBuilder.build.listsOf method)
        twoMethodBuilder.build.methods records := by
  obtain ⟨hwrite, hrecords⟩ := ClassBuilder.IsRun.writeVocabulary_bounded isRun_twoMethodBuilder
  exact ⟨isRun_twoMethodBuilder, walk_twoMethodBuilder, by decide +kernel, hwrite 40,
    hrecords .fresh walk_twoMethodBuilder⟩

end CodeGraph
