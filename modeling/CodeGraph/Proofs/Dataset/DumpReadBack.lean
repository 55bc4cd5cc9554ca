/-
# Reading a vocabulary dump

A dump is cut into lines at the line ends, and a line into words at the spaces.  It is written
without quotes, so what it was made of is read from it just if no list is empty and no word has a
space or a line end in it (`ClassGraph.readsBack_iff_spaced`).  Of the class of a tree this comes
down to the texts of the tokens and the signatures that are called (`Tree.readsBack_iff`).
-/
import CodeGraph.Proofs.Build.Symbols
import CodeGraph.Proofs.Build.Texts
import CodeGraph.Proofs.Dataset.Dump
import CodeGraph.Proofs.Graph.Label
import CodeGraph.Proofs.Text.Blanks

namespace CodeGraph

open Text (Plain)

/-! ## Lines of words -/

/-- There are words, and all of them are plain. -/
structure Spaced (words : List String) : Prop where
  ne_nil : words ≠ []
  plain : ∀ word ∈ words, Plain word

/-- What is in words with separators is a separator or in one of the words. -/
theorem mem_intercalate {α : Type} {c x : α} {pieces : List (List α)}
    (h : x ∈ [c].intercalate pieces) : x = c ∨ ∃ piece ∈ pieces, x ∈ piece := by
  induction pieces with
  | nil => exact absurd h List.not_mem_nil
  | cons piece pieces ih =>
    cases pieces with
    | nil =>
      rw [List.intercalate_singleton] at h
      exact Or.inr ⟨piece, List.mem_cons_self, h⟩
    | cons next later =>
      rw [List.intercalate_cons_cons, List.append_assoc, List.mem_append, List.mem_append] at h
      rcases h with hfirst | hbetween | hlater
      · exact Or.inr ⟨piece, List.mem_cons_self, hfirst⟩
      · exact Or.inl (List.mem_singleton.mp hbetween)
      · refine (ih hlater).imp_right ?_
        rintro ⟨other, hother, hx⟩
        exact ⟨other, List.mem_cons_of_mem piece hother, hx⟩

namespace Spaced

variable {words : List String}

/-- The words of a line are spaced. -/
theorem of_splitOn {line : List Char} (hline : '\n' ∉ line)
    (h : line.splitOn ' ' = words.map String.toList) : Spaced words := by
  refine ⟨?_, fun word hword => ?_⟩
  · rintro rfl
    exact List.splitOn_ne_nil ' ' line h
  · have hpiece : word.toList ∈ line.splitOn ' ' := h ▸ List.mem_map_of_mem hword
    exact ⟨Text.not_mem_of_mem_splitOn hpiece,
      fun hmem => hline (Text.mem_splitOn_piece hpiece hmem).1⟩

/-- Words without blanks are read back from their line. -/
theorem splitOn_intercalate (h : Spaced words) :
    (" ".intercalate words).toList.splitOn ' ' = words.map String.toList := by
  refine Text.splitOn_eq_iff.mpr ⟨String.toList_intercalate, ?_, fun piece hpiece => ?_⟩
  · exact fun hnil => h.ne_nil (List.map_eq_nil_iff.mp hnil)
  · obtain ⟨word, hword, rfl⟩ := List.mem_map.mp hpiece
    exact (h.plain word hword).1

/-- There is no line end in a line of such words. -/
theorem newline_not_mem (h : Spaced words) : '\n' ∉ (" ".intercalate words).toList := by
  intro hmem
  rw [String.toList_intercalate] at hmem
  rcases mem_intercalate hmem with heq | ⟨piece, hpiece, hin⟩
  · exact absurd heq (by decide)
  · obtain ⟨word, hword, rfl⟩ := List.mem_map.mp hpiece
    exact (h.plain word hword).2 hin

end Spaced

/-! ## The lines of a dump -/

namespace ClassGraph

variable {graph : ClassGraph}

/-- The lines are those of a method: an empty one, and four that are its lists if cut at spaces. -/
def IsBlockOf (graph : ClassGraph) (method : MethodGraph) (block : List (List Char)) : Prop :=
  ∃ lines, block = [] :: lines ∧
    lines.map (·.splitOn ' ') = (graph.listsOf method).map (·.map String.toList)

/-- The dump can be read back: what is in an unbounded sink is a text, and its lines are those of
the methods, five for each. -/
def ReadsBack (graph : ClassGraph) : Prop :=
  ∃ text : String, (graph.writeVocabulary {}).2 = .ok () ∧
    String.fromUTF8? ⟨(graph.writeVocabulary {}).1.bytes⟩ = some text ∧
    ∃ blocks, text.toList.splitOn '\n' = blocks.flatten ++ [[]] ∧
      List.Forall₂ graph.IsBlockOf graph.methods blocks

/-- An unbounded sink takes the whole dump. -/
theorem writeVocabulary_unbounded (graph : ClassGraph) :
    graph.writeVocabulary {} = (Sink.extend {} (Text.utf8 graph.dump), .ok ()) := by
  rw [writeVocabulary, putAll_vocabularyPieces, Sink.putText, Sink.put_unbounded rfl]
  rfl

/-- The lines of a method in a dump. -/
def blockOf (graph : ClassGraph) (method : MethodGraph) : List (List Char) :=
  [] :: (graph.listsOf method).map fun words => (" ".intercalate words).toList

/-- The dump has the lines of the methods. -/
theorem dump_eq_flatMap (graph : ClassGraph) :
    graph.dump = (graph.methods.flatMap graph.blockOf).flatMap (· ++ ['\n']) := by
  rw [dump, List.flatMap_assoc]
  refine List.flatMap_congr fun method _ => ?_
  rw [blockOf, List.flatMap_cons, List.flatMap_map]
  rfl

/-- Of spaced lists the lines of a method read back. -/
theorem isBlockOf_blockOf {method : MethodGraph}
    (h : ∀ words ∈ graph.listsOf method, Spaced words) :
    graph.IsBlockOf method (graph.blockOf method) := by
  refine ⟨_, rfl, ?_⟩
  rw [List.map_map]
  exact List.map_congr_left fun words hwords => (h words hwords).splitOn_intercalate

/-- There is no line end in the lines of a method. -/
theorem newline_not_mem_of_mem_blockOf {method : MethodGraph}
    (h : ∀ words ∈ graph.listsOf method, Spaced words) {line : List Char}
    (hline : line ∈ graph.blockOf method) : '\n' ∉ line := by
  rcases List.mem_cons.mp hline with rfl | hline
  · exact List.not_mem_nil
  · obtain ⟨words, hwords, rfl⟩ := List.mem_map.mp hline
    exact (h words hwords).newline_not_mem

/-- **A dump reads back just if all lists are spaced.** -/
theorem readsBack_iff_spaced : graph.ReadsBack ↔
    ∀ method ∈ graph.methods, ∀ words ∈ graph.listsOf method, Spaced words := by
  constructor
  · rintro ⟨text, -, -, blocks, hlines, hblocks⟩ method hmethod words hwords
    obtain ⟨block, hblock, lines, rfl, hsplit⟩ := exists_of_mem_left hblocks hmethod
    obtain ⟨line, hline, heq⟩ := List.mem_map.mp (hsplit ▸ List.mem_map_of_mem hwords)
    have hin : line ∈ text.toList.splitOn '\n' := by
      rw [hlines]
      refine List.mem_append_left _ (List.mem_flatten_of_mem hblock ?_)
      exact List.mem_cons_of_mem _ hline
    -- what comes out of a split at the line ends has none inside
    exact Spaced.of_splitOn (Text.not_mem_of_mem_splitOn hin) heq
  · intro h
    have hfree : ∀ line ∈ graph.methods.flatMap graph.blockOf, '\n' ∉ line := by
      intro line hline
      obtain ⟨method, hmethod, hline⟩ := List.mem_flatMap.mp hline
      exact newline_not_mem_of_mem_blockOf (h method hmethod) hline
    refine ⟨String.ofList graph.dump, ?_, ?_, graph.methods.map graph.blockOf, ?_, ?_⟩
    · rw [writeVocabulary_unbounded]
    · rw [writeVocabulary_unbounded, ← Text.fromUTF8?_utf8]
      congr 2
      rw [← Array.toList_inj, Sink.extend_bytes]
      rfl
    · rw [String.toList_ofList, dump_eq_flatMap, Text.splitOn_flatMap hfree, List.flatMap_def]
    · rw [List.forall₂_map_right_iff, List.forall₂_same]
      exact fun method hmethod => isBlockOf_blockOf (h method hmethod)

/-- The lists of a method are its texts, symbols, words and labels. -/
theorem forall_mem_listsOf {p : List String → Prop} {method : MethodGraph} :
    (∀ words ∈ graph.listsOf method, p words) ↔
      p method.texts ∧ p method.symbols.toList ∧ p graph.vocabulary.toList ∧
        p (method.nodes.toList.map NonTerminal.label) := by
  rw [listsOf, List.forall_mem_cons, List.forall_mem_cons, List.forall_mem_cons,
    List.forall_mem_singleton]
  rfl

end ClassGraph

/-! ## Labels -/

namespace NonTerminal

/-- A character that no name of a kind has is in a label just if it is in what the node calls. -/
theorem not_mem_label_iff (node : NonTerminal) {c : Char} (hletter : c.isAlpha = false)
    (hcolon : c ≠ ':') : c ∉ node.label.toList ↔ ∀ callee ∈ node.callee, c ∉ callee.toList := by
  have hname : c ∉ node.kind.name.toList := by
    intro hmem
    rw [Kind.isAlpha_of_mem_name hmem] at hletter
    cases hletter
  rw [node.toList_label, List.mem_append, not_or, and_iff_right hname]
  cases node.callee with
  | none => exact iff_of_true List.not_mem_nil fun _ h => absurd h (Option.some_ne_none _).symm
  | some callee =>
    rw [labelTail, List.mem_cons, not_or, and_iff_right hcolon]
    refine ⟨fun h other heq => ?_, fun h => h callee rfl⟩
    rw [← Option.some.inj heq]
    exact h

/-- The label of a node is plain just if what it calls is. -/
theorem plain_label_iff (node : NonTerminal) :
    Plain node.label ↔ ∀ callee ∈ node.callee, Plain callee := by
  rw [Plain, node.not_mem_label_iff rfl (by decide), node.not_mem_label_iff rfl (by decide)]
  exact forall₂_and.symm

end NonTerminal

/-! ## Dumps of trees -/

namespace Tree

/-- **When the dump of a tree can be read back.**  If a tree gives the graph of a class, its dump
reads back just if the class has words, all methods have symbols, and neither the text of a token
nor a signature that is called has a space or a line end in it. -/
theorem readsBack_iff {tree : Tree} {graph : ClassGraph}
    (h : tree.classGraph? = .ok (some graph)) : graph.ReadsBack ↔
      ∀ method ∈ graph.methods, graph.vocabulary ≠ #[] ∧ method.symbols ≠ #[] ∧
        (∀ text ∈ method.texts, Plain text) ∧
        ∀ node ∈ method.nodes, ∀ callee ∈ node.callee, Plain callee := by
  obtain ⟨hsymbols, hwords⟩ := fromTexts h
  rw [ClassGraph.readsBack_iff_spaced]
  constructor
  · intro hspaced method hmethod
    obtain ⟨htexts, hnames, hvocabulary, hlabels⟩ :=
      ClassGraph.forall_mem_listsOf.mp (hspaced method hmethod)
    refine ⟨fun heq => hvocabulary.ne_nil (congrArg Array.toList heq),
      fun heq => hnames.ne_nil (congrArg Array.toList heq), htexts.plain, fun node hnode => ?_⟩
    refine node.plain_label_iff.mp (hlabels.plain _ (List.mem_map_of_mem ?_))
    exact Array.mem_toList_iff.mpr hnode
  · intro hplain method hmethod
    obtain ⟨hvocabulary, hnames, htexts, hcallees⟩ := hplain method hmethod
    obtain ⟨builder, hrun, rfl⟩ := exists_isRun_of_classGraph? h
    have hnodes := (hrun.sound.shaped method hmethod).size_pos
    have hname : ∀ name ∈ method.symbols.toList, name ∈ method.texts := fun name hmem =>
      hsymbols method hmethod name (Array.mem_toList_iff.mp hmem)
    have hlist : method.symbols.toList ≠ [] := fun hnil => hnames (Array.toList_eq_nil_iff.mp hnil)
    refine ClassGraph.forall_mem_listsOf.mpr ⟨⟨?_, htexts⟩, ⟨hlist, ?_⟩, ⟨?_, ?_⟩, ⟨?_, ?_⟩⟩
    · obtain ⟨name, hmem⟩ := List.exists_mem_of_ne_nil _ hlist
      exact List.ne_nil_of_mem (hname name hmem)
    · exact fun name hmem => htexts name (hname name hmem)
    · exact fun hnil => hvocabulary (Array.toList_eq_nil_iff.mp hnil)
    · intro word hword
      obtain ⟨other, hother, text, htext, hmem⟩ := hwords word (Array.mem_toList_iff.mp hword)
      exact ((hplain other hother).2.2.1 text htext).of_mem_subwords hmem
    · intro hnil
      rw [List.map_eq_nil_iff, Array.toList_eq_nil_iff] at hnil
      rw [hnil] at hnodes
      exact absurd hnodes (Nat.lt_irrefl 0)
    · intro label hlabel
      obtain ⟨node, hnode, rfl⟩ := List.mem_map.mp hlabel
      exact node.plain_label_iff.mpr (hcallees node (Array.mem_toList_iff.mp hnode))

/-- A method with a name of two words that calls another one. -/
def plainTree : Tree where
  kind := .typeDeclaration
  name := some "C"
  children := .node .methodDeclaration none (some "f:1")
    (.token "aB" .identifier
      (.node .methodInvocation none (some "g:1") (.token "\"x_y\"" .literal .nil) .nil)) .nil

/-- The graph of its class. -/
def plainGraph : ClassGraph where
  name := "C"
  methods := [{
    signature := "f:1"
    nodes := #[
      { kind := .methodDeclaration, children := [1], tokens := [0] },
      { kind := .methodInvocation, parent := some 0, tokens := [1], callee := some "g:1" }]
    tokens := #[
      { text := "aB", owner := 0, symbol := some 0, vocabulary := [0, 1] },
      { text := "\"x_y\"", owner := 1, vocabulary := [2, 3] }]
    symbols := #["aB"] }]
  vocabulary := #["a", "b", "\"x", "y\""]
  invocations := { callers := ["f:1", "f:1"], calls := [("f:1", "g:1")] }

/-- A class without blanks in its texts is read back. -/
theorem readsBack_plainGraph :
    plainTree.classGraph? = .ok (some plainGraph) ∧ plainGraph.ReadsBack := by
  have hgraph : plainTree.classGraph? = .ok (some plainGraph) :=
    eq_ok_of_toOption (by decide +kernel)
  exact ⟨hgraph, (readsBack_iff hgraph).mpr (by decide +kernel)⟩

/-- A method with a text of two lines. -/
def twoLineTree : Tree where
  kind := .typeDeclaration
  name := some "C"
  children := .node .methodDeclaration none (some "f:0")
    (.token "f" .identifier (.token "\"\"\"\na\"\"\"" .literal .nil)) .nil

/-- The graph of its class. -/
def twoLineGraph : ClassGraph where
  name := "C"
  methods := [{
    signature := "f:0"
    nodes := #[{ kind := .methodDeclaration, tokens := [0, 1] }]
    tokens := #[
      { text := "f", owner := 0, symbol := some 0, vocabulary := [0] },
      { text := "\"\"\"\na\"\"\"", owner := 0, vocabulary := [1] }]
    symbols := #["f"] }]
  vocabulary := #["f", "\"\"\"\na\"\"\""]
  invocations := { callers := ["f:0"] }

/-- A text of two lines cannot be told from two lines of words. -/
theorem not_readsBack_twoLineGraph :
    twoLineTree.classGraph? = .ok (some twoLineGraph) ∧ ¬ twoLineGraph.ReadsBack := by
  refine ⟨eq_ok_of_toOption (by decide +kernel), fun hreads => ?_⟩
  have hspaced := ClassGraph.readsBack_iff_spaced.mp hreads _ List.mem_cons_self
  have htexts := (ClassGraph.forall_mem_listsOf.mp hspaced).1
  exact (htexts.plain "\"\"\"\na\"\"\"" (by decide)).2 (by decide)

end Tree

end CodeGraph
