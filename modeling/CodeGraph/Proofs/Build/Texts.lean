/-
# Where symbols and words come from

Every symbol of a method is the text of one of its tokens.  A cursor adds the words of its class to
those that are there, so as long as every method that is built is kept, all words are sub-words of
texts of tokens (`Cursor.FromTexts`).  A tree keeps all of its methods, and what its class spells
comes from these texts (`Tree.fromTexts`).
-/
import CodeGraph.Proofs.Build.Faithful
import CodeGraph.Proofs.Build.Interned

namespace CodeGraph

/-! ## Moves of a cursor -/

namespace Vocabulary

/-- A word that is interned is the only one that can be new. -/
theorem mem_intern {words : Array String} {word other : String}
    (h : other ∈ (intern words word).1) : other ∈ words ∨ other = word := by
  rw [← Array.mem_toList_iff, intern_toList] at h
  split at h
  · exact Or.inl (Array.mem_toList_iff.mp h)
  · exact (List.mem_append.mp h).imp Array.mem_toList_iff.mp List.mem_singleton.mp

/-- A word is known, or it is among those that are interned. -/
theorem mem_foldl_internNext (todo : List String) {state : Array String × List Nat}
    {other : String} (h : other ∈ (todo.foldl internNext state).1) :
    other ∈ state.1 ∨ other ∈ todo := by
  induction todo generalizing state with
  | nil => exact Or.inl h
  | cons word todo ih =>
    rcases ih h with hstate | htodo
    · have hinterned : other ∈ (intern state.1 word).1 := hstate
      rcases mem_intern hinterned with hold | rfl
      · exact Or.inl hold
      · exact Or.inr List.mem_cons_self
    · exact Or.inr (List.mem_cons_of_mem word htodo)

end Vocabulary

namespace Cursor

/-- The symbols of the method are texts of its tokens, and so are the texts whose words it has added
to those that the class had. -/
structure FromTexts (known : Array String) (cursor : Cursor) : Prop where
  symbols : ∀ name ∈ cursor.symbols, name ∈ cursor.method.texts
  words : ∀ word ∈ cursor.builder.vocabulary, word ∈ known ∨
    ∃ text ∈ cursor.method.texts, word ∈ Text.subwords text

theorem mem_wordsOf {builder : ClassBuilder} {text word : String} {role : Role}
    (h : word ∈ (wordsOf builder text role).1.vocabulary) :
    word ∈ builder.vocabulary ∨ word ∈ Text.subwords text := by
  rw [wordsOf] at h
  split at h
  · have hinterned : word ∈
        ((Text.subwords text).foldl Vocabulary.internNext (builder.vocabulary, [])).1 := h
    exact Vocabulary.mem_foldl_internNext _ hinterned
  · exact Or.inl h

theorem mem_symbolOf {symbols : Array String} {text name : String} {role : Role}
    (h : name ∈ (symbolOf symbols text role).1) : name ∈ symbols ∨ name = text := by
  rw [symbolOf] at h
  split at h
  · exact Vocabulary.mem_intern h
  · exact Or.inl h

namespace FromTexts

variable {known : Array String} {cursor next : Cursor}

/-- A method that is opened knows the words of the class. -/
theorem openMethod (builder : ClassBuilder) (signature : String) :
    (builder.openMethod signature).FromTexts builder.vocabulary where
  symbols := fun _ h => absurd h (Array.not_mem_empty _)
  words := fun _ h => Or.inl h

theorem push (h : cursor.FromTexts known) (kind : Kind) (callee : Option String) :
    (cursor.push kind callee).FromTexts known where
  symbols := by
    rw [push_symbols, texts_push]
    exact h.symbols
  words := by
    rw [push_builder, texts_push]
    exact h.words

/-- A token adds nothing but its words and its name. -/
theorem emit (h : cursor.FromTexts known) (text : String) (role : Role) :
    (cursor.emit text role).FromTexts known where
  symbols := by
    rw [emit_symbols, texts_emit]
    intro name hname
    rcases mem_symbolOf hname with hold | rfl
    · exact List.mem_append_left _ (h.symbols name hold)
    · exact List.mem_append_right _ List.mem_cons_self
  words := by
    rw [emit_builder, texts_emit]
    intro word hword
    rcases mem_wordsOf hword with hold | hnew
    · refine (h.words word hold).imp_right ?_
      rintro ⟨other, hother, hmem⟩
      exact ⟨other, List.mem_append_left _ hother, hmem⟩
    · exact Or.inr ⟨text, List.mem_append_right _ List.mem_cons_self, hnew⟩

/-- **Every move that can be made keeps symbols and words those of texts.** -/
theorem move (h : cursor.FromTexts known) {m : Move} (hm : cursor.move m = .ok next) :
    next.FromTexts known := by
  rcases move_cases hm with ⟨kind, rfl, rfl⟩ | ⟨kind, callee, rfl, rfl⟩ |
    ⟨rfl, node, path, -, rfl⟩ | ⟨text, role, rfl, rfl⟩
  · exact h.push kind none
  · have hnoted : FromTexts known
        { cursor with builder := cursor.builder.noteCall cursor.signature callee } :=
      ⟨h.symbols, h.words⟩
    exact hnoted.push kind (some callee)
  · exact ⟨h.symbols, h.words⟩
  · exact h.emit text role

/-- Moves add nothing but the words and the names of their tokens. -/
theorem foldlM_move (h : cursor.FromTexts known) {moves : List Move} {last : Cursor}
    (hmoves : moves.foldlM Cursor.move cursor = .ok last) : last.FromTexts known := by
  induction moves generalizing cursor with
  | nil =>
    cases hmoves
    exact h
  | cons m moves ih =>
    obtain ⟨next, hm, hrest⟩ := exists_of_foldlM_cons hmoves
    exact ih (h.move hm) hrest

end FromTexts

end Cursor

/-! ## Classes -/

/-- The symbols of the methods are texts of their own tokens, and the words are sub-words of such
texts. -/
structure FromTexts (methods : List MethodGraph) (words : Array String) : Prop where
  symbols : ∀ method ∈ methods, ∀ name ∈ method.symbols, name ∈ method.texts
  words : ∀ word ∈ words, ∃ method ∈ methods, ∃ text ∈ method.texts, word ∈ Text.subwords text

namespace ClassBuilder

variable {builder last : ClassBuilder}

/-- Adding the method that has just been built brings in the texts of its words. -/
theorem Completes.fromTexts {declaration : Tree} {cursor : Cursor}
    (here : builder.Completes declaration cursor)
    (h : FromTexts builder.methods builder.vocabulary) :
    FromTexts (cursor.builder.add cursor.method).methods
      (cursor.builder.add cursor.method).vocabulary := by
  obtain ⟨-, ⟨signature, -, hmoves⟩, -⟩ := here
  have hcursor := (Cursor.FromTexts.openMethod builder signature).foldlM_move hmoves
  have hold : cursor.builder.methods = builder.methods := Cursor.foldlM_move_methods hmoves
  have hmethods : (cursor.builder.add cursor.method).methods =
      builder.methods ++ [cursor.method] := by
    rw [← hold]
    rfl
  rw [hmethods]
  refine ⟨fun method hmethod => ?_, fun word hword => ?_⟩
  · rcases List.mem_append.mp hmethod with hmethod | hmethod
    · exact h.symbols method hmethod
    · rw [List.mem_singleton.mp hmethod]
      exact hcursor.symbols
  · rcases hcursor.words word hword with hknown | ⟨text, htext, hmem⟩
    · obtain ⟨method, hmethod, hrest⟩ := h.words word hknown
      exact ⟨method, List.mem_append_left _ hmethod, hrest⟩
    · exact ⟨cursor.method, List.mem_append_right _ List.mem_cons_self, text, htext, hmem⟩

/-- **What is built one after another comes from its texts.** -/
theorem Builds.fromTexts {declarations : List Tree} (h : builder.Builds declarations last)
    (hbuilder : FromTexts builder.methods builder.vocabulary) :
    FromTexts last.methods last.vocabulary := by
  induction h with
  | nil => exact hbuilder
  | cons here _ ih => exact ih (here.fromTexts hbuilder)

/-- Linking returns changes neither texts nor symbols. -/
theorem fromTexts_build (h : FromTexts builder.methods builder.vocabulary) :
    FromTexts builder.build.methods builder.build.vocabulary := by
  have hviews : builder.build.methods.map (fun method => (method.symbols, method.texts)) =
      builder.methods.map fun method => (method.symbols, method.texts) := by
    show (Linkage.linked builder.methods).map _ = _
    rw [Linkage.linked, List.map_map]
    conv_rhs => rw [← List.zipIdx_map_fst 0 builder.methods, List.map_map]
    refine List.map_congr_left fun entry _ => ?_
    obtain ⟨method, i⟩ := entry
    exact congrArg (Prod.mk method.symbols) (method.texts_linkReturns _)
  refine ⟨fun method hmethod => ?_, fun word hword => ?_⟩
  · obtain ⟨old, hold, heq⟩ := List.mem_map.mp (hviews ▸ List.mem_map_of_mem hmethod)
    obtain ⟨hsymbols, htexts⟩ := Prod.mk.inj heq
    rw [← hsymbols, ← htexts]
    exact h.symbols old hold
  · obtain ⟨old, hold, hrest⟩ := h.words word hword
    obtain ⟨method, hmethod, heq⟩ := List.mem_map.mp (hviews.symm ▸ List.mem_map_of_mem hold)
    refine ⟨method, hmethod, ?_⟩
    rw [(Prod.mk.inj heq).2]
    exact hrest

end ClassBuilder

/-- **All symbols and words of the class of a tree come from the texts of tokens.** -/
theorem Tree.fromTexts {tree : Tree} {graph : ClassGraph}
    (h : tree.classGraph? = .ok (some graph)) : FromTexts graph.methods graph.vocabulary := by
  obtain ⟨name, builder, hbuilds, rfl, -⟩ := exists_of_classGraph? h
  refine ClassBuilder.fromTexts_build (hbuilds.fromTexts ⟨?_, ?_⟩)
  · exact fun _ hmethod => absurd hmethod List.not_mem_nil
  · exact fun _ hword => absurd hword (Array.not_mem_empty _)

end CodeGraph
