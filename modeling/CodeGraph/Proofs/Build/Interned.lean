/-
# The words of a class and of its tokens

A class numbers each word at its first occurrence in the texts that are emitted for it, and the
numbers that a token gets lead to the words of its text, each at its first occurrence there
(`Vocabulary.foldl_internNext_spells`).  The moves of a cursor keep both, for the class and for all
tokens of the method (`Cursor.Spelled.tryMove`).
-/
import CodeGraph.Proofs.Build.Sites

namespace CodeGraph

/-! ## First occurrences -/

/-- A member at the end is the first of its kind unless it has occurred before. -/
theorem eraseDups_concat {α : Type} [BEq α] [LawfulBEq α] (xs : List α) (a : α)
    [Decidable (a ∈ xs)] :
    (xs ++ [a]).eraseDups = if a ∈ xs then xs.eraseDups else xs.eraseDups ++ [a] := by
  rw [List.eraseDups_append, List.removeAll, List.filter_singleton]
  by_cases hmem : a ∈ xs
  · rw [if_pos hmem, List.elem_eq_true_of_mem hmem]
    exact List.append_nil _
  · have hnew : List.elem a xs = false := by simpa using hmem
    rw [if_neg hmem, hnew]
    rfl

/-- Without duplicates every member is there once. -/
theorem nodup_eraseDups {α : Type} [BEq α] [LawfulBEq α] (xs : List α) : xs.eraseDups.Nodup := by
  classical
  induction xs using List.reverseRecOn with
  | nil => exact List.nodup_nil
  | append_singleton xs a ih =>
    rw [eraseDups_concat]
    split
    · exact ih
    · next hnew =>
      rw [List.nodup_append_comm, List.singleton_append, List.nodup_cons, List.mem_eraseDups]
      exact ⟨hnew, ih⟩

/-! ## Interning -/

namespace Vocabulary

/-- The numbers lead to the words, one to each. -/
def Spells (words : Array String) (ids : List Nat) (spelling : List String) : Prop :=
  ids.map (words[·]?) = spelling.map some

namespace Spells

variable {words more : Array String} {ids : List Nat} {spelling : List String}

/-- More words do not change what numbers lead to. -/
theorem grow (h : Spells words ids spelling) (hgrow : Grows words more) :
    Spells more ids spelling := by
  rw [Spells, ← h]
  refine List.map_congr_left fun i hi => ?_
  have hmem : words[i]? ∈ spelling.map some := by
    rw [← h]
    exact List.mem_map_of_mem hi
  obtain ⟨word, -, hword⟩ := List.mem_map.mp hmem
  rw [← hword, hgrow i word hword.symm]

/-- Different words have different numbers. -/
theorem nodup (h : Spells words ids spelling) (hspelling : spelling.Nodup) : ids.Nodup := by
  refine List.Nodup.of_map (words[·]?) ?_
  rw [h]
  exact hspelling.map (Option.some_injective _)

theorem concat (h : Spells words ids spelling) {i : Nat} {word : String}
    (hi : words[i]? = some word) : Spells words (ids ++ [i]) (spelling ++ [word]) := by
  rw [Spells, List.map_append, List.map_append, h, List.map_singleton, List.map_singleton, hi]

/-- In a table without repetitions a word is spelled just if its number is there. -/
theorem mem_iff (h : Spells words ids spelling) (hwords : words.toList.Nodup) {i : Nat}
    {word : String} (hi : words[i]? = some word) : i ∈ ids ↔ word ∈ spelling := by
  constructor
  · intro hmem
    have hword : some word ∈ spelling.map some := by
      rw [← h, ← hi]
      exact List.mem_map_of_mem hmem
    exact (List.mem_map_of_injective (Option.some_injective _)).mp hword
  · intro hmem
    have hword : some word ∈ ids.map (words[·]?) := by
      rw [h]
      exact List.mem_map_of_mem hmem
    obtain ⟨j, hj, heq⟩ := List.mem_map.mp hword
    rw [← hi, ← Array.getElem?_toList, ← Array.getElem?_toList] at heq
    have hlt : j < words.toList.length := by
      rw [← Array.getElem?_toList] at hi
      rw [hi] at heq
      exact (List.getElem?_eq_some_iff.mp heq).1
    rwa [← (List.getElem?_inj hlt hwords).mp heq]

end Spells

/-- A word that is interned stands at the end if it is new. -/
theorem intern_toList (words : Array String) (word : String) :
    (intern words word).1.toList =
      if word ∈ words.toList then words.toList else words.toList ++ [word] := by
  rw [intern]
  split
  · next i hi =>
    obtain ⟨hlt, heq, -⟩ := Array.findIdx?_eq_some_iff_getElem.mp hi
    have hmem : word ∈ words.toList := by
      rw [← beq_iff_eq.mp heq]
      exact Array.getElem_mem_toList hlt
    rw [if_pos hmem]
  · next hnone =>
    have hmem : word ∉ words.toList := by
      intro hmem
      have hne := Array.findIdx?_eq_none_iff.mp hnone word (Array.mem_toList_iff.mp hmem)
      simp at hne
    rw [if_neg hmem, Array.toList_push]

/-- **Words are listed, and their numbers noted, at their first occurrences.** -/
theorem foldl_internNext_spells (todo : List String) {words : Array String} {ids : List Nat}
    {met done : List String} (hwords : words.toList = met.eraseDups)
    (hids : Spells words ids done.eraseDups) :
    (todo.foldl internNext (words, ids)).1.toList = (met ++ todo).eraseDups ∧
      Spells (todo.foldl internNext (words, ids)).1 (todo.foldl internNext (words, ids)).2
        (done ++ todo).eraseDups := by
  -- by induction on what is to be done, where the first word goes over to what has been met
  induction todo generalizing words ids met done with
  | nil =>
    rw [List.append_nil, List.append_nil]
    exact ⟨hwords, hids⟩
  | cons word todo ih =>
    obtain ⟨hgrow, hget⟩ := intern_spec words word
    have hlist : (intern words word).1.toList = (met ++ [word]).eraseDups := by
      rw [intern_toList, eraseDups_concat, hwords]
      simp only [List.mem_eraseDups]
    have hnodup : (intern words word).1.toList.Nodup := by
      rw [hlist]
      exact nodup_eraseDups _
    have hspells : Spells (internNext (words, ids) word).1 (internNext (words, ids) word).2
        (done ++ [word]).eraseDups := by
      have hids := hids.grow hgrow
      show Spells (intern words word).1
        (if (intern words word).2 ∈ ids then ids else ids ++ [(intern words word).2]) _
      simp only [eraseDups_concat, hids.mem_iff hnodup hget, List.mem_eraseDups]
      split
      · exact hids
      · exact hids.concat hget
    have htail := ih hlist hspells
    rw [List.append_assoc, List.append_assoc] at htail
    exact htail

end Vocabulary

/-! ## Emitted texts -/

/-- A text that is emitted, and its role. -/
structure Mention where
  text : String
  role : Role
  deriving DecidableEq, Repr

/-- The words that an emitted text adds to its class: names and literals are made of words. -/
def Mention.words : Mention → List String
  | ⟨_, .plain⟩ => []
  | ⟨text, .identifier⟩ => Text.subwords text
  | ⟨text, .literal⟩ => Text.subwords text

/-- The text that a move emits. -/
def Cursor.Move.mention? : Cursor.Move → Option Mention
  | .emit text role => some ⟨text, role⟩
  | .descend _ | .descendCall _ _ | .ascend => none

/-- The token is that of an emitted text: its numbers lead to the words of the text, each once and
at its first occurrence. -/
structure Token.Spelled (words : Array String) (token : Token) (mention : Mention) : Prop where
  text_eq : token.text = mention.text
  plain : mention.role = .plain → token.vocabulary = []
  nodup : token.vocabulary.Nodup
  spells : Vocabulary.Spells words token.vocabulary mention.words.eraseDups

/-- The tokens of a method are those of the texts emitted for it. -/
def MethodGraph.Spelled (words : Array String) (method : MethodGraph) (mentions : List Mention) :
    Prop :=
  List.Forall₂ (Token.Spelled words) method.tokens.toList mentions

/-- A token is spelt the same in a larger vocabulary. -/
theorem Token.Spelled.grow {words more : Array String} {token : Token} {mention : Mention}
    (h : token.Spelled words mention) (hgrow : Grows words more) : token.Spelled more mention :=
  ⟨h.text_eq, h.plain, h.nodup, h.spells.grow hgrow⟩

namespace MethodGraph.Spelled

variable {words more : Array String} {method other : MethodGraph} {mentions : List Mention}

/-- A method is spelt the same in a larger vocabulary. -/
theorem grow (h : method.Spelled words mentions) (hgrow : Grows words more) :
    method.Spelled more mentions :=
  h.imp fun _ _ htoken => htoken.grow hgrow

/-- Only the texts of the tokens and their numbers matter. -/
theorem congr (h : method.Spelled words mentions)
    (heq : other.tokens.toList.map (fun token => (token.text, token.vocabulary)) =
      method.tokens.toList.map fun token => (token.text, token.vocabulary)) :
    other.Spelled words mentions := by
  have hview (method : MethodGraph) : method.Spelled words mentions ↔
      List.Forall₂ (fun view => Token.Spelled words ⟨view.1, 0, none, none, none, [], view.2⟩)
        (method.tokens.toList.map fun token => (token.text, token.vocabulary)) mentions := by
    rw [List.forall₂_map_left_iff]
    exact ⟨fun h => h.imp fun _ _ h => ⟨h.text_eq, h.plain, h.nodup, h.spells⟩,
      fun h => h.imp fun _ _ h => ⟨h.text_eq, h.plain, h.nodup, h.spells⟩⟩
  rw [hview, heq, ← hview]
  exact h

theorem nil (h : method.tokens = #[]) : method.Spelled words [] := by
  rw [Spelled, h]
  exact List.Forall₂.nil

/-- Linking returns does not change how tokens are spelled. -/
theorem linkReturns (h : method.Spelled words mentions) (sites : List CallSite) :
    (Linkage.linkReturns method sites).Spelled words mentions :=
  h.congr (method.map_linkReturns sites _ fun _ _ => rfl)

end MethodGraph.Spelled

/-! ## Moves of a cursor -/

namespace Cursor

/-- The class has the words of the texts met so far, and the tokens of the open method are those of
its own texts. -/
structure Spelled (cursor : Cursor) (met own : List Mention) : Prop where
  vocabulary : cursor.builder.vocabulary.toList = (met.flatMap Mention.words).eraseDups
  tokens : cursor.method.Spelled cursor.builder.vocabulary own

variable {cursor : Cursor} {met own : List Mention}

/-- The words of an emitted text are interned one after the other. -/
theorem wordsOf_eq (builder : ClassBuilder) (text : String) (role : Role) :
    ((wordsOf builder text role).1.vocabulary, (wordsOf builder text role).2) =
      (Mention.words ⟨text, role⟩).foldl Vocabulary.internNext (builder.vocabulary, []) := by
  cases role <;> rfl

namespace Spelled

theorem push (h : cursor.Spelled met own) (kind : Kind) (callee : Option String) :
    (cursor.push kind callee).Spelled met own where
  vocabulary := by
    rw [push_builder]
    exact h.vocabulary
  tokens := by
    rw [push_builder]
    refine h.tokens.congr ?_
    show (cursor.push kind callee).tokens.toList.map _ = cursor.tokens.toList.map _
    rw [push_tokens, map_settledTokens _ fun _ _ => rfl]

theorem emit (h : cursor.Spelled met own) (text : String) (role : Role) :
    (cursor.emit text role).Spelled (met ++ [⟨text, role⟩]) (own ++ [⟨text, role⟩]) := by
  obtain ⟨hwords, hids⟩ := Vocabulary.foldl_internNext_spells (Mention.words ⟨text, role⟩)
    h.vocabulary (show Vocabulary.Spells cursor.builder.vocabulary [] [].eraseDups from rfl)
  rw [← wordsOf_eq] at hwords hids
  refine ⟨?_, ?_⟩
  · rw [emit_builder, List.flatMap_append, List.flatMap_singleton]
    exact hwords
  · rw [emit_builder]
    have htokens : (cursor.emit text role).method.tokens.toList =
        (linkUse cursor.tokens text cursor.tokens.size).toList ++
          [{ text, owner := cursor.current, symbol := (symbolOf cursor.symbols text role).2
             vocabulary := (wordsOf cursor.builder text role).2 }] := by
      show (cursor.emit text role).tokens.toList = _
      rw [emit_tokens, Array.toList_push]
    rw [MethodGraph.Spelled, htokens]
    refine List.rel_append ?_ (List.forall₂_cons.mpr ⟨?_, List.Forall₂.nil⟩)
    · -- the tokens from before keep their texts and numbers, and the table only grows
      have hgrow := (wordsOf_spec cursor.builder text role).1
      have hlinked : MethodGraph.Spelled (wordsOf cursor.builder text role).1.vocabulary
          { cursor.method with tokens := linkUse cursor.tokens text cursor.tokens.size } own :=
        (h.tokens.grow hgrow).congr (map_linkUse _ (fun _ _ => rfl) _ _ _)
      exact hlinked
    · refine ⟨rfl, fun hrole => ?_, hids.nodup (nodup_eraseDups _), hids⟩
      obtain rfl : role = .plain := hrole
      rfl

/-- **Each move keeps the class and the method spelled.** -/
theorem tryMove (h : cursor.Spelled met own) (m : Move) :
    (cursor.tryMove m).Spelled (met ++ m.mention?.toList) (own ++ m.mention?.toList) := by
  cases m with
  | descend kind =>
    show (cursor.push kind none).Spelled (met ++ []) (own ++ [])
    rw [List.append_nil, List.append_nil]
    exact h.push kind none
  | descendCall kind callee =>
    have hnoted : Cursor.Spelled
        { cursor with builder := cursor.builder.noteCall cursor.signature callee } met own :=
      ⟨h.vocabulary, h.tokens⟩
    show Cursor.Spelled (Cursor.push _ kind (some callee)) (met ++ []) (own ++ [])
    rw [List.append_nil, List.append_nil]
    exact hnoted.push kind (some callee)
  | ascend =>
    rw [Move.mention?, Option.toList_none, List.append_nil, List.append_nil]
    refine tryMove_of_move (p := fun next => next.Spelled met own) (fun next hm => ?_) h
    obtain ⟨node, path, -, rfl⟩ := cursor.ascend_eq_ok hm
    exact ⟨h.vocabulary, h.tokens⟩
  | emit text role => exact h.emit text role

end Spelled

end Cursor

end CodeGraph
