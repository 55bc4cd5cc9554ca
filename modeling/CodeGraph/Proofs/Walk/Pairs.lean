/-
# What there is to be read of a method

The things of a method and the pairs of things that its relations join, read off the graph of the
method alone: `MethodGraph.labelsOf`, `MethodGraph.pairs` and `MethodGraph.returnPairs`.  A relation
inside a method joins things of the method only (`MethodGraph.lt_count_of_mem_pairs`).
-/
import CodeGraph.Proofs.Build.Links
import CodeGraph.Walk.Event

namespace CodeGraph

/-- All sorts of things, in the order of the walk. -/
def Entity.all : List Entity := [.node, .token, .symbol, .word]

/-- The relations inside a method, in the order of the walk. -/
def Relation.inner : List Relation :=
  [.nextToken, .childToken, .child, .occurrenceOf, .subtokenOf, .nextLexicalUse, .assignedFrom]

namespace MethodGraph

/-! ## Things and pairs -/

variable (method : MethodGraph)

/-- How many things of a sort there are, in a class with so many words. -/
def count (wordCount : Nat) : Entity → Nat
  | .node => method.nodes.size
  | .token => method.tokens.size
  | .symbol => method.symbols.size
  | .word => wordCount

/-- How many things there are of the sorts before the given one. -/
def offset : Entity → Nat
  | .node => 0
  | .token => method.nodes.size
  | .symbol => method.nodes.size + method.tokens.size
  | .word => method.nodes.size + method.tokens.size + method.symbols.size

/-- The labels of the things of a sort, in the order of the walk. -/
def labelsOf (words : Array String) : Entity → List String
  | .node => method.preorder.filterMap fun v => method.nodes[v]?.map NonTerminal.label
  | .token => method.texts
  | .symbol => method.symbols.toList
  | .word => words.toList

/-- The pairs of all tokens, where `links` gives those of one. -/
def tokenPairs {α : Type} (links : Nat → Token → List α) : List α :=
  method.tokens.toList.zipIdx.flatMap fun (token, i) => links i token

/-- The numbers of the things that a relation joins inside the method. -/
def pairs : Relation → List (Nat × Nat)
  | .nextToken => (List.range (method.tokens.size - 1)).map fun i => (i, i + 1)
  | .childToken =>
    (List.range method.nodes.size).flatMap fun v => (method.owners.idxsOf v).map fun t => (v, t)
  | .child =>
    ((List.range method.nodes.size).drop 1).filterMap fun v =>
      method.parents[v]?.join.map fun parent => (parent, v)
  | .occurrenceOf => method.tokenPairs fun i token => token.symbol.toList.map fun s => (i, s)
  | .subtokenOf => method.tokenPairs fun i token => token.vocabulary.map fun w => (w, i)
  | .nextLexicalUse => method.tokenPairs fun i token => token.nextUse.toList.map fun j => (i, j)
  | .assignedFrom => method.tokenPairs fun i token => token.assignedFrom.toList.map fun n => (i, n)
  | .returnsTo => []

/-- The call sites that tokens go back to, each with the number of the token. -/
def returnPairs : List (CallSite × Nat) :=
  method.tokenPairs fun i token => token.returnsTo.map fun site => (site, i)

/-! ## Members -/

variable {method}

/-- A pair that is listed for the tokens is listed for one of them. -/
theorem mem_tokenPairs {α : Type} {links : Nat → Token → List α} {pair : α} :
    pair ∈ method.tokenPairs links ↔
      ∃ i token, method.tokens[i]? = some token ∧ pair ∈ links i token := by
  rw [tokenPairs, List.mem_flatMap]
  constructor
  · rintro ⟨⟨token, i⟩, hmem, hpair⟩
    refine ⟨i, token, ?_, hpair⟩
    rw [← Array.getElem?_toList]
    exact List.mk_mem_zipIdx_iff_getElem?.mp hmem
  · rintro ⟨i, token, htoken, hpair⟩
    rw [← Array.getElem?_toList] at htoken
    exact ⟨(token, i), List.mk_mem_zipIdx_iff_getElem?.mpr htoken, hpair⟩

/-- The pairs of all tokens, found token by token. -/
theorem map_tokenPairs {α β : Type} {links : Nat → Token → List α} {more : Nat → Token → List β}
    {f : α → β} (h : ∀ (i : Nat) (token : Token), method.tokens[i]? = some token →
      (links i token).map f = more i token) :
    (method.tokenPairs links).map f = method.tokenPairs more := by
  rw [tokenPairs, List.map_flatMap, tokenPairs]
  refine List.flatMap_congr ?_
  rintro ⟨token, i⟩ hmem
  apply h
  rw [← Array.getElem?_toList]
  exact List.mk_mem_zipIdx_iff_getElem?.mp hmem

/-- Pairs that begin with the token. -/
theorem mem_tokenPairs_left {α : Type} {f : Token → List α} {i : Nat} {a : α} :
    (i, a) ∈ method.tokenPairs (fun i token => (f token).map fun a => (i, a)) ↔
      ∃ token, method.tokens[i]? = some token ∧ a ∈ f token := by
  rw [mem_tokenPairs]
  constructor
  · rintro ⟨k, token, htoken, hpair⟩
    obtain ⟨b, hb, heq⟩ := List.mem_map.mp hpair
    cases heq
    exact ⟨token, htoken, hb⟩
  · rintro ⟨token, htoken, ha⟩
    exact ⟨i, token, htoken, List.mem_map.mpr ⟨a, ha, rfl⟩⟩

/-- Pairs that end with the token. -/
theorem mem_tokenPairs_right {α : Type} {f : Token → List α} {i : Nat} {a : α} :
    (a, i) ∈ method.tokenPairs (fun i token => (f token).map fun a => (a, i)) ↔
      ∃ token, method.tokens[i]? = some token ∧ a ∈ f token := by
  rw [mem_tokenPairs]
  constructor
  · rintro ⟨k, token, htoken, hpair⟩
    obtain ⟨b, hb, heq⟩ := List.mem_map.mp hpair
    cases heq
    exact ⟨token, htoken, hb⟩
  · rintro ⟨token, htoken, ha⟩
    exact ⟨i, token, htoken, List.mem_map.mpr ⟨a, ha, rfl⟩⟩

/-- A token is followed by the one behind it. -/
theorem mem_pairs_nextToken {i j : Nat} :
    (i, j) ∈ method.pairs .nextToken ↔ j = i + 1 ∧ j < method.tokens.size := by
  simp only [pairs, List.mem_map, List.mem_range, Prod.mk.injEq]
  constructor
  · rintro ⟨k, hk, rfl, rfl⟩
    exact ⟨rfl, by omega⟩
  · rintro ⟨rfl, hlt⟩
    exact ⟨i, by omega, rfl, rfl⟩

/-- A node has the tokens that it owns. -/
theorem mem_pairs_childToken {v i : Nat} :
    (v, i) ∈ method.pairs .childToken ↔ v < method.nodes.size ∧ method.owners[i]? = some v := by
  simp only [pairs, List.mem_flatMap, List.mem_map, List.mem_range, Prod.mk.injEq, mem_idxsOf_iff]
  constructor
  · rintro ⟨u, hu, t, ht, rfl, rfl⟩
    exact ⟨hu, ht⟩
  · rintro ⟨hv, hi⟩
    exact ⟨v, hv, i, hi, rfl, rfl⟩

theorem mem_pairs_child (h : method.Shaped) {p v : Nat} :
    (p, v) ∈ method.pairs .child ↔ method.parents[v]? = some (some p) := by
  simp only [pairs, List.mem_filterMap, Option.map_eq_some_iff, Prod.mk.injEq,
    Option.join_eq_some_iff]
  constructor
  · rintro ⟨u, hu, q, hq, rfl, rfl⟩
    exact hq
  · intro hv
    have hlt := (List.getElem?_eq_some_iff.mp hv).1
    have hpos := h.tree.lt_of_parent hv
    rw [length_parents] at hlt
    refine ⟨v, ?_, p, hv, rfl, rfl⟩
    rw [List.range_eq_range', List.drop_range', List.mem_range'_1]
    omega

/-- An identifier occurs as its symbol. -/
theorem mem_pairs_occurrenceOf {i s : Nat} :
    (i, s) ∈ method.pairs .occurrenceOf ↔
      ∃ token, method.tokens[i]? = some token ∧ token.symbol = some s := by
  rw [pairs, mem_tokenPairs_left]
  simp only [Option.mem_toList]

theorem mem_pairs_nextLexicalUse {i j : Nat} :
    (i, j) ∈ method.pairs .nextLexicalUse ↔
      ∃ token, method.tokens[i]? = some token ∧ token.nextUse = some j := by
  rw [pairs, mem_tokenPairs_left]
  simp only [Option.mem_toList]

theorem mem_pairs_assignedFrom {i n : Nat} :
    (i, n) ∈ method.pairs .assignedFrom ↔
      ∃ token, method.tokens[i]? = some token ∧ token.assignedFrom = some n := by
  rw [pairs, mem_tokenPairs_left]
  simp only [Option.mem_toList]

/-- **A relation inside the method joins things of the method.** -/
theorem lt_count_of_mem_pairs {words : Array String} (hshaped : method.Shaped)
    (hlinked : method.Linked words) {relation : Relation} {j k : Nat}
    (h : (j, k) ∈ method.pairs relation) :
    j < method.count words.size relation.source ∧ k < method.count words.size relation.target := by
  cases relation with
  | nextToken =>
    obtain ⟨rfl, hlt⟩ := mem_pairs_nextToken.mp h
    exact ⟨Nat.lt_of_succ_lt hlt, hlt⟩
  | childToken =>
    obtain ⟨hv, hi⟩ := mem_pairs_childToken.mp h
    have hlt : k < method.tokens.size :=
      method.length_owners ▸ (List.getElem?_eq_some_iff.mp hi).1
    exact ⟨hv, hlt⟩
  | child =>
    have hparent := (mem_pairs_child hshaped).mp h
    have hlt : k < method.nodes.size :=
      method.length_parents ▸ (List.getElem?_eq_some_iff.mp hparent).1
    exact ⟨Nat.lt_trans (hshaped.tree.lt_of_parent hparent) hlt, hlt⟩
  | occurrenceOf =>
    obtain ⟨token, hi, hs⟩ := mem_pairs_occurrenceOf.mp h
    have hsymbol := (hlinked j token hi).symbol k hs
    exact ⟨(Array.getElem?_eq_some_iff.mp hi).1, (Array.getElem?_eq_some_iff.mp hsymbol).1⟩
  | subtokenOf =>
    obtain ⟨token, hi, hw⟩ := mem_tokenPairs_right.mp h
    obtain ⟨word, hword, -⟩ := (hlinked k token hi).vocabulary j hw
    exact ⟨(Array.getElem?_eq_some_iff.mp hword).1, (Array.getElem?_eq_some_iff.mp hi).1⟩
  | nextLexicalUse =>
    obtain ⟨token, hi, hnext⟩ := mem_pairs_nextLexicalUse.mp h
    obtain ⟨-, htext⟩ := (hlinked j token hi).nextUse k hnext
    exact ⟨(Array.getElem?_eq_some_iff.mp hi).1, method.lt_size_of_texts htext⟩
  | assignedFrom =>
    obtain ⟨token, hi, hn⟩ := mem_pairs_assignedFrom.mp h
    exact ⟨(Array.getElem?_eq_some_iff.mp hi).1,
      (hlinked j token hi).assignedFrom k hn⟩
  | returnsTo => cases h

end MethodGraph

end CodeGraph
