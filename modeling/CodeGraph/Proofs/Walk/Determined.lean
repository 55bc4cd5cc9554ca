/-
# What determines a method

Two shaped methods with the same signature, the same labels of all things and the same pairs in all
relations are one and the same method (`MethodGraph.ReadsAs.eq`): there is nothing in the graph of a
method that is not to be read in the events of a walk.
-/
import CodeGraph.Proofs.Graph.Label
import CodeGraph.Proofs.Walk.Reading

namespace CodeGraph

attribute [ext] CallSite NonTerminal Token MethodGraph

namespace MethodGraph

/-- All that can be read of two methods, in classes with the words given, is the same. -/
structure ReadsAs (method other : MethodGraph) (words otherWords : Array String) : Prop where
  signature : method.signature = other.signature
  labels : ∀ sort, method.labelsOf words sort = other.labelsOf otherWords sort
  pairs : ∀ relation, method.pairs relation = other.pairs relation
  returns : method.returnPairs = other.returnPairs

/-- What an item of a list gives, picked out by the number of the item. -/
theorem flatMap_zipIdx_ite {α β : Type} (f : α → List β) (xs : List α) (k i : Nat) :
    ((xs.zipIdx k).flatMap fun pair => if pair.2 = k + i then f pair.1 else []) =
      (xs[i]?.map f).getD [] := by
  induction xs generalizing k i with
  | nil => rfl
  | cons x xs ih =>
    rw [List.zipIdx_cons, List.flatMap_cons]
    cases i with
    | zero =>
      have hrest : ((xs.zipIdx (k + 1)).flatMap fun pair =>
          if pair.2 = k + 0 then f pair.1 else []) = [] := by
        rw [List.flatMap_eq_nil_iff]
        rintro pair hpair
        have hle := List.le_snd_of_mem_zipIdx hpair
        exact if_neg (by omega)
      rw [hrest, if_pos (Nat.add_zero k).symm, List.append_nil]
      rfl
    | succ i =>
      have hne : k ≠ k + (i + 1) := by omega
      have hplace : k + (i + 1) = k + 1 + i := by omega
      rw [if_neg hne, List.nil_append, hplace, ih]
      rfl

section

variable {method other : MethodGraph} {i : Nat} {token otherToken : Token}
  (hi : method.tokens[i]? = some token) (hi' : other.tokens[i]? = some otherToken)
include hi hi'

/-- The pairs of all tokens tell what the token with a number is paired with. -/
theorem eq_of_tokenPairs_right {α : Type} {f : Token → List α}
    (h : method.tokenPairs (fun k token => (f token).map fun a => (a, k)) =
      other.tokenPairs fun k token => (f token).map fun a => (a, k)) : f token = f otherToken := by
  have hpick : ∀ each : MethodGraph,
      (each.tokenPairs fun k token => (f token).map fun a => (a, k)).filterMap
        (fun pair => if pair.2 = i then some pair.1 else none) =
          (each.tokens[i]?.map f).getD [] := by
    intro each
    rw [tokenPairs, List.filterMap_flatMap, ← Array.getElem?_toList, ← flatMap_zipIdx_ite f _ 0 i]
    refine List.flatMap_congr fun pair _ => ?_
    rw [List.filterMap_map, Nat.zero_add]
    split
    · next heq =>
      refine (List.filterMap_eq_map_iff_forall_eq_some.mpr fun a _ => ?_).trans (List.map_id _)
      exact if_pos heq
    · next hne => exact List.filterMap_eq_nil_iff.mpr fun a _ => if_neg hne
  have hpicked := hpick method
  rw [h, hpick other, hi, hi'] at hpicked
  exact hpicked.symm

/-- What a token leads to is known from the pairs. -/
theorem eq_of_tokenPairs_left {f : Token → Option Nat}
    (h : method.tokenPairs (fun k token => (f token).toList.map fun a => (k, a)) =
      other.tokenPairs fun k token => (f token).toList.map fun a => (k, a)) :
    f token = f otherToken := by
  have hmem : ∀ (each : MethodGraph) (found : Token), each.tokens[i]? = some found → ∀ a : Nat,
      (i, a) ∈ each.tokenPairs (fun k token => (f token).toList.map fun a => (k, a)) ↔
        f found = some a := by
    intro each found hfound a
    rw [mem_tokenPairs_left, hfound]
    simp only [Option.some.injEq, exists_eq_left', Option.mem_toList]
  ext a
  rw [← hmem method token hi, h, hmem other otherToken hi']

end

namespace ReadsAs

variable {method other : MethodGraph} {words otherWords : Array String}
  (h : method.ReadsAs other words otherWords)
include h

/-- The labels of the nodes are known from the walk. -/
theorem nodeLabels_eq (hshaped : method.Shaped) (hother : other.Shaped) :
    method.nodes.toList.map NonTerminal.label = other.nodes.toList.map NonTerminal.label := by
  rw [← hshaped.nodeLabels_eq, ← hother.nodeLabels_eq]
  exact h.labels .node

/-- The texts of the tokens are known from the walk. -/
theorem texts_eq : method.texts = other.texts := h.labels .token

theorem symbols_eq : method.symbols = other.symbols := Array.toList_inj.mp (h.labels .symbol)

/-- The number of tokens is known from the walk. -/
theorem tokens_size_eq : method.tokens.size = other.tokens.size := by
  rw [← method.length_texts, ← other.length_texts, h.texts_eq]

theorem nodes_size_eq (hshaped : method.Shaped) (hother : other.Shaped) :
    method.nodes.size = other.nodes.size := by
  have hlength := congrArg List.length (h.nodeLabels_eq hshaped hother)
  rw [List.length_map, List.length_map, Array.length_toList, Array.length_toList] at hlength
  exact hlength

/-- The nodes that are paired as parent and child tell the parents of all nodes. -/
theorem parents_eq (hshaped : method.Shaped) (hother : other.Shaped) :
    method.parents = other.parents := by
  have hlength : method.parents.length = other.parents.length := by
    rw [length_parents, length_parents, h.nodes_size_eq hshaped hother]
  apply List.ext_getElem hlength
  intro v hv hv'
  ext p
  have hpair := mem_pairs_child (p := p) (v := v) hshaped
  rw [h.pairs .child, mem_pairs_child hother, List.getElem?_eq_getElem hv,
    List.getElem?_eq_getElem hv', Option.some.injEq, Option.some.injEq] at hpair
  exact hpair.symm

/-- The nodes that are paired with tokens tell the owners of all tokens. -/
theorem owners_eq (hshaped : method.Shaped) (hother : other.Shaped) :
    method.owners = other.owners := by
  have hpair : ∀ (each : MethodGraph), each.Shaped → ∀ i v : Nat,
      each.owners[i]? = some v ↔ (v, i) ∈ each.pairs .childToken := by
    intro each heach i v
    rw [mem_pairs_childToken, iff_and_self]
    intro hv
    exact heach.owner_lt v (List.mem_of_getElem? hv)
  apply List.ext_getElem?
  intro i
  ext v
  rw [hpair method hshaped, hpair other hother, h.pairs .childToken]

theorem nodes_eq (hshaped : method.Shaped) (hother : other.Shaped) :
    method.nodes = other.nodes := by
  apply Array.ext (h.nodes_size_eq hshaped hother)
  intro v hv hv'
  have hget := Array.getElem?_eq_getElem hv
  have hget' := Array.getElem?_eq_getElem hv'
  have hlabel : method.nodes[v].label = other.nodes[v].label := by
    have hlabels := congrArg (·[v]?) (h.nodeLabels_eq hshaped hother)
    simp only [List.getElem?_map, Array.getElem?_toList, hget, hget', Option.map_some,
      Option.some.injEq] at hlabels
    exact hlabels
  have hparent : method.nodes[v].parent = other.nodes[v].parent := by
    have hparents := congrArg (·[v]?) (h.parents_eq hshaped hother)
    simp only [getElem?_parents, hget, hget', Option.map_some, Option.some.injEq] at hparents
    exact hparents
  obtain ⟨hkind, hcallee⟩ := NonTerminal.label_inj hlabel
  apply NonTerminal.ext hkind hparent
  · rw [hshaped.children_eq v _ hget, hother.children_eq v _ hget', h.parents_eq hshaped hother]
  · rw [hshaped.tokens_eq v _ hget, hother.tokens_eq v _ hget', h.owners_eq hshaped hother]
  · exact hcallee

theorem tokens_eq (hshaped : method.Shaped) (hother : other.Shaped) :
    method.tokens = other.tokens := by
  apply Array.ext h.tokens_size_eq
  intro i hi hi'
  have hget := Array.getElem?_eq_getElem hi
  have hget' := Array.getElem?_eq_getElem hi'
  have htext := congrArg (·[i]?) h.texts_eq
  have howner := congrArg (·[i]?) (h.owners_eq hshaped hother)
  simp only [getElem?_texts, hget, hget', Option.map_some, Option.some.injEq] at htext
  simp only [owners, List.getElem?_map, Array.getElem?_toList, hget, hget', Option.map_some,
    Option.some.injEq] at howner
  apply Token.ext htext howner
  · exact eq_of_tokenPairs_left hget hget' (h.pairs .occurrenceOf)
  · exact eq_of_tokenPairs_left hget hget' (h.pairs .nextLexicalUse)
  · exact eq_of_tokenPairs_left hget hget' (h.pairs .assignedFrom)
  · exact eq_of_tokenPairs_right hget hget' h.returns
  · exact eq_of_tokenPairs_right hget hget' (h.pairs .subtokenOf)

/-- **A shaped method is determined by what can be read of it.** -/
theorem eq (hshaped : method.Shaped) (hother : other.Shaped) : method = other :=
  MethodGraph.ext h.signature (h.nodes_eq hshaped hother) (h.tokens_eq hshaped hother) h.symbols_eq

end ReadsAs

end MethodGraph

end CodeGraph
