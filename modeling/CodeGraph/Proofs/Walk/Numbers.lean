/-
# The numbers of a walk

The layout of a shaped method gives node `v` the number `first + v`, since the walk meets the nodes
in their own order, and the layouts of a class lie one behind the other
(`Layout.ofMethods?_eq_some`).  So a number tells to which method it belongs.  A sound class can
always be walked unless the numbers run out (`ClassGraph.Sound.walk_eq`).
-/
import CodeGraph.Proofs.Build.Sites
import CodeGraph.Walk.Basic

namespace CodeGraph

/-- What has a result has no fault. -/
theorem ne_error_of_toBool {ε α : Type} {result : Except ε α} (h : result.toBool = true)
    (fault : ε) : result ≠ .error fault := by
  rintro rfl
  cases h

/-! ## One method -/

namespace Layout

theorem size_foldl_setIfInBounds (pairs : List (Nat × Nat)) (positions : Array Nat) :
    (pairs.foldl (fun positions (node, k) => positions.setIfInBounds node k) positions).size =
      positions.size := by
  induction pairs generalizing positions with
  | nil => rfl
  | cons pair pairs ih =>
    rw [List.foldl_cons, ih]
    exact Array.size_setIfInBounds

/-- A place that is not among the pairs keeps its position. -/
theorem getElem?_foldl_setIfInBounds {pairs : List (Nat × Nat)} {positions : Array Nat} {v : Nat}
    (h : v ∉ pairs.map Prod.fst) :
    (pairs.foldl (fun positions (node, k) => positions.setIfInBounds node k) positions)[v]? =
      positions[v]? := by
  induction pairs generalizing positions with
  | nil => rfl
  | cons pair pairs ih =>
    rw [List.map_cons, List.mem_cons, not_or] at h
    rw [List.foldl_cons, ih h.2]
    exact Array.getElem?_setIfInBounds_ne (Ne.symm h.1)

/-- In a list without repetitions every node gets its own place. -/
theorem getElem?_positionsIn {order : List Nat} {size k v : Nat} (hnodup : order.Nodup)
    (hk : order[k]? = some v) (hv : v < size) : (positionsIn order size)[v]? = some k := by
  obtain ⟨before, after, rfl, rfl⟩ : ∃ before after, order = before ++ v :: after ∧
      before.length = k := by
    obtain ⟨hlt, heq⟩ := List.getElem?_eq_some_iff.mp hk
    refine ⟨order.take k, order.drop (k + 1), ?_, List.length_take_of_le (Nat.le_of_lt hlt)⟩
    rw [← heq, List.getElem_cons_drop, List.take_append_drop]
  have hafter : v ∉ after := by
    rw [List.nodup_append] at hnodup
    exact (List.nodup_cons.mp hnodup.2.1).1
  have hmap : ∀ start, v ∉ (after.zipIdx start).map Prod.fst := by
    intro start
    rw [List.zipIdx_map_fst]
    exact hafter
  -- what is written behind the place of `v` does not write over it
  rw [positionsIn, List.zipIdx_append, List.foldl_append, List.zipIdx_cons, List.foldl_cons,
    getElem?_foldl_setIfInBounds (hmap _), Nat.zero_add]
  refine Array.getElem?_setIfInBounds_self_of_lt ?_
  rw [size_foldl_setIfInBounds, Array.size_replicate]
  exact hv

/-- A shaped method numbers its nodes in their own order. -/
theorem nodeId_ofMethod {method : MethodGraph} (h : method.Shaped) (wordCount first : Nat)
    {v : Nat} (hv : v < method.nodes.size) :
    (ofMethod method wordCount first).nodeId v = first + v := by
  have hk : method.preorder[v]? = some v := by
    rw [h.preorder_eq, List.getElem?_range hv]
  have hnodup : method.preorder.Nodup := by
    rw [h.preorder_eq]
    exact List.nodup_range
  rw [nodeId]
  show first + ((positionsIn method.preorder method.nodes.size)[v]?).getD 0 = first + v
  rw [getElem?_positionsIn hnodup hk hv]
  rfl

/-- How many numbers a shaped method takes. -/
theorem sizeOf_eq {method : MethodGraph} (h : method.Shaped) (wordCount : Nat) :
    sizeOf method wordCount =
      method.nodes.size + method.tokens.size + method.symbols.size + wordCount := by
  rw [sizeOf, h.preorder_eq, List.length_range]

/-! ## All methods -/

/-- The first number of method `i`, when the first method begins with `first`. -/
def firstOf (wordCount : Nat) (methods : List MethodGraph) (first i : Nat) : Nat :=
  first + ((methods.take i).map (sizeOf · wordCount)).sum

theorem firstOf_zero (wordCount : Nat) (methods : List MethodGraph) (first : Nat) :
    firstOf wordCount methods first 0 = first := by
  rw [firstOf, List.take_zero]
  rfl

theorem firstOf_cons_succ (wordCount : Nat) (method : MethodGraph) (methods : List MethodGraph)
    (first i : Nat) : firstOf wordCount (method :: methods) first (i + 1) =
      firstOf wordCount methods (first + sizeOf method wordCount) i := by
  rw [firstOf, firstOf, List.take_succ_cons, List.map_cons, List.sum_cons, Nat.add_assoc]

/-- The numbers of a method end where those of the next one begin. -/
theorem firstOf_succ (wordCount first : Nat) {methods : List MethodGraph} {method : MethodGraph}
    {i : Nat} (hi : methods[i]? = some method) :
    firstOf wordCount methods first (i + 1) =
      firstOf wordCount methods first i + sizeOf method wordCount := by
  rw [firstOf, firstOf, List.take_add_one, hi, Option.toList_some, List.map_append, List.sum_append,
    List.map_singleton, List.sum_singleton, Nat.add_assoc]

theorem firstOf_mono (wordCount : Nat) (methods : List MethodGraph) (first : Nat) {i j : Nat}
    (hij : i ≤ j) : firstOf wordCount methods first i ≤ firstOf wordCount methods first j := by
  induction j, hij using Nat.le_induction with
  | base => exact Nat.le_refl _
  | succ j hij ih =>
    refine Nat.le_trans ih ?_
    rcases hj : methods[j]? with _ | method
    · rw [firstOf, firstOf, List.take_add_one, hj, Option.toList_none, List.append_nil]
    · rw [firstOf_succ _ _ hj]
      exact Nat.le_add_right _ _

/-- The numbers of nodes come before those of every later method. -/
theorem add_lt_firstOf (wordCount first : Nat) {methods : List MethodGraph} {method : MethodGraph}
    {i j v : Nat} (hi : methods[i]? = some method) (h : method.Shaped) (hv : v < method.nodes.size)
    (hij : i < j) : firstOf wordCount methods first i + v < firstOf wordCount methods first j := by
  have hmono := firstOf_mono wordCount methods first (Nat.succ_le_of_lt hij)
  rw [firstOf_succ _ _ hi, sizeOf_eq h] at hmono
  omega

/-- The layouts of a class lie one behind the other. -/
theorem ofMethods?_eq_some {wordCount : Nat} {methods : List MethodGraph} {ids rest : IdSequence}
    {layouts : List Layout} (h : ofMethods? wordCount methods ids = some (layouts, rest)) :
    layouts = methods.zipIdx.map (fun pair =>
      ofMethod pair.1 wordCount (firstOf wordCount methods ids.next pair.2)) ∧
    rest.next = firstOf wordCount methods ids.next methods.length := by
  -- by induction on the methods, where the rest begins with the numbers that the first one leaves
  induction methods generalizing ids layouts with
  | nil =>
    cases h
    exact ⟨rfl, rfl⟩
  | cons method methods ih =>
    obtain ⟨⟨first, ids'⟩, hreserve, h⟩ := Option.bind_eq_some_iff.mp h
    obtain ⟨⟨layouts', rest'⟩, hrec, h⟩ := Option.bind_eq_some_iff.mp h
    cases h
    rw [IdSequence.reserve?] at hreserve
    split at hreserve
    · cases hreserve
      obtain ⟨hlayouts, hrest⟩ := ih hrec
      constructor
      · rw [List.zipIdx_cons', List.map_cons, List.map_map, firstOf_zero, hlayouts]
        refine congrArg (ofMethod method wordCount ids.next :: ·) ?_
        refine List.map_congr_left fun pair _ => ?_
        exact congrArg (ofMethod pair.1 wordCount) (firstOf_cons_succ _ _ _ _ _).symm
      · rw [hrest, List.length_cons, firstOf_cons_succ]
    · cases hreserve

/-- There are layouts as soon as there are numbers enough for all methods. -/
theorem exists_ofMethods? {wordCount : Nat} {methods : List MethodGraph} {ids : IdSequence}
    (h : firstOf wordCount methods ids.next methods.length ≤ idLimit) :
    ∃ layouts rest, ofMethods? wordCount methods ids = some (layouts, rest) := by
  induction methods generalizing ids with
  | nil => exact ⟨[], ids, rfl⟩
  | cons method methods ih =>
    rw [List.length_cons, firstOf_cons_succ] at h
    have hfits : ids.next + sizeOf method wordCount ≤ idLimit := by
      refine Nat.le_trans ?_ h
      rw [firstOf]
      exact Nat.le_add_right _ _
    have htail : ∃ layouts rest, ofMethods? wordCount methods
        ⟨ids.next + sizeOf method wordCount, hfits⟩ = some (layouts, rest) := ih h
    obtain ⟨layouts, rest, hrest⟩ := htail
    refine ⟨ofMethod method wordCount ids.next :: layouts, rest, ?_⟩
    simp only [ofMethods?, IdSequence.reserve?, dif_pos hfits, Option.bind_eq_bind,
      Option.bind_some, hrest, Option.pure_def]

/-- There are layouts just if there are numbers enough for all methods. -/
theorem ofMethods?_eq_none_iff {wordCount : Nat} {methods : List MethodGraph} {ids : IdSequence} :
    ofMethods? wordCount methods ids = none ↔
      idLimit < firstOf wordCount methods ids.next methods.length := by
  rw [← Nat.not_le]
  constructor
  · intro hnone hle
    obtain ⟨layouts, rest, hsome⟩ := exists_ofMethods? hle
    rw [hnone] at hsome
    cases hsome
  · intro hlt
    rcases hlayouts : ofMethods? wordCount methods ids with _ | ⟨layouts, rest⟩
    · rfl
    · rw [← (ofMethods?_eq_some hlayouts).2] at hlt
      exact absurd rest.next_le hlt

/-- The numbers of the methods fill the numbers of the class. -/
theorem flatMap_range'_firstOf (wordCount first : Nat) (methods : List MethodGraph) :
    (methods.zipIdx.flatMap fun pair =>
      List.range' (firstOf wordCount methods first pair.2) (sizeOf pair.1 wordCount)) =
        List.range' first (methods.map (sizeOf · wordCount)).sum := by
  induction methods generalizing first with
  | nil => rfl
  | cons method methods ih =>
    rw [List.zipIdx_cons', List.flatMap_cons, List.flatMap_map, firstOf_zero, List.map_cons,
      List.sum_cons, ← List.range'_append_1, ← ih]
    refine congrArg (List.range' first _ ++ ·) (List.flatMap_congr fun pair _ => ?_)
    exact congrArg (List.range' · _) (firstOf_cons_succ _ _ _ _ _)

end Layout

/-! ## Every reference leads somewhere -/

namespace ClassGraph.Sound

variable {graph : ClassGraph}

/-- The children and tokens of a node are there. -/
theorem resolvesNode (h : graph.Sound) {method : MethodGraph} (hmethod : method ∈ graph.methods)
    {v : Nat} {node : NonTerminal} (hv : method.nodes[v]? = some node) :
    method.resolvesNode node = true := by
  have hshaped := h.shaped method hmethod
  have hparent : method.parents[v]? = some node.parent := by
    rw [method.getElem?_parents, hv]
    rfl
  have hlt : v < method.nodes.size := (Array.getElem?_eq_some_iff.mp hv).1
  rw [MethodGraph.resolvesNode, Bool.and_eq_true, Bool.and_eq_true, Option.all_eq_true,
    List.all_eq_true, List.all_eq_true, hshaped.children_eq v node hv, hshaped.tokens_eq v node hv]
  simp only [decide_eq_true_eq]
  refine ⟨⟨fun p hp => ?_, fun c hc => ?_⟩, fun t ht => ?_⟩
  · rw [hp] at hparent
    exact Nat.lt_trans (hshaped.tree.lt_of_parent hparent) hlt
  · rw [← method.length_parents]
    exact List.lt_add_of_mem_idxsOf c hc
  · rw [← method.length_owners]
    exact List.lt_add_of_mem_idxsOf t ht

theorem resolvesToken (h : graph.Sound) {method : MethodGraph} (hmethod : method ∈ graph.methods)
    {i : Nat} {token : Token} (hi : method.tokens[i]? = some token) :
    method.resolvesToken graph token = true := by
  have hsound := h.linked method hmethod i token hi
  rw [MethodGraph.resolvesToken, Bool.and_eq_true, Bool.and_eq_true, Bool.and_eq_true,
    Bool.and_eq_true, Option.all_eq_true, Option.all_eq_true, Option.all_eq_true, List.all_eq_true,
    List.all_eq_true]
  simp only [decide_eq_true_eq]
  refine ⟨⟨⟨⟨fun s hs => ?_, fun j hj => ?_⟩, hsound.assignedFrom⟩, fun site hsite => ?_⟩,
    fun w hw => ?_⟩
  · exact (Array.getElem?_eq_some_iff.mp (hsound.symbol s hs)).1
  · exact method.lt_size_of_texts (hsound.nextUse j hj).2
  · obtain ⟨-, node, hnode, -⟩ := h.returns method hmethod i token hi site hsite
    rw [hnode]
    rfl
  · obtain ⟨word, hword, -⟩ := hsound.vocabulary w hw
    exact (Array.getElem?_eq_some_iff.mp hword).1

/-- In a class that is sound, everything that is referred to is there. -/
theorem resolves (h : graph.Sound) : graph.resolves = true := by
  rw [ClassGraph.resolves, List.all_eq_true]
  intro method hmethod
  rw [MethodGraph.resolves, Bool.and_eq_true, Bool.and_eq_true, decide_eq_true_eq,
    Array.all_eq_true, Array.all_eq_true]
  refine ⟨⟨(h.shaped method hmethod).size_pos, fun v hv => ?_⟩, fun i hi => ?_⟩
  · exact h.resolvesNode hmethod (Array.getElem?_eq_getElem hv)
  · exact h.resolvesToken hmethod (Array.getElem?_eq_getElem hi)

/-- **A sound class can be walked unless the numbers run out.** -/
theorem walk_eq (h : graph.Sound) {ids : IdSequence}
    (hids : graph.walk ids ≠ .error .idsExhausted) : ∃ layouts rest,
      Layout.ofMethods? graph.vocabulary.size graph.methods ids = some (layouts, rest) ∧
        graph.walk ids = .ok (graph.eventsWith layouts, rest) := by
  rw [ClassGraph.walk] at hids ⊢
  split at hids
  · exact absurd rfl hids
  · next layouts rest hlayouts =>
    refine ⟨layouts, rest, hlayouts, ?_⟩
    rw [if_pos h.resolves]

end ClassGraph.Sound

end CodeGraph
