/-
# Where the returns of a class go

The graph of a class differs from its methods before linking in the call sites of their returns
alone.  Each of these call sites is a node of the class that calls the method of the return
(`ClassGraph.Sound.returns`), so all references of a finished class lead somewhere.
-/
import CodeGraph.Proofs.Build.Run

namespace CodeGraph

/-! ## Calls and links -/

/-- The call sites of a method are the nodes of its walk that call something. -/
theorem MethodGraph.mem_callSites {method : MethodGraph} {v : Nat} {callee : String} :
    (v, callee) ∈ method.callSites ↔
      v ∈ method.preorder ∧ ∃ node, method.nodes[v]? = some node ∧ node.callee = some callee := by
  rw [callSites, List.mem_filterMap]
  constructor
  · rintro ⟨u, hmem, hu⟩
    obtain ⟨node, hnode, hu⟩ := Option.bind_eq_some_iff.mp hu
    obtain ⟨name, hname, hu⟩ := Option.bind_eq_some_iff.mp hu
    cases hu
    exact ⟨hmem, node, hnode, hname⟩
  · rintro ⟨hmem, node, hnode, hname⟩
    refine ⟨v, hmem, ?_⟩
    simp only [hnode, hname, Option.bind_eq_bind, Option.bind_some, Option.pure_def]

namespace Linkage

/-- A call is listed with the method and the node that it is in. -/
theorem mem_calls {methods : List MethodGraph} {site : CallSite} {callee : String} :
    (site, callee) ∈ calls methods ↔
      ∃ method, methods[site.method]? = some method ∧ (site.node, callee) ∈ method.callSites := by
  rw [calls, List.mem_flatMap]
  constructor
  · rintro ⟨⟨method, caller⟩, hmethod, h⟩
    obtain ⟨⟨v, name⟩, hv, h⟩ := List.mem_map.mp h
    cases h
    exact ⟨method, List.mem_zipIdx_iff_getElem?.mp hmethod, hv⟩
  · rintro ⟨method, hmethod, hv⟩
    exact ⟨(method, site.method), List.mem_zipIdx_iff_getElem?.mpr hmethod,
      List.mem_map.mpr ⟨_, hv, rfl⟩⟩

/-- Method number `t` has the signature, and no method before it has. -/
def IsFirst (methods : List MethodGraph) (t : Nat) (signature : String) : Prop :=
  (∃ method, methods[t]? = some method ∧ method.signature = signature) ∧
    ∀ u < t, ∀ other, methods[u]? = some other → other.signature ≠ signature

/-- A call reaches the first method that has the signature. -/
theorem targetOf?_eq_some_iff {methods : List MethodGraph} {callee : String} {t : Nat} :
    targetOf? methods callee = some t ↔ IsFirst methods t callee := by
  rw [targetOf?, List.findIdx?_eq_some_iff_getElem, IsFirst]
  constructor
  · rintro ⟨hlt, hp, hbefore⟩
    refine ⟨⟨methods[t], List.getElem?_eq_getElem hlt, beq_iff_eq.mp hp⟩, ?_⟩
    intro u hu other hother
    rw [List.getElem?_eq_getElem (Nat.lt_trans hu hlt), Option.some.injEq] at hother
    subst hother
    exact mt beq_iff_eq.mpr (hbefore u hu)
  · rintro ⟨⟨method, hmethod, hsignature⟩, hbefore⟩
    obtain ⟨hlt, rfl⟩ := List.getElem?_eq_some_iff.mp hmethod
    refine ⟨hlt, beq_iff_eq.mpr hsignature, ?_⟩
    intro u hu hp
    exact hbefore u hu _ (List.getElem?_eq_getElem (Nat.lt_trans hu hlt)) (beq_iff_eq.mp hp)

/-- The sites of a method are those of the calls that reach it. -/
theorem mem_sitesOf {methods : List MethodGraph} {site : CallSite} {target : Nat} :
    site ∈ sitesOf (links methods) target ↔
      ∃ callee, (site, callee) ∈ calls methods ∧ IsFirst methods target callee := by
  rw [sitesOf, List.mem_filterMap]
  constructor
  · rintro ⟨link, hlink, h⟩
    split at h
    · next htarget =>
      cases h
      rw [links, List.mem_filterMap] at hlink
      obtain ⟨⟨site, callee⟩, hcall, hlink⟩ := hlink
      obtain ⟨i, hi, rfl⟩ := Option.map_eq_some_iff.mp hlink
      exact ⟨callee, hcall, targetOf?_eq_some_iff.mp (htarget ▸ hi)⟩
    · cases h
  · rintro ⟨callee, hcall, hfirst⟩
    refine ⟨⟨target, site⟩, ?_, if_pos rfl⟩
    rw [links, List.mem_filterMap]
    refine ⟨(site, callee), hcall, ?_⟩
    show (targetOf? methods callee).map _ = _
    rw [targetOf?_eq_some_iff.mpr hfirst]
    rfl

/-- Each method is linked with the calls that it is the target of. -/
theorem getElem?_linked (methods : List MethodGraph) (i : Nat) :
    (linked methods)[i]? =
      methods[i]?.map fun method => linkReturns method (sitesOf (links methods) i) := by
  rw [linked, List.getElem?_map, List.getElem?_zipIdx, Option.map_map]
  cases methods[i]? with
  | none => rfl
  | some method =>
    simp only [Option.map_some, Function.comp_apply, Nat.zero_add]

end Linkage

/-! ## What linking keeps -/

namespace MethodGraph

variable (method : MethodGraph) (sites : List CallSite)

/-- Linking changes nothing that a view of tokens without their call sites shows. -/
theorem map_linkReturns {β : Type} (g : Token → β)
    (hg : ∀ (token : Token) sites, g { token with returnsTo := sites } = g token) :
    (Linkage.linkReturns method sites).tokens.toList.map g = method.tokens.toList.map g := by
  rw [Linkage.linkReturns, Array.toList_map, List.map_map]
  refine List.map_congr_left fun token _ => ?_
  rw [Function.comp_apply]
  split
  · exact hg token _
  · rfl

theorem owners_linkReturns : (Linkage.linkReturns method sites).owners = method.owners :=
  method.map_linkReturns sites Token.owner fun _ _ => rfl

theorem texts_linkReturns : (Linkage.linkReturns method sites).texts = method.texts :=
  method.map_linkReturns sites Token.text fun _ _ => rfl

variable {method sites}

/-- A token of a linked method is one from before, with the call sites added if it is a return. -/
theorem getElem?_linkReturns {i : Nat} {token : Token}
    (h : (Linkage.linkReturns method sites).tokens[i]? = some token) :
    ∃ old, method.tokens[i]? = some old ∧ token =
      { old with returnsTo := old.returnsTo ++ if old.isReturn then sites else [] } := by
  rw [Linkage.linkReturns, Array.getElem?_map, Option.map_eq_some_iff] at h
  obtain ⟨old, hold, rfl⟩ := h
  refine ⟨old, hold, ?_⟩
  split
  · rfl
  · rw [List.append_nil]

theorem Shaped.linkReturns (h : method.Shaped) (sites : List CallSite) :
    (Linkage.linkReturns method sites).Shaped where
  tree := h.tree
  children_eq := h.children_eq
  tokens_eq := by
    rw [owners_linkReturns]
    exact h.tokens_eq
  owner_lt := by
    rw [owners_linkReturns]
    exact h.owner_lt

theorem Linked.linkReturns {words : Array String} (h : method.Linked words)
    (sites : List CallSite) : (Linkage.linkReturns method sites).Linked words := by
  intro i token htoken
  obtain ⟨old, hold, rfl⟩ := getElem?_linkReturns htoken
  have hsound := h i old hold
  exact ⟨hsound.symbol, by rw [texts_linkReturns]; exact hsound.nextUse, hsound.assignedFrom,
    hsound.vocabulary⟩

end MethodGraph

/-! ## Finished classes -/

/-- All methods of the class have their shape, all links of their tokens lead where they should, and
every call site that a return goes back to calls the method of the return. -/
structure ClassGraph.Sound (graph : ClassGraph) : Prop where
  shaped : ∀ method ∈ graph.methods, method.Shaped
  linked : ∀ method ∈ graph.methods, method.Linked graph.vocabulary
  returns : ∀ method ∈ graph.methods, ∀ (i : Nat) (token : Token),
    method.tokens[i]? = some token → ∀ site ∈ token.returnsTo, token.isReturn = true ∧
      ∃ node, graph.callSite? site = some node ∧ node.callee = some method.signature

/-- **The class of a run is sound.** -/
theorem ClassBuilder.IsRun.sound {builder : ClassBuilder} (h : builder.IsRun) :
    builder.build.Sound := by
  have hmethod : ∀ method ∈ builder.build.methods, ∃ i old, builder.methods[i]? = some old ∧
      method = Linkage.linkReturns old (Linkage.sitesOf (Linkage.links builder.methods) i) := by
    intro method hmem
    obtain ⟨i, hi⟩ := List.mem_iff_getElem?.mp hmem
    change (Linkage.linked builder.methods)[i]? = some method at hi
    rw [Linkage.getElem?_linked, Option.map_eq_some_iff] at hi
    obtain ⟨old, hold, rfl⟩ := hi
    exact ⟨i, old, hold, rfl⟩
  refine ⟨fun method hmem => ?_, fun method hmem => ?_, fun method hmem k token htoken site => ?_⟩
  · obtain ⟨i, old, hold, rfl⟩ := hmethod method hmem
    exact (h.finished old (List.mem_of_getElem? hold)).shaped.linkReturns _
  · obtain ⟨i, old, hold, rfl⟩ := hmethod method hmem
    exact (h.finished old (List.mem_of_getElem? hold)).linked.linkReturns _
  · obtain ⟨i, old, hold, rfl⟩ := hmethod method hmem
    obtain ⟨before, hbefore, rfl⟩ := MethodGraph.getElem?_linkReturns htoken
    intro hsite
    -- before linking there are no call sites, so they are all from the links
    have hunlinked := (h.finished old (List.mem_of_getElem? hold)).unlinked k before hbefore
    dsimp only at hsite
    rw [hunlinked, List.nil_append] at hsite
    split at hsite
    · next hreturn =>
      refine ⟨hreturn, ?_⟩
      obtain ⟨callee, hcall, ⟨target, hget, rfl⟩, -⟩ := Linkage.mem_sitesOf.mp hsite
      obtain rfl : target = old := Option.some.inj (hget.symm.trans hold)
      obtain ⟨caller, hcaller, hmem⟩ := Linkage.mem_calls.mp hcall
      obtain ⟨-, node, hnode, hcallee⟩ := MethodGraph.mem_callSites.mp hmem
      refine ⟨node, ?_, hcallee⟩
      rw [ClassGraph.callSite?]
      change ((Linkage.linked builder.methods)[site.method]?).bind _ = _
      rw [Linkage.getElem?_linked, hcaller]
      exact hnode
    · cases hsite

end CodeGraph
