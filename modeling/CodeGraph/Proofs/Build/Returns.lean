/-
# The calls that a return goes back to

What linking makes of the methods of a run: a return of the first method with a signature goes
back to every call of that signature in the class, in the order of the methods and of their walks,
each once. Every other token goes back to nothing, and nothing else is changed
(`ClassBuilder.IsRun.returns_build`).
-/
import CodeGraph.Proofs.Build.Sites

namespace CodeGraph

namespace Linkage

/-! ## The calls of a signature -/

/-- The site is a node of one of the methods, and the node calls the signature. -/
def IsCall (methods : List MethodGraph) (signature : String) (site : CallSite) : Prop :=
  ∃ method node, methods[site.method]? = some method ∧ method.nodes[site.node]? = some node ∧
    node.callee = some signature

/-- The site `a` is in an earlier method than `b`, or earlier in the walk over the same method. -/
def Before (methods : List MethodGraph) (a b : CallSite) : Prop :=
  a.method < b.method ∨ a.method = b.method ∧ ∃ method, methods[a.method]? = some method ∧
    method.preorder.idxOf a.node < method.preorder.idxOf b.node

/-- The sites are all calls of the signature in their order, each once. -/
structure ListsCalls (methods : List MethodGraph) (signature : String) (sites : List CallSite) :
    Prop where
  mem_iff : ∀ site, site ∈ sites ↔ IsCall methods signature site
  ordered : sites.Pairwise (Before methods)
  nodup : sites.Nodup

/-- What linking makes of method number `t`: the returns of `new` go back to where they should, and
in everything else it is `old`. -/
structure Returns (graph : ClassGraph) (methods : List MethodGraph) (t : Nat)
    (old new : MethodGraph) : Prop where
  same : new = { old with tokens := new.tokens }
  size_eq : new.tokens.size = old.tokens.size
  token_same : ∀ (i : Nat) (before token : Token), old.tokens[i]? = some before →
    new.tokens[i]? = some token → token = { before with returnsTo := token.returnsTo }
  linked : ∀ (i : Nat) (token : Token), new.tokens[i]? = some token → token.text = "return" →
    IsFirst methods t old.signature → ListsCalls methods old.signature token.returnsTo
  unlinked : ∀ (i : Nat) (token : Token), new.tokens[i]? = some token →
    ¬ (token.text = "return" ∧ IsFirst methods t old.signature) → token.returnsTo = []
  resolves : ∀ (i : Nat) (token : Token), new.tokens[i]? = some token → ∀ site ∈ token.returnsTo,
    ∃ node, graph.callSite? site = some node ∧ node.callee = some old.signature

/-! ## The order of calls -/

/-- What comes later in a list without repetitions has a later place in it. -/
theorem pairwise_idxOf {α : Type} [BEq α] [LawfulBEq α] {xs : List α} (h : xs.Nodup) :
    xs.Pairwise fun a b => xs.idxOf a < xs.idxOf b := by
  rw [List.pairwise_iff_getElem]
  intro i j hi hj hij
  rw [h.idxOf_getElem i hi, h.idxOf_getElem j hj]
  exact hij

/-- The calls of a method are in the order of its nodes. -/
theorem pairwise_callSites {method : MethodGraph} (h : method.preorder.Nodup) :
    method.callSites.Pairwise fun a b =>
      method.preorder.idxOf a.1 < method.preorder.idxOf b.1 := by
  rw [MethodGraph.callSites, List.pairwise_filterMap]
  refine (pairwise_idxOf h).imp ?_
  intro u v huv a ha b hb
  obtain ⟨node, -, ha⟩ := Option.bind_eq_some_iff.mp ha
  obtain ⟨name, -, ha⟩ := Option.bind_eq_some_iff.mp ha
  obtain ⟨other, -, hb⟩ := Option.bind_eq_some_iff.mp hb
  obtain ⟨called, -, hb⟩ := Option.bind_eq_some_iff.mp hb
  cases ha
  cases hb
  exact huv

theorem pairwise_zipIdx {α : Type} (xs : List α) :
    xs.zipIdx.Pairwise fun a b => a.2 < b.2 := by
  rw [← List.pairwise_map (f := Prod.snd) (R := (· < ·)), List.zipIdx_map_snd]
  exact List.pairwise_lt_range'

/-- The calls of a class are in the order of the methods and of their walks. -/
theorem pairwise_calls {methods : List MethodGraph}
    (h : ∀ method ∈ methods, method.preorder.Nodup) :
    (calls methods).Pairwise fun a b => Before methods a.1 b.1 := by
  rw [calls, List.pairwise_flatMap]
  constructor
  · rintro ⟨method, caller⟩ hmem
    have hmethod := List.mk_mem_zipIdx_iff_getElem?.mp hmem
    rw [List.pairwise_map]
    refine (pairwise_callSites (h method (List.mem_of_getElem? hmethod))).imp ?_
    intro a b hab
    exact Or.inr ⟨rfl, method, hmethod, hab⟩
  · refine (pairwise_zipIdx methods).imp ?_
    rintro ⟨method, caller⟩ ⟨other, later⟩ hlt a ha b hb
    obtain ⟨-, -, rfl⟩ := List.mem_map.mp ha
    obtain ⟨-, -, rfl⟩ := List.mem_map.mp hb
    exact Or.inl hlt

theorem pairwise_sitesOf {methods : List MethodGraph}
    (h : ∀ method ∈ methods, method.preorder.Nodup) (t : Nat) :
    (sitesOf (links methods) t).Pairwise (Before methods) := by
  rw [sitesOf, List.pairwise_filterMap, links, List.pairwise_filterMap]
  refine (pairwise_calls h).imp ?_
  rintro ⟨site, callee⟩ ⟨later, called⟩ hbefore link hlink other hother a ha b hb
  obtain ⟨target, -, rfl⟩ := Option.map_eq_some_iff.mp hlink
  obtain ⟨reached, -, rfl⟩ := Option.map_eq_some_iff.mp hother
  rw [Option.ite_none_right_eq_some, Option.some.injEq] at ha hb
  obtain ⟨-, rfl⟩ := ha
  obtain ⟨-, rfl⟩ := hb
  exact hbefore

/-- Nothing comes before itself. -/
theorem Before.irrefl {methods : List MethodGraph} (a : CallSite) : ¬ Before methods a a := by
  rintro (hlt | ⟨-, method, -, hlt⟩)
  · exact Nat.lt_irrefl _ hlt
  · exact Nat.lt_irrefl _ hlt

/-! ## The sites of a method -/

variable {methods : List MethodGraph} {t : Nat} {signature : String}

/-- In shaped methods every node is met, so every node that calls something is a call. -/
theorem mem_calls_iff_isCall (h : ∀ method ∈ methods, method.Shaped) {site : CallSite} :
    (site, signature) ∈ calls methods ↔ IsCall methods signature site := by
  rw [mem_calls, IsCall]
  refine exists_congr fun method => ?_
  rw [MethodGraph.mem_callSites]
  constructor
  · rintro ⟨hmethod, -, node, hnode, hcallee⟩
    exact ⟨node, hmethod, hnode, hcallee⟩
  · rintro ⟨node, hmethod, hnode, hcallee⟩
    refine ⟨hmethod, ?_, node, hnode, hcallee⟩
    rw [(h method (List.mem_of_getElem? hmethod)).preorder_eq, List.mem_range]
    exact (Array.getElem?_eq_some_iff.mp hnode).1

/-- A method is the first with no signature but its own. -/
theorem IsFirst.eq {method : MethodGraph} (hmethod : methods[t]? = some method)
    (h : IsFirst methods t signature) : signature = method.signature := by
  obtain ⟨⟨other, hother, rfl⟩, -⟩ := h
  rw [hother, Option.some.injEq] at hmethod
  rw [hmethod]

/-- **The first method with its signature is reached by all calls of the signature.** -/
theorem listsCalls_sitesOf (h : ∀ method ∈ methods, method.Shaped)
    (hfirst : IsFirst methods t signature) :
    ListsCalls methods signature (sitesOf (links methods) t) := by
  have hordered : (sitesOf (links methods) t).Pairwise (Before methods) := by
    apply pairwise_sitesOf
    intro method hmethod
    rw [(h method hmethod).preorder_eq]
    exact List.nodup_range
  refine ⟨?_, hordered, hordered.imp ?_⟩
  · intro site
    rw [mem_sitesOf, ← mem_calls_iff_isCall h]
    constructor
    · rintro ⟨callee, hcall, hcallee⟩
      obtain ⟨⟨method, hmethod, rfl⟩, -⟩ := hfirst
      rw [hcallee.eq hmethod] at hcall
      exact hcall
    · intro hcall
      exact ⟨signature, hcall, hfirst⟩
  · rintro a b hbefore rfl
    exact Before.irrefl a hbefore

/-- **Any other method is reached by no call.** -/
theorem sitesOf_eq_nil {method : MethodGraph} (hmethod : methods[t]? = some method)
    (hfirst : ¬ IsFirst methods t method.signature) : sitesOf (links methods) t = [] := by
  rw [List.eq_nil_iff_forall_not_mem]
  intro site hsite
  obtain ⟨callee, -, hcallee⟩ := mem_sitesOf.mp hsite
  rw [hcallee.eq hmethod] at hcallee
  exact hfirst hcallee

end Linkage

/-! ## The class of a run -/

namespace ClassBuilder

/-- **Returns go back to exactly the calls of their method.**  Whatever methods a run has added, the
graph of the class has the same methods, but for the calls that their returns go back to. -/
theorem IsRun.returns_build {builder : ClassBuilder} (h : builder.IsRun) :
    builder.build.name = builder.name ∧ builder.build.vocabulary = builder.vocabulary ∧
    builder.build.invocations = builder.invocations ∧
    builder.build.methods.length = builder.methods.length ∧
    ∀ (t : Nat) (old new : MethodGraph), builder.methods[t]? = some old →
      builder.build.methods[t]? = some new →
      Linkage.Returns builder.build builder.methods t old new := by
  have hshaped : ∀ method ∈ builder.methods, method.Shaped :=
    fun method hmethod => (h.finished method hmethod).shaped
  refine ⟨rfl, rfl, rfl, ?_, ?_⟩
  · show (Linkage.linked builder.methods).length = _
    rw [Linkage.linked, List.length_map, List.length_zipIdx]
  · intro t old new hold hnew
    have hbuilt := hnew
    change (Linkage.linked builder.methods)[t]? = some new at hbuilt
    rw [Linkage.getElem?_linked, hold, Option.map_some, Option.some.injEq] at hbuilt
    subst hbuilt
    have hmem := List.mem_of_getElem? hnew
    -- before linking no token goes back to anything
    have hsites : ∀ (i : Nat) (token : Token), (Linkage.linkReturns old
        (Linkage.sitesOf (Linkage.links builder.methods) t)).tokens[i]? = some token →
        token.returnsTo = if token.isReturn then
          Linkage.sitesOf (Linkage.links builder.methods) t else [] := by
      intro i token htoken
      obtain ⟨before, hbefore, rfl⟩ := MethodGraph.getElem?_linkReturns htoken
      have hunlinked := (h.finished old (List.mem_of_getElem? hold)).unlinked i before hbefore
      dsimp only
      rw [hunlinked, List.nil_append]
      rfl
    refine
      { same := rfl
        size_eq := Array.size_map
        token_same := ?_
        linked := ?_
        unlinked := ?_
        resolves := fun i token htoken site hsite =>
          (h.sound.returns _ hmem i token htoken site hsite).2 }
    · intro i before token hbefore htoken
      obtain ⟨other, hother, rfl⟩ := MethodGraph.getElem?_linkReturns htoken
      rw [hbefore, Option.some.injEq] at hother
      rw [hother]
    · intro i token htoken hreturn hfirst
      have hisReturn : token.isReturn = true := beq_iff_eq.mpr hreturn
      rw [hsites i token htoken, if_pos hisReturn]
      exact Linkage.listsCalls_sitesOf hshaped hfirst
    · intro i token htoken hnot
      rw [hsites i token htoken]
      split
      · next hreturn =>
        apply Linkage.sitesOf_eq_nil hold
        intro hfirst
        exact hnot ⟨beq_iff_eq.mp hreturn, hfirst⟩
      · rfl

/-- A run with two methods of one signature, which both call it, and a third method that calls it,
itself, and a method outside of the class. -/
def overloadedSteps : List Session.Step :=
  [.openMethod "f", .move (.descendCall .methodInvocation "f"), .move .ascend,
    .move (.emit "return" .plain), .close, .add 0,
    .openMethod "f", .move (.emit "return" .plain),
    .move (.descendCall .methodInvocation "f"), .move .ascend, .close, .add 1,
    .openMethod "g", .move (.descendCall .methodInvocation "h"), .move .ascend,
    .move (.descendCall .methodInvocation "f"),
    .move (.descendCall .superMethodInvocation "g"), .move .ascend, .move .ascend,
    .move (.emit "return" .identifier), .close, .add 2]

/-- The class of these methods. -/
def overloadedBuilder : ClassBuilder :=
  ((Session.start "C").run overloadedSteps).builder?.getD { name := "C" }

/-- The class with an overloaded method is built by a run. -/
theorem isRun_overloadedBuilder : overloadedBuilder.IsRun :=
  ⟨"C", overloadedSteps, by decide, by decide +kernel⟩

/-- Calls go to the first of two methods with the signature, those of the other one too. -/
theorem IsRun.returns_build_overloaded :
    overloadedBuilder.IsRun ∧
    (overloadedBuilder.build.methods.map fun method =>
      method.tokens.toList.map Token.returnsTo) = [[[⟨0, 1⟩, ⟨1, 1⟩, ⟨2, 2⟩]], [[]], [[⟨2, 3⟩]]] ∧
    ∀ (t : Nat) (old new : MethodGraph), overloadedBuilder.methods[t]? = some old →
      overloadedBuilder.build.methods[t]? = some new →
      Linkage.Returns overloadedBuilder.build overloadedBuilder.methods t old new :=
  ⟨isRun_overloadedBuilder, by decide +kernel,
    (IsRun.returns_build isRun_overloadedBuilder).2.2.2.2⟩

end ClassBuilder

end CodeGraph
