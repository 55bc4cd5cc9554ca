/-
# The map of the calls and the calls in the graphs

While methods are built, the calls are noted in a map; when they are finished, the calls can be read
off their nodes.  These are two records of the same thing: in the class of a tree, the keys of the
map are the signatures of the methods, and the map says of each what the methods of that signature
call.  So every call from which a return is reached is in the map (`Tree.isMap_invocations`).
-/
import CodeGraph.Proofs.Build.Faithful
import CodeGraph.Proofs.Build.Journal
import CodeGraph.Proofs.Graph.CallMap

namespace CodeGraph

/-! ## The calls of a method -/

/-- What the nodes of a method call, in the order of the nodes. -/
def MethodGraph.callees (method : MethodGraph) : List String := method.rows.filterMap Row.callee

/-- What a method calls is what its walk comes to. -/
theorem MethodGraph.Shaped.mem_map_callSites {method : MethodGraph} (h : method.Shaped)
    {callee : String} : callee ∈ method.callSites.map Prod.snd ↔ callee ∈ method.callees := by
  rw [callees, rows, List.filterMap_map, List.mem_filterMap, List.mem_map]
  constructor
  · rintro ⟨⟨v, name⟩, hmem, rfl⟩
    obtain ⟨-, node, hnode, hcallee⟩ := mem_callSites.mp hmem
    exact ⟨node, Array.mem_toList_iff.mpr (Array.mem_of_getElem? hnode), hcallee⟩
  · rintro ⟨node, hmem, hcallee⟩
    obtain ⟨v, hnode⟩ := Array.mem_iff_getElem?.mp (Array.mem_toList_iff.mp hmem)
    refine ⟨(v, callee), mem_callSites.mpr ⟨?_, node, hnode, hcallee⟩, rfl⟩
    rw [h.preorder_eq, List.mem_range]
    exact (Array.getElem?_eq_some_iff.mp hnode).1

/-! ## The calls of a course -/

namespace Cursor

/-- Moves that can all be made are made. -/
theorem tryMoves_eq {moves : List Move} {cursor last : Cursor}
    (h : moves.foldlM move cursor = .ok last) : cursor.tryMoves moves = last := by
  induction moves generalizing cursor with
  | nil =>
    cases h
    rfl
  | cons m moves ih =>
    obtain ⟨next, hm, hrest⟩ := exists_of_foldlM_cons h
    have htry : cursor.tryMove m = next := by rw [tryMove, hm]
    rw [tryMoves, List.foldl_cons, htry]
    exact ih hrest

/-- A move adds what it calls to the calls in the graph. -/
theorem callees_tryMove (cursor : Cursor) (m : Move) :
    (cursor.tryMove m).method.callees = cursor.method.callees ++ m.callee?.toList := by
  cases m with
  | descend kind =>
    show (cursor.push kind none).method.callees = _
    rw [MethodGraph.callees, rows_push, List.filterMap_append]
    rfl
  | descendCall kind callee =>
    show (Cursor.push _ kind (some callee)).method.callees = _
    rw [MethodGraph.callees, rows_push, List.filterMap_append]
    rfl
  | ascend =>
    rw [Move.callee?, Option.toList_none, List.append_nil]
    refine tryMove_of_move (p := fun next => next.method.callees = cursor.method.callees)
      (fun next hm => ?_) rfl
    obtain ⟨node, path, -, rfl⟩ := cursor.ascend_eq_ok hm
    rfl
  | emit text role =>
    show (cursor.emit text role).method.callees = _
    rw [MethodGraph.callees, rows_emit, Move.callee?, Option.toList_none, List.append_nil]
    rfl

end Cursor

namespace Course

/-- The calls in the graph are those of the course. -/
theorem callees_method (course : Course) (builder : ClassBuilder) :
    (course.cursor builder).method.callees = course.callees := by
  obtain ⟨signature, moves⟩ := course
  induction moves using List.reverseRecOn with
  | nil => rfl
  | append_singleton moves m ih =>
    show (cursor (extend ⟨signature, moves⟩ m) builder).method.callees =
      (extend ⟨signature, moves⟩ m).callees
    rw [cursor_extend, callees_extend, Cursor.callees_tryMove, ih]

/-- The course has been noted when it has been taken. -/
theorem notes_cursor {builder : ClassBuilder} {courses : List Course}
    (h : builder.invocations.Notes courses) (course : Course) :
    (course.cursor builder).builder.invocations.Notes (courses ++ [course]) := by
  obtain ⟨signature, moves⟩ := course
  induction moves using List.reverseRecOn with
  | nil => exact h.addCaller signature
  | append_singleton moves m ih =>
    show (cursor (extend ⟨signature, moves⟩ m) builder).builder.invocations.Notes
      (courses ++ [extend ⟨signature, moves⟩ m])
    rw [cursor_extend, Cursor.tryMove_invocations, cursor_signature]
    exact ih.extend m

end Course

/-! ## The calls of a class -/

/-- The method has the signature and the calls of the course. -/
def MethodGraph.IsOf (method : MethodGraph) (course : Course) : Prop :=
  method.signature = course.signature ∧ method.callees = course.callees

namespace ClassBuilder

/-- What has been noted are the methods and their calls, and nothing else. -/
def NotesMethods (builder : ClassBuilder) : Prop :=
  ∃ courses, builder.invocations.Notes courses ∧
    List.Forall₂ MethodGraph.IsOf builder.methods courses

variable {builder last : ClassBuilder}

/-- Adding the method that has just been built leaves nothing noted that is not there. -/
theorem NotesMethods.completes (h : builder.NotesMethods) {declaration : Tree} {cursor : Cursor}
    (here : builder.Completes declaration cursor) :
    (cursor.builder.add cursor.method).NotesMethods := by
  obtain ⟨courses, hnotes, hmethods⟩ := h
  obtain ⟨-, ⟨signature, -, hmoves⟩, -⟩ := here
  have hold : cursor.builder.methods = builder.methods := Cursor.foldlM_move_methods hmoves
  let course : Course := ⟨signature, Action.moves declaration.children.script⟩
  obtain rfl : course.cursor builder = cursor := Cursor.tryMoves_eq hmoves
  refine ⟨courses ++ [course], course.notes_cursor hnotes, ?_⟩
  show List.Forall₂ MethodGraph.IsOf ((course.cursor builder).builder.methods ++ [_]) _
  rw [hold]
  exact List.rel_append hmethods
    (.cons ⟨course.cursor_signature builder, course.callees_method builder⟩ .nil)

/-- **What is built one after another is noted as it is built.** -/
theorem Builds.notesMethods {declarations : List Tree} (h : builder.Builds declarations last)
    (hbuilder : builder.NotesMethods) : last.NotesMethods := by
  induction h with
  | nil => exact hbuilder
  | cons here _ ih => exact ih (hbuilder.completes here)

theorem notesMethods_new (name : String) : NotesMethods { name } :=
  ⟨[], ⟨fun _ => by simp, fun _ _ => by simp⟩, .nil⟩

/-- Linking returns changes neither signatures nor calls. -/
theorem NotesMethods.isOf_build {courses : List Course}
    (h : List.Forall₂ MethodGraph.IsOf builder.methods courses) :
    List.Forall₂ MethodGraph.IsOf builder.build.methods courses :=
  forall₂_map_zipIdx (fun _ _ _ hof => hof) h 0

end ClassBuilder

/-! ## The calls of a tree -/

namespace ClassGraph

/-- One of the methods has the signature. -/
def HasMethod (graph : ClassGraph) (signature : String) : Prop :=
  ∃ method ∈ graph.methods, method.signature = signature

/-- One of the methods of the first signature has a call site of the second. -/
def HasCall (graph : ClassGraph) (signature callee : String) : Prop :=
  ∃ method ∈ graph.methods, method.signature = signature ∧
    callee ∈ method.callSites.map Prod.snd

end ClassGraph

/-- The same members are found on both sides of a relation. -/
theorem exists_mem_iff_of_forall₂ {α β : Type} {r : α → β → Prop} {p : α → Prop} {q : β → Prop}
    {xs : List α} {ys : List β} (h : List.Forall₂ r xs ys) (hpq : ∀ a b, r a b → (p a ↔ q b)) :
    (∃ a ∈ xs, p a) ↔ ∃ b ∈ ys, q b := by
  induction h with
  | nil => simp
  | cons hab _ ih => simp [hpq _ _ hab, ih]

/-- **The map of a class in which the methods have been noted is that of its calls.** -/
theorem ClassBuilder.NotesMethods.isMap_build {builder : ClassBuilder} (h : builder.NotesMethods)
    (hrun : builder.IsRun) :
    Invocations.IsMap builder.build.HasMethod builder.build.HasCall
      builder.build.invocations.toList := by
  obtain ⟨courses, hnotes, hmethods⟩ := h
  have hbuilt := NotesMethods.isOf_build hmethods
  have hmap := Invocations.isMap_toList builder.build.invocations
  have hkey (signature : String) :
      signature ∈ builder.build.invocations.callers ↔ builder.build.HasMethod signature := by
    refine (hnotes.callers signature).trans (exists_mem_iff_of_forall₂ hbuilt ?_).symm
    rintro method course ⟨hsignature, -⟩
    rw [hsignature]
  have hcall (signature callee : String) :
      (signature, callee) ∈ builder.build.invocations.calls ↔
        builder.build.HasCall signature callee := by
    have hread : builder.build.HasCall signature callee ↔
        ∃ method ∈ builder.build.methods, method.signature = signature ∧
          callee ∈ method.callees := by
      refine exists_congr fun method => and_congr_right fun hmem => ?_
      rw [(hrun.sound.shaped method hmem).mem_map_callSites]
    refine (hnotes.calls signature callee).trans (hread.trans ?_).symm
    refine exists_mem_iff_of_forall₂ hbuilt ?_
    rintro method course ⟨hsignature, hcallees⟩
    rw [hsignature, hcallees]
  exact
    { keys_ordered := hmap.keys_ordered
      mem_keys_iff := fun signature => (hmap.mem_keys_iff signature).trans (hkey signature)
      values_ordered := hmap.values_ordered
      mem_values_iff := fun entry hentry callee =>
        (hmap.mem_values_iff entry hentry callee).trans (hcall entry.1 callee) }

/-- In a sound class a return goes back to a method that calls its own. -/
theorem ClassGraph.Sound.exists_hasCall {graph : ClassGraph} (h : graph.Sound)
    {method : MethodGraph} (hmethod : method ∈ graph.methods) {token : Token}
    (htoken : token ∈ method.tokens) {site : CallSite} (hsite : site ∈ token.returnsTo) :
    ∃ caller, graph.methods[site.method]? = some caller ∧
      graph.HasCall caller.signature method.signature := by
  obtain ⟨i, hi⟩ := Array.mem_iff_getElem?.mp htoken
  obtain ⟨-, node, hnode, hcallee⟩ := h.returns method hmethod i token hi site hsite
  obtain ⟨caller, hcaller, hget⟩ := Option.bind_eq_some_iff.mp hnode
  have hmem := List.mem_of_getElem? hcaller
  refine ⟨caller, hcaller, caller, hmem, rfl, ?_⟩
  rw [(h.shaped caller hmem).mem_map_callSites, MethodGraph.callees, MethodGraph.rows,
    List.filterMap_map, List.mem_filterMap]
  exact ⟨node, Array.mem_toList_iff.mpr (Array.mem_of_getElem? hget), hcallee⟩

namespace Tree

/-- **The map of the calls agrees with the graphs.**  If a tree gives the graph of a class, then the
keys of the map are the signatures of the methods, and each has as its set what the methods of that
signature call from their call sites.  So if a return of a method goes back to a call site, the map
says that the method with this call site calls the method of the return. -/
theorem isMap_invocations {tree : Tree} {graph : ClassGraph}
    (h : tree.classGraph? = .ok (some graph)) :
    Invocations.IsMap graph.HasMethod graph.HasCall graph.invocations.toList ∧
    ∀ method ∈ graph.methods, ∀ token ∈ method.tokens, ∀ site ∈ token.returnsTo,
      ∃ caller callees, graph.methods[site.method]? = some caller ∧
        (caller.signature, callees) ∈ graph.invocations.toList ∧
        method.signature ∈ callees := by
  obtain ⟨name, builder, hbuilds, rfl, -⟩ := exists_of_classGraph? h
  have hrun := hbuilds.isRun (ClassBuilder.isRun_new name)
  have hmap := (hbuilds.notesMethods (ClassBuilder.notesMethods_new name)).isMap_build hrun
  refine ⟨hmap, fun method hmethod token htoken site hsite => ?_⟩
  obtain ⟨caller, hcaller, hcall⟩ := hrun.sound.exists_hasCall hmethod htoken hsite
  have hkey := (hmap.mem_keys_iff caller.signature).mpr
    ⟨caller, List.mem_of_getElem? hcaller, rfl⟩
  obtain ⟨⟨signature, callees⟩, hentry, rfl⟩ := List.mem_map.mp hkey
  exact ⟨caller, callees, hcaller, hentry, (hmap.mem_values_iff _ hentry _).mpr hcall⟩

/-- A class with two methods of one signature. The first holds another method and calls it, which
calls back from a node that is no invocation, and the second calls a method outside of the class. -/
def callingTree : Tree where
  kind := .typeDeclaration
  name := some "C"
  children := .node .methodDeclaration none (some "f:0")
    (.node .methodInvocation none (some "g:0") .nil
      (.node .methodDeclaration none (some "g:0")
        (.node .infixExpression none (some "f:0") .nil (.token "return" .plain .nil)) .nil))
    (.node .methodDeclaration none (some "f:0")
      (.token "return" .plain (.node .methodInvocation none (some "x:0") .nil .nil)) .nil)

/-- The graph of that class. -/
def callingGraph : ClassGraph :=
  callingTree.classGraph?.toOption.join.getD
    { name := "", methods := [], vocabulary := #[], invocations := {} }

/-- Two methods call each other, and one of them calls a method that is not in the class. -/
theorem classGraph?_callingTree : callingTree.classGraph? = .ok (some callingGraph) :=
  eq_ok_of_toOption (by decide +kernel)

/-- The callees of each method are listed, also the one that is not in the class. -/
theorem isMap_invocations_callingTree :
    callingTree.classGraph? = .ok (some callingGraph) ∧
    callingGraph.invocations.toList = [("f:0", ["g:0", "x:0"]), ("g:0", ["f:0"])] ∧
    (callingGraph.methods.map fun method => method.tokens.toList.map Token.returnsTo) =
      [[], [[⟨0, 1⟩]], [[]]] ∧
    Invocations.IsMap callingGraph.HasMethod callingGraph.HasCall callingGraph.invocations.toList ∧
    ∀ method ∈ callingGraph.methods, ∀ token ∈ method.tokens, ∀ site ∈ token.returnsTo,
      ∃ caller callees, callingGraph.methods[site.method]? = some caller ∧
        (caller.signature, callees) ∈ callingGraph.invocations.toList ∧
        method.signature ∈ callees :=
  ⟨classGraph?_callingTree, by decide +kernel, by decide +kernel,
    isMap_invocations classGraph?_callingTree⟩

end Tree

end CodeGraph
