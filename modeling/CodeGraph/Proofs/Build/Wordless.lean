/-
# A method but for its words

The numbers that a token has for its words depend on what its class has met before.  Everything else
depends on the signature and the moves alone: cursors that differ in their classes and in the words
of their tokens go on to do so (`Cursor.bare_tryMoves`), and the methods that they end with are
linked in the same way (`Linkage.map_bare_linked`).
-/
import CodeGraph.Proofs.Build.Sites

namespace CodeGraph

/-- The token without the words of its text. -/
def Token.bare (token : Token) : Token := { token with vocabulary := [] }

/-- The method without the words of its tokens. -/
def MethodGraph.bare (method : MethodGraph) : MethodGraph :=
  { method with tokens := method.tokens.map Token.bare }

/-- The cursor without its class and without the words of its tokens. -/
def Cursor.bare (cursor : Cursor) : Cursor :=
  { cursor with builder := { name := "" }, tokens := cursor.tokens.map Token.bare }

/-! ## Changes of tokens -/

/-- A change to a token that does not depend on its words can be made without them. -/
theorem map_bare_modify {f : Token → Token} (h : ∀ token, (f token).bare = f token.bare)
    (tokens : Array Token) (i : Nat) :
    (tokens.modify i f).map Token.bare = (tokens.map Token.bare).modify i f := by
  refine Array.ext_getElem? fun j => ?_
  rw [Array.getElem?_map, Array.getElem?_modify, Array.getElem?_modify, Array.getElem?_map]
  split
  · rw [Option.map_map, Option.map_map]
    exact congrArg (Option.map · tokens[j]?) (funext h)
  · rfl

namespace Cursor

/-- A value is settled the same without the ids of words. -/
theorem map_bare_settledTokens (awaited : Awaited) (tokens : Array Token) (node : Nat) :
    (settledTokens awaited tokens node).map Token.bare =
      settledTokens awaited (tokens.map Token.bare) node := by
  cases awaited with
  | nothing => rfl
  | target => rfl
  | value target =>
    refine map_bare_modify (fun token => ?_) tokens target
    rfl

/-- A use is linked the same without the ids of words. -/
theorem map_bare_linkUse (tokens : Array Token) (text : String) (next : Nat) :
    (linkUse tokens text next).map Token.bare = linkUse (tokens.map Token.bare) text next := by
  have hfind : (tokens.map Token.bare).findIdx? (fun token => token.text == text &&
      token.nextUse.isNone) = tokens.findIdx? fun token => token.text == text &&
        token.nextUse.isNone := Array.findIdx?_map
  rw [linkUse, linkUse, hfind]
  split
  · refine map_bare_modify (fun token => ?_) tokens _
    rfl
  · rfl

/-! ## Moves of a cursor -/

variable (cursor : Cursor)

theorem bare_push (kind : Kind) (callee : Option String) :
    (cursor.push kind callee).bare = cursor.bare.push kind callee := by
  simp only [push_eq, bare, map_bare_settledTokens]
  rfl

/-- Of a token, only the ids of its words depend on the class. -/
theorem bare_emit (text : String) (role : Role) :
    (cursor.emit text role).bare = (cursor.bare.emit text role).bare := by
  have htokens : (cursor.tokens.map Token.bare).map Token.bare = cursor.tokens.map Token.bare := by
    rw [Array.map_map]
    rfl
  simp only [emit_eq, bare, Array.map_push, map_bare_linkUse, htokens, Array.size_map]
  rfl

theorem bare_bare : cursor.bare.bare = cursor.bare := by
  simp only [bare, Array.map_map]
  rfl

/-- **What a cursor does but for words, it does without them.** -/
theorem bare_tryMove (m : Move) : (cursor.tryMove m).bare = (cursor.bare.tryMove m).bare := by
  cases m with
  | descend kind =>
    show (cursor.push kind none).bare = (cursor.bare.push kind none).bare
    rw [bare_push, bare_push, bare_bare]
  | descendCall kind callee =>
    -- the call is noted in the class, which is hidden
    show (push _ kind (some callee)).bare = (push _ kind (some callee)).bare
    rw [bare_push, bare_push]
    exact congrArg (push · kind (some callee)) cursor.bare_bare.symm
  | ascend =>
    obtain ⟨builder, signature, nodes, tokens, symbols, path, awaited⟩ := cursor
    cases path with
    | nil => exact (bare_bare _).symm
    | cons node path => exact (bare_bare _).symm
  | emit text role => exact cursor.bare_emit text role

/-- Moves make the same method apart from the ids of words. -/
theorem bare_tryMoves (moves : List Move) :
    (cursor.tryMoves moves).bare = (cursor.bare.tryMoves moves).bare := by
  induction moves using List.reverseRecOn with
  | nil => exact cursor.bare_bare.symm
  | append_singleton moves m ih =>
    rw [tryMoves, tryMoves, List.foldl_append, List.foldl_append]
    show ((cursor.tryMoves moves).tryMove m).bare = ((cursor.bare.tryMoves moves).tryMove m).bare
    rw [bare_tryMove, ih, ← bare_tryMove]

end Cursor

/-! ## Linking -/

namespace MethodGraph

variable (method : MethodGraph)

/-- The nodes of a method are visited in the same order without the ids of words. -/
theorem visit_bare (fuel : Nat) (waiting : List Nat) :
    method.bare.visit fuel waiting = method.visit fuel waiting := by
  induction fuel generalizing waiting with
  | zero => rfl
  | succ fuel ih =>
    cases waiting with
    | nil => rfl
    | cons node waiting => exact congrArg (node :: ·) (ih _)

/-- The calls of a method are found without the ids of words. -/
theorem callSites_bare : method.bare.callSites = method.callSites := by
  rw [callSites, callSites, preorder, preorder, visit_bare]
  rfl

/-- Calls are noted at return tokens without the ids of words. -/
theorem bare_linkReturns (sites : List CallSite) :
    (Linkage.linkReturns method sites).bare = Linkage.linkReturns method.bare sites := by
  have htokens : ((method.tokens.map fun token =>
      if token.isReturn then { token with returnsTo := token.returnsTo ++ sites } else token).map
        Token.bare) = ((method.tokens.map Token.bare).map fun token =>
      if token.isReturn then { token with returnsTo := token.returnsTo ++ sites } else token) := by
    rw [Array.map_map, Array.map_map]
    refine Array.map_congr_left fun token _ => ?_
    show Token.bare (if token.isReturn then _ else token) = if token.isReturn then _ else token.bare
    split <;> rfl
  exact congrArg (fun tokens => ({ method with tokens } : MethodGraph)) htokens

end MethodGraph

namespace Linkage

variable (methods : List MethodGraph)

theorem targetOf?_map_bare (callee : String) :
    targetOf? (methods.map MethodGraph.bare) callee = targetOf? methods callee := by
  rw [targetOf?, List.findIdx?_map]
  rfl

/-- The calls of the methods are found without the ids of words. -/
theorem calls_map_bare : calls (methods.map MethodGraph.bare) = calls methods := by
  rw [calls, calls, List.zipIdx_map, List.flatMap_map]
  refine List.flatMap_congr fun entry _ => ?_
  obtain ⟨method, caller⟩ := entry
  exact congrArg (List.map fun site => ((⟨caller, site.1⟩ : CallSite), site.2))
    method.callSites_bare

/-- The links between methods are found without the ids of words. -/
theorem links_map_bare : links (methods.map MethodGraph.bare) = links methods := by
  rw [links, links, calls_map_bare]
  refine List.filterMap_congr fun call _ => ?_
  obtain ⟨site, callee⟩ := call
  exact congrArg (Option.map _) (targetOf?_map_bare methods callee)

/-- **Linking does not see words.** -/
theorem map_bare_linked :
    (linked methods).map MethodGraph.bare = linked (methods.map MethodGraph.bare) := by
  rw [linked, linked, links_map_bare, List.zipIdx_map, List.map_map, List.map_map]
  refine List.map_congr_left fun entry _ => ?_
  obtain ⟨method, i⟩ := entry
  exact method.bare_linkReturns _

end Linkage

end CodeGraph
