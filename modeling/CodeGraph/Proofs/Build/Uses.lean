/-
# The next uses of tokens

A token is linked to the first later token with its text, and to none just if no later one has it
(`Cursor.linksUses_tryMoves`).  So the way along the links, from the first token of a text on, leads
through all tokens of that text in order and ends with the last of them.
-/
import CodeGraph.Proofs.Build.Links

namespace CodeGraph

/-! ## The first later occurrence -/

/-- Text number `j` is the first one behind number `i` that is the same. -/
structure IsNextUse (texts : List String) (i j : Nat) : Prop where
  lt : i < j
  lt_length : j < texts.length
  same : texts[j]? = texts[i]?
  first : ∀ k, i < k → k < j → texts[k]? ≠ texts[i]?

namespace IsNextUse

variable {texts : List String} {i j k : Nat} {text : String}

/-- If the same text comes later at all, there is a first time. -/
theorem exists_of_later (hlt : i < k) (hi : texts[i]? = some text) (hk : texts[k]? = some text) :
    ∃ j, IsNextUse texts i j := by
  have hex : ∃ j, i < j ∧ texts[j]? = some text := ⟨k, hlt, hk⟩
  obtain ⟨hfound, hsame⟩ := Nat.find_spec hex
  refine ⟨Nat.find hex, hfound, (List.getElem?_eq_some_iff.mp hsame).1, hsame.trans hi.symm,
    fun l hl hbefore heq => ?_⟩
  exact Nat.find_min hex hbefore ⟨hl, heq.trans hi⟩

/-- One more text is the next use of the last one that was the same. -/
theorem concat_iff (hi : i < texts.length) (text : String) :
    IsNextUse (texts ++ [text]) i j ↔ IsNextUse texts i j ∨
      j = texts.length ∧ texts[i]? = some text ∧ ∀ k, ¬ IsNextUse texts i k := by
  have hold : ∀ k, k < texts.length → (texts ++ [text])[k]? = texts[k]? :=
    fun k hk => List.getElem?_append_left hk
  constructor
  · rintro ⟨hlt, hlength, hsame, hfirst⟩
    rw [hold i hi] at hsame hfirst
    rw [List.length_append, List.length_singleton] at hlength
    rcases Nat.lt_succ_iff_lt_or_eq.mp hlength with hj | rfl
    · refine Or.inl ⟨hlt, hj, (hold j hj).symm.trans hsame, fun k hik hkj => ?_⟩
      rw [← hold k (by omega)]
      exact hfirst k hik hkj
    · rw [List.getElem?_concat_length] at hsame
      refine Or.inr ⟨rfl, hsame.symm, fun k hk => ?_⟩
      exact hfirst k hk.lt hk.lt_length ((hold k hk.lt_length).trans hk.same)
  · rintro (⟨hlt, hlength, hsame, hfirst⟩ | ⟨rfl, hsame, hnone⟩)
    · refine ⟨hlt, ?_, ?_, fun k hik hkj => ?_⟩
      · rw [List.length_append]
        exact Nat.lt_add_right _ hlength
      · rw [hold i hi, hold j hlength]
        exact hsame
      · rw [hold i hi, hold k (by omega)]
        exact hfirst k hik hkj
    · refine ⟨hi, ?_, ?_, fun k hik hk heq => ?_⟩
      · rw [List.length_append, List.length_singleton]
        exact Nat.lt_succ_self _
      · rw [hold i hi, List.getElem?_concat_length, hsame]
      · rw [hold i hi, hold k hk, hsame] at heq
        obtain ⟨j, hj⟩ := exists_of_later hik hsame heq
        exact hnone j hj

end IsNextUse

/-! ## Links -/

namespace MethodGraph

/-- The token that a token is linked to as its next use. -/
def nextUse? (method : MethodGraph) (i : Nat) : Option Nat := method.tokens[i]?.bind Token.nextUse

/-- The links lead from each token to the first later one with its text. -/
def LinksNext (method : MethodGraph) : Prop :=
  ∀ i j, method.nextUse? i = some j ↔ IsNextUse method.texts i j

/-- The way along the links from a token to one that has no link. -/
inductive UseChain (method : MethodGraph) : Nat → List Nat → Prop
  | last {i : Nat} (h : method.nextUse? i = none) : UseChain method i [i]
  | link {i j : Nat} {uses : List Nat} (h : method.nextUse? i = some j)
      (later : UseChain method j uses) : UseChain method i (i :: uses)

/-- The links of a method are those between the uses of its texts. -/
structure LinksUses (method : MethodGraph) : Prop where
  next_iff : ∀ i j, method.nextUse? i = some j ↔ IsNextUse method.texts i j
  last_iff : ∀ (i : Nat) (token : Token), method.tokens[i]? = some token →
    (token.nextUse = none ↔ ∀ j, i < j → method.texts[j]? ≠ some token.text)
  /-- The tokens with a text are all that have it, in order. -/
  uses : ∀ text, (method.tokensWithText text).Pairwise (· < ·) ∧
    ∀ i, i ∈ method.tokensWithText text ↔ method.texts[i]? = some text
  chain : ∀ text first later, method.tokensWithText text = first :: later →
    method.UseChain first (first :: later)

variable {method : MethodGraph}

/-- The tokens with a text are the places of the text. -/
theorem tokensWithText_eq (method : MethodGraph) (text : String) :
    method.tokensWithText text = method.texts.idxsOf text := by
  rw [tokensWithText, texts, List.idxsOf_map, List.findIdxs_eq_filterMap_zipIdx]
  refine List.filterMap_congr fun entry _ => ?_
  obtain ⟨token, i⟩ := entry
  dsimp only
  by_cases htext : token.text = text
  · rw [if_pos htext, beq_iff_eq.mpr htext]
    rfl
  · rw [if_neg htext, beq_eq_false_iff_ne.mpr htext]
    rfl

namespace LinksNext

/-- A token without a link is the last one with its text. -/
theorem nextUse?_eq_none_iff (h : method.LinksNext) {i : Nat} {text : String}
    (hi : method.texts[i]? = some text) :
    method.nextUse? i = none ↔ ∀ j, i < j → method.texts[j]? ≠ some text := by
  constructor
  · intro hnone j hij hj
    obtain ⟨k, hk⟩ := IsNextUse.exists_of_later hij hi hj
    rw [(h i k).mpr hk] at hnone
    cases hnone
  · intro hlater
    rw [Option.eq_none_iff_forall_ne_some]
    intro j hj
    have hnext := (h i j).mp hj
    exact hlater j hnext.lt (hnext.same.trans hi)

/-- Two tokens without links have different texts. -/
theorem eq_of_nextUse?_eq_none (h : method.LinksNext) {i k : Nat} {text : String}
    (hi : method.texts[i]? = some text) (hk : method.texts[k]? = some text)
    (hinone : method.nextUse? i = none) (hknone : method.nextUse? k = none) : i = k := by
  rcases Nat.lt_trichotomy i k with hlt | heq | hlt
  · exact absurd hk ((h.nextUse?_eq_none_iff hi).mp hinone k hlt)
  · exact heq
  · exact absurd hi ((h.nextUse?_eq_none_iff hk).mp hknone i hlt)

/-- The way along the links goes through all uses of a text that are still ahead. -/
theorem useChain (h : method.LinksNext) {text : String} (later : List Nat) {first : Nat}
    (hsorted : (first :: later).Pairwise (· < ·))
    (hmem : ∀ i, i ∈ first :: later ↔ first ≤ i ∧ method.texts[i]? = some text) :
    method.UseChain first (first :: later) := by
  induction later generalizing first with
  | nil =>
    have hfirst := ((hmem first).mp List.mem_cons_self).2
    refine .last ((h.nextUse?_eq_none_iff hfirst).mpr fun j hj hsame => ?_)
    have heq := List.mem_singleton.mp ((hmem j).mpr ⟨Nat.le_of_lt hj, hsame⟩)
    exact Nat.ne_of_gt hj heq
  | cons second later ih =>
    obtain ⟨hbefore, hrest⟩ := List.pairwise_cons.mp hsorted
    have hlt := hbefore second List.mem_cons_self
    have hfirst := ((hmem first).mp List.mem_cons_self).2
    have hsecond := ((hmem second).mp (List.mem_cons_of_mem _ List.mem_cons_self)).2
    -- no use comes between the first two of them
    have hnext : IsNextUse method.texts first second := by
      refine ⟨hlt, (List.getElem?_eq_some_iff.mp hsecond).1, hsecond.trans hfirst.symm,
        fun k hk hk' hsame => ?_⟩
      have hin := (hmem k).mpr ⟨Nat.le_of_lt hk, hsame.trans hfirst⟩
      rcases List.mem_cons.mp hin with rfl | hin
      · exact Nat.lt_irrefl _ hk
      · rcases List.mem_cons.mp hin with rfl | hin
        · exact Nat.lt_irrefl _ hk'
        · exact Nat.lt_asymm hk' (List.rel_of_pairwise_cons hrest hin)
    refine .link ((h first second).mpr hnext) (ih hrest fun i => ?_)
    constructor
    · intro hi
      refine ⟨?_, ((hmem i).mp (List.mem_cons_of_mem _ hi)).2⟩
      rcases List.mem_cons.mp hi with rfl | hi
      · exact Nat.le_refl _
      · exact Nat.le_of_lt (List.rel_of_pairwise_cons hrest hi)
    · rintro ⟨hle, hi⟩
      rcases List.mem_cons.mp ((hmem i).mpr ⟨by omega, hi⟩) with rfl | hi
      · omega
      · exact hi

/-- Where every token leads to its next use, the uses of a text are chained from the first on. -/
theorem linksUses (h : method.LinksNext) : method.LinksUses where
  next_iff := h
  last_iff := by
    intro i token hi
    have htext : method.texts[i]? = some token.text := by
      rw [getElem?_texts, hi, Option.map_some]
    rw [← h.nextUse?_eq_none_iff htext, nextUse?, hi, Option.bind_some]
  uses := by
    intro text
    rw [tokensWithText_eq]
    exact ⟨List.pairwise_idxsOf, fun i => mem_idxsOf_iff⟩
  chain := by
    intro text first later heq
    rw [tokensWithText_eq] at heq
    have hsorted : (first :: later).Pairwise (· < ·) := heq ▸ List.pairwise_idxsOf
    have hmem : ∀ i, i ∈ first :: later ↔ first ≤ i ∧ method.texts[i]? = some text := by
      intro i
      rw [← mem_idxsOf_iff, heq]
      refine ⟨fun hi => ⟨?_, hi⟩, And.right⟩
      rcases List.mem_cons.mp hi with rfl | hi
      · exact Nat.le_refl _
      · exact Nat.le_of_lt (List.rel_of_pairwise_cons hsorted hi)
    exact h.useChain later hsorted hmem

end LinksNext

end MethodGraph

/-! ## Every move keeps the links between uses -/

namespace Cursor

variable {cursor : Cursor}

/-- If no two tokens of a text are without a link, then a new use is linked from the one that is. -/
theorem getElem?_linkUse_eq {tokens : Array Token} {text : String}
    (hunique : ∀ (i k : Nat) (a b : Token), tokens[i]? = some a → tokens[k]? = some b →
      a.text = text → b.text = text → a.nextUse = none → b.nextUse = none → i = k)
    (next i : Nat) :
    (linkUse tokens text next)[i]? = tokens[i]?.map fun token =>
      if token.text = text ∧ token.nextUse = none then { token with nextUse := some next }
      else token := by
  rw [linkUse]
  split
  · next k hk =>
    obtain ⟨hlt, hp, -⟩ := Array.findIdx?_eq_some_iff_getElem.mp hk
    rw [Bool.and_eq_true, beq_iff_eq, Option.isNone_iff_eq_none] at hp
    have hfound := Array.getElem?_eq_getElem hlt
    rw [Array.getElem?_modify]
    by_cases hki : k = i
    · subst hki
      rw [if_pos rfl, hfound, Option.map_some, Option.map_some, if_pos hp]
    · rw [if_neg hki]
      cases hi : tokens[i]? with
      | none => rfl
      | some token =>
        rw [Option.map_some, if_neg]
        rintro ⟨htext, hnone⟩
        exact hki (hunique k i _ token hfound hi hp.1 htext hp.2 hnone)
  · next hnone =>
    rw [Array.findIdx?_eq_none_iff] at hnone
    cases hi : tokens[i]? with
    | none => rfl
    | some token =>
      rw [Option.map_some, if_neg]
      rintro ⟨htext, hfree⟩
      have hp := hnone token (Array.mem_of_getElem? hi)
      rw [beq_iff_eq.mpr htext, hfree] at hp
      cases hp

theorem nextUse?_push (kind : Kind) (callee : Option String) (i : Nat) :
    (cursor.push kind callee).method.nextUse? i = cursor.method.nextUse? i := by
  have hjoin (method : MethodGraph) :
      method.nextUse? i = (method.tokens.toList.map Token.nextUse)[i]?.join := by
    rw [MethodGraph.nextUse?, List.getElem?_map, Array.getElem?_toList]
    cases method.tokens[i]? <;> rfl
  rw [hjoin, hjoin]
  change ((cursor.push kind callee).tokens.toList.map Token.nextUse)[i]?.join = _
  rw [push_tokens, map_settledTokens _ fun _ _ => rfl]
  rfl

/-- A new token is the next use of the one that has its text and no next use yet. -/
theorem nextUse?_emit (h : cursor.method.LinksNext) (text : String) (role : Role) (i : Nat) :
    (cursor.emit text role).method.nextUse? i =
      if cursor.method.texts[i]? = some text ∧ cursor.method.nextUse? i = none then
        some cursor.tokens.size
      else cursor.method.nextUse? i := by
  have hunique : ∀ (i k : Nat) (a b : Token), cursor.tokens[i]? = some a →
      cursor.tokens[k]? = some b → a.text = text → b.text = text → a.nextUse = none →
      b.nextUse = none → i = k := by
    intro i k a b hi hk ha hb hanone hbnone
    have hview (j : Nat) (token : Token) (hj : cursor.tokens[j]? = some token)
        (htext : token.text = text) (hnone : token.nextUse = none) :
        cursor.method.texts[j]? = some text ∧ cursor.method.nextUse? j = none := by
      rw [MethodGraph.getElem?_texts, MethodGraph.nextUse?, method, hj, Option.map_some, htext]
      exact ⟨rfl, hnone⟩
    obtain ⟨hitext, hinone⟩ := hview i a hi ha hanone
    obtain ⟨hktext, hknone⟩ := hview k b hk hb hbnone
    exact h.eq_of_nextUse?_eq_none hitext hktext hinone hknone
  change (cursor.emit text role).tokens[i]?.bind Token.nextUse = _
  rw [emit_tokens, Array.getElem?_push, size_linkUse, MethodGraph.getElem?_texts,
    MethodGraph.nextUse?, method]
  by_cases hi : i = cursor.tokens.size
  · rw [if_pos hi, hi, Array.getElem?_size, if_neg fun hnew => (by cases hnew.1)]
    rfl
  · rw [if_neg hi, getElem?_linkUse_eq hunique]
    cases cursor.tokens[i]? with
    | none => rfl
    | some token =>
      simp only [Option.map_some, Option.bind_some, Option.some.injEq]
      split <;> rfl

theorem linksNext_openMethod (builder : ClassBuilder) (signature : String) :
    (builder.openMethod signature).method.LinksNext := by
  intro i j
  constructor
  · intro h
    cases h
  · intro h
    exact absurd h.lt_length (Nat.not_lt_zero j)

theorem linksNext_push (h : cursor.method.LinksNext) (kind : Kind) (callee : Option String) :
    (cursor.push kind callee).method.LinksNext := by
  intro i j
  rw [nextUse?_push, texts_push]
  exact h i j

/-- A token is linked from the last one with its text. -/
theorem linksNext_emit (h : cursor.method.LinksNext) (text : String) (role : Role) :
    (cursor.emit text role).method.LinksNext := by
  intro i j
  have hlength : cursor.method.texts.length = cursor.tokens.size := cursor.method.length_texts
  rw [nextUse?_emit h, texts_emit]
  by_cases hi : i < cursor.method.texts.length
  · rw [IsNextUse.concat_iff hi, hlength]
    have hnone : cursor.method.nextUse? i = none ↔ ∀ k, ¬ IsNextUse cursor.method.texts i k := by
      rw [Option.eq_none_iff_forall_ne_some]
      exact forall_congr' fun k => not_congr (h i k)
    rw [← hnone, ← h i j]
    split
    · next hopen =>
      rw [hopen.2, Option.some.injEq]
      constructor
      · rintro rfl
        exact Or.inr ⟨rfl, hopen.1, rfl⟩
      · rintro (hcase | ⟨rfl, -⟩)
        · cases hcase
        · rfl
    · next hclosed =>
      refine ⟨Or.inl, fun hcase => hcase.resolve_right ?_⟩
      rintro ⟨-, hopen⟩
      exact hclosed hopen
  · -- neither the new token nor a number behind it has a next use
    have houtside : cursor.method.texts[i]? = none := List.getElem?_eq_none (Nat.not_lt.mp hi)
    rw [if_neg fun hnew => (by rw [houtside] at hnew; cases hnew.1), h i j]
    constructor
    · intro hnext
      exact absurd (Nat.lt_trans hnext.lt hnext.lt_length) hi
    · intro hnext
      have hlt := hnext.lt_length
      have hij := hnext.lt
      rw [List.length_append, List.length_singleton] at hlt
      omega

/-- **Every move that can be made keeps the links.** -/
theorem linksNext_move (h : cursor.method.LinksNext) {m : Move} {next : Cursor}
    (hm : cursor.move m = .ok next) : next.method.LinksNext := by
  rcases move_cases hm with ⟨kind, rfl, rfl⟩ | ⟨kind, callee, rfl, rfl⟩ |
    ⟨rfl, node, path, hpath, rfl⟩ | ⟨text, role, rfl, rfl⟩
  · exact linksNext_push h kind none
  · have hnoted : MethodGraph.LinksNext (method
        { cursor with builder := cursor.builder.noteCall cursor.signature callee }) := h
    exact linksNext_push hnoted kind (some callee)
  · exact h
  · exact linksNext_emit h text role

/-- **The next use of a token is the next token with its text.**  After any moves of a cursor, a
token is linked to the first later one with the same text, whatever their roles, and to none just if
there is no later one; from the first token of a text the links lead through all of them in order,
each once, to the last. -/
theorem linksUses_tryMoves (builder : ClassBuilder) (signature : String) (moves : List Move) :
    ((builder.openMethod signature).tryMoves moves).method.LinksUses :=
  MethodGraph.LinksNext.linksUses
    (tryMoves_of_move (p := fun cursor => cursor.method.LinksNext)
      (fun _ _ _ h hm => linksNext_move h hm) (linksNext_openMethod builder signature) moves)

/-- A name and the same text as a plain token are uses of one text. -/
example :
    ((({ name := "C" } : ClassBuilder).openMethod "m/0").tryMoves
      [.emit "x" .identifier, .descend .block, .emit "y" .plain, .emit "x" .plain, .ascend,
        .emit "x" .literal]).method.tokensWithText "x" = [0, 2, 3] := by
  decide +kernel

end Cursor

end CodeGraph
