/-
# The symbols of a method

The symbols of a method are the names emitted for it, each at its first occurrence, and the tokens of
the names have them, and no others (`Cursor.namesSymbols_tryMoves`).  So the search for a symbol by its
name finds the one that all tokens of this name have.
-/
import CodeGraph.Proofs.Build.Interned
import CodeGraph.Proofs.Build.Script

namespace CodeGraph

/-! ## Names -/

/-- The names among emitted texts, with repetitions. -/
def Mention.names (mentions : List Mention) : List String :=
  (mentions.filter (·.role = .identifier)).map Mention.text

theorem Mention.names_append (before after : List Mention) :
    names (before ++ after) = names before ++ names after := by
  rw [names, List.filter_append, List.map_append]
  rfl

/-- A name is mentioned if an identifier has this text. -/
theorem Mention.mem_names {mentions : List Mention} {name : String} :
    name ∈ names mentions ↔
      ∃ mention ∈ mentions, mention.role = .identifier ∧ mention.text = name := by
  simp only [names, List.mem_map, List.mem_filter, decide_eq_true_eq, and_assoc]

/-- The token is that of an emitted text: it has a symbol just if the text is a name, and then the one
of this name. -/
structure Token.Named (symbols : Array String) (token : Token) (mention : Mention) : Prop where
  text_eq : token.text = mention.text
  symbol_iff : token.symbol.isSome = true ↔ mention.role = .identifier
  name_eq : ∀ s, token.symbol = some s → symbols[s]? = some token.text

/-- A token is named the same among more symbols. -/
theorem Token.Named.grow {symbols more : Array String} {token : Token} {mention : Mention}
    (h : token.Named symbols mention) (hgrow : Grows symbols more) : token.Named more mention :=
  ⟨h.text_eq, h.symbol_iff, fun s hs => hgrow s _ (h.name_eq s hs)⟩

/-- Only the text and the symbol of a token matter. -/
theorem Token.Named.congr {symbols : Array String} {tokens others : List Token}
    {mentions : List Mention} (h : List.Forall₂ (Token.Named symbols) tokens mentions)
    (heq : others.map (fun token => (token.text, token.symbol)) =
      tokens.map fun token => (token.text, token.symbol)) :
    List.Forall₂ (Token.Named symbols) others mentions := by
  have hview (tokens : List Token) : List.Forall₂ (Token.Named symbols) tokens mentions ↔
      List.Forall₂ (fun view => Token.Named symbols ⟨view.1, 0, view.2, none, none, [], []⟩)
        (tokens.map fun token => (token.text, token.symbol)) mentions := by
    rw [List.forall₂_map_left_iff]
    exact ⟨fun h => h.imp fun _ _ h => ⟨h.text_eq, h.symbol_iff, h.name_eq⟩,
      fun h => h.imp fun _ _ h => ⟨h.text_eq, h.symbol_iff, h.name_eq⟩⟩
  rw [hview, heq, ← hview]
  exact h

/-- There is a partner for everything on the right. -/
theorem exists_of_mem_right {α β : Type} {r : α → β → Prop} {xs : List α} {ys : List β}
    (h : List.Forall₂ r xs ys) {y : β} (hy : y ∈ ys) : ∃ x ∈ xs, r x y := by
  induction h with
  | nil => cases hy
  | cons hhere _ ih =>
    rcases List.mem_cons.mp hy with rfl | hy
    · exact ⟨_, List.mem_cons_self, hhere⟩
    · obtain ⟨x, hx, hxy⟩ := ih hy
      exact ⟨x, List.mem_cons_of_mem _ hx, hxy⟩

/-- There is a partner for everything on the left. -/
theorem exists_of_mem_left {α β : Type} {r : α → β → Prop} {xs : List α} {ys : List β}
    (h : List.Forall₂ r xs ys) {x : α} (hx : x ∈ xs) : ∃ y ∈ ys, r x y :=
  exists_of_mem_right h.flip hx

/-! ## Symbols without repetitions -/

section Table

variable {symbols : Array String} (hsymbols : symbols.toList.Nodup)

include hsymbols

/-- A name has one number. -/
theorem eq_of_getElem?_eq_some {s t : Nat} {name : String} (hs : symbols[s]? = some name)
    (ht : symbols[t]? = some name) : s = t := by
  rw [← Array.getElem?_toList] at hs ht
  exact (List.getElem?_inj (List.getElem?_eq_some_iff.mp hs).1 hsymbols).mp (hs.trans ht.symm)

/-- The search for a name finds its number. -/
theorem findIdx?_eq_some_iff (name : String) (s : Nat) :
    symbols.findIdx? (· == name) = some s ↔ symbols[s]? = some name := by
  rw [Array.findIdx?_eq_some_iff_getElem]
  constructor
  · rintro ⟨hlt, hname, -⟩
    rw [Array.getElem?_eq_getElem hlt, beq_iff_eq.mp hname]
  · intro hs
    obtain ⟨hlt, hname⟩ := Array.getElem?_eq_some_iff.mp hs
    refine ⟨hlt, beq_iff_eq.mpr hname, fun t ht hother => ?_⟩
    have hlt' := Nat.lt_trans ht hlt
    have htname : symbols[t]? = some name := by
      rw [Array.getElem?_eq_getElem hlt', beq_iff_eq.mp hother]
    exact Nat.ne_of_lt ht (eq_of_getElem?_eq_some hsymbols htname hs)

end Table

/-! ## The symbols of the emitted names -/

/-- The symbols of a method are those of the texts emitted for it. -/
structure MethodGraph.NamesSymbols (method : MethodGraph) (mentions : List Mention) : Prop where
  symbols_eq : method.symbols.toList = (Mention.names mentions).eraseDups
  nodup : method.symbols.toList.Nodup
  /-- One token for each text; it has a symbol just if the text is a name, and then the one of this
  name. -/
  tokens : List.Forall₂ (Token.Named method.symbols) method.tokens.toList mentions
  shared_iff : ∀ a ∈ method.tokens, ∀ b ∈ method.tokens, a.symbol.isSome = true →
    b.symbol.isSome = true → (a.symbol = b.symbol ↔ a.text = b.text)
  findSymbol?_eq_some_iff : ∀ name s, method.findSymbol? name = some s ↔
    ∃ token ∈ method.tokens, token.text = name ∧ token.symbol = some s

namespace Cursor

/-- The symbols are the names among the emitted texts, and the tokens have them. -/
structure Named (cursor : Cursor) (own : List Mention) : Prop where
  symbols : cursor.symbols.toList = (Mention.names own).eraseDups
  tokens : List.Forall₂ (Token.Named cursor.symbols) cursor.tokens.toList own

variable {cursor : Cursor} {own : List Mention}

/-- The symbols when a token has been met are the names met so far. -/
theorem toList_symbolOf (h : cursor.symbols.toList = (Mention.names own).eraseDups) (text : String)
    (role : Role) :
    (symbolOf cursor.symbols text role).1.toList =
      (Mention.names (own ++ [⟨text, role⟩])).eraseDups := by
  rw [Mention.names_append, symbolOf]
  split
  · next hrole =>
    subst hrole
    show (Vocabulary.intern cursor.symbols text).1.toList =
      (Mention.names own ++ [text]).eraseDups
    rw [Vocabulary.intern_toList, eraseDups_concat, h]
    simp only [List.mem_eraseDups]
  · next hrole =>
    have hnone : Mention.names [⟨text, role⟩] = [] := by
      rw [Mention.names, List.filter_singleton, decide_eq_false hrole]
      rfl
    rw [hnone, List.append_nil]
    exact h

namespace Named

theorem openMethod (builder : ClassBuilder) (signature : String) :
    (builder.openMethod signature).Named [] :=
  ⟨rfl, List.Forall₂.nil⟩

theorem push (h : cursor.Named own) (kind : Kind) (callee : Option String) :
    (cursor.push kind callee).Named own where
  symbols := by
    rw [push_symbols]
    exact h.symbols
  tokens := by
    rw [push_symbols, push_tokens]
    exact Token.Named.congr h.tokens (map_settledTokens _ (fun _ _ => rfl) _ _ _)

theorem emit (h : cursor.Named own) (text : String) (role : Role) :
    (cursor.emit text role).Named (own ++ [⟨text, role⟩]) where
  symbols := by
    rw [emit_symbols]
    exact toList_symbolOf h.symbols text role
  tokens := by
    obtain ⟨hgrow, hname⟩ := symbolOf_spec cursor.symbols text role
    rw [emit_symbols, emit_tokens, Array.toList_push]
    refine List.rel_append ?_ (List.forall₂_cons.mpr ⟨⟨rfl, ?_, hname⟩, List.Forall₂.nil⟩)
    · -- the tokens from before keep their texts and symbols, and the table only grows
      exact Token.Named.congr (h.tokens.imp fun _ _ htoken => htoken.grow hgrow)
        (map_linkUse _ (fun _ _ => rfl) _ _ _)
    · exact (cursor.fits_emit text role).symbol_iff

/-- **Each move keeps the symbols those of the emitted names.** -/
theorem tryMove (h : cursor.Named own) (m : Move) :
    (cursor.tryMove m).Named (own ++ m.mention?.toList) := by
  cases m with
  | descend kind =>
    show (cursor.push kind none).Named (own ++ [])
    rw [List.append_nil]
    exact h.push kind none
  | descendCall kind callee =>
    have hnoted : Cursor.Named
        { cursor with builder := cursor.builder.noteCall cursor.signature callee } own :=
      ⟨h.symbols, h.tokens⟩
    show Cursor.Named (Cursor.push _ kind (some callee)) (own ++ [])
    rw [List.append_nil]
    exact hnoted.push kind (some callee)
  | ascend =>
    rw [Move.mention?, Option.toList_none, List.append_nil]
    refine tryMove_of_move (p := fun next => next.Named own) (fun next hm => ?_) h
    obtain ⟨node, path, -, rfl⟩ := cursor.ascend_eq_ok hm
    exact ⟨h.symbols, h.tokens⟩
  | emit text role => exact h.emit text role

theorem tryMoves (h : cursor.Named own) (moves : List Move) :
    (cursor.tryMoves moves).Named (own ++ moves.filterMap Move.mention?) := by
  induction moves generalizing cursor own with
  | nil =>
    rw [List.filterMap_nil, List.append_nil]
    exact h
  | cons m moves ih =>
    have hlast := ih (h.tryMove m)
    rw [List.append_assoc] at hlast
    cases hmention : m.mention? with
    | none =>
      rw [hmention, Option.toList_none, List.nil_append] at hlast
      rw [List.filterMap_cons_none hmention]
      exact hlast
    | some mention =>
      rw [hmention, Option.toList_some, List.singleton_append] at hlast
      rw [List.filterMap_cons_some hmention]
      exact hlast

theorem nodup (h : cursor.Named own) : cursor.symbols.toList.Nodup := by
  rw [h.symbols]
  exact nodup_eraseDups _

/-- The symbol of a token bears its text. -/
theorem name_eq (h : cursor.Named own) {token : Token} (htoken : token ∈ cursor.tokens) {s : Nat}
    (hs : token.symbol = some s) : cursor.symbols[s]? = some token.text := by
  obtain ⟨mention, -, hnamed⟩ := exists_of_mem_left h.tokens (Array.mem_toList_iff.mpr htoken)
  exact hnamed.name_eq s hs

/-- Every symbol is the symbol of some token. -/
theorem exists_token (h : cursor.Named own) {s : Nat} {name : String}
    (hs : cursor.symbols[s]? = some name) :
    ∃ token ∈ cursor.tokens, token.text = name ∧ token.symbol = some s := by
  have hname : name ∈ cursor.symbols.toList := Array.mem_toList_iff.mpr (Array.mem_of_getElem? hs)
  rw [h.symbols, List.mem_eraseDups, Mention.mem_names] at hname
  obtain ⟨mention, hmention, hrole, htext⟩ := hname
  obtain ⟨token, htoken, hnamed⟩ := exists_of_mem_right h.tokens hmention
  obtain ⟨t, ht⟩ := Option.isSome_iff_exists.mp (hnamed.symbol_iff.mpr hrole)
  have hsame := hnamed.name_eq t ht
  rw [hnamed.text_eq, htext] at hsame
  refine ⟨token, Array.mem_toList_iff.mp htoken, hnamed.text_eq.trans htext, ?_⟩
  rw [ht, eq_of_getElem?_eq_some h.nodup hsame hs]

/-- Symbols are the names that are mentioned. -/
theorem namesSymbols (h : cursor.Named own) : cursor.method.NamesSymbols own where
  symbols_eq := h.symbols
  nodup := h.nodup
  tokens := h.tokens
  shared_iff := by
    intro a ha b hb hasome hbsome
    obtain ⟨s, hs⟩ := Option.isSome_iff_exists.mp hasome
    obtain ⟨t, ht⟩ := Option.isSome_iff_exists.mp hbsome
    have haname := h.name_eq ha hs
    have hbname := h.name_eq hb ht
    rw [hs, ht, Option.some.injEq]
    constructor
    · rintro rfl
      exact Option.some.inj (haname.symm.trans hbname)
    · intro htext
      rw [htext] at haname
      exact eq_of_getElem?_eq_some h.nodup haname hbname
  findSymbol?_eq_some_iff := by
    intro name s
    show cursor.symbols.findIdx? (· == name) = some s ↔ _
    rw [findIdx?_eq_some_iff h.nodup]
    constructor
    · exact h.exists_token
    · rintro ⟨token, htoken, rfl, hs⟩
      exact h.name_eq htoken hs

end Named

/-- **The symbols of a method are its names.**  After any moves of a cursor, the symbols are the
distinct texts emitted as names, in the order of their first occurrences.  A token has a symbol just
if it was emitted as a name, and then the one with its text, so that two names share a symbol just if
their texts are equal.  The search for a name finds the symbol that the tokens of this name have, and
nothing if there are no such tokens. -/
theorem namesSymbols_tryMoves (builder : ClassBuilder) (signature : String) (moves : List Move) :
    ((builder.openMethod signature).tryMoves moves).method.NamesSymbols
      (moves.filterMap Move.mention?) := by
  have h := (Named.openMethod builder signature).tryMoves moves
  rw [List.nil_append] at h
  exact h.namesSymbols

/-- A text that occurs only as a plain token or a literal is no symbol. -/
example :
    ((({ name := "C" } : ClassBuilder).openMethod "m/0").tryMoves
      [.emit "y" .plain, .emit "x" .identifier, .descend .block, .emit "y" .literal,
        .emit "x" .identifier]).method.findSymbol? "y" = none := by
  decide +kernel

end Cursor

end CodeGraph
