/-
# What the tokens of a method refer to

`MethodGraph.TokenSound` says where the links of a token lead: its symbol bears its text, its next
use is a later token with its text, its words are words of its text, and the value it is assigned is
a node of the method.  The moves of a cursor keep this of all tokens (`Cursor.Linked.move`), and the
tables of symbols and words only grow.
-/
import CodeGraph.Proofs.Build.Place

namespace CodeGraph

/-! ## Tables that grow -/

/-- Nothing in the first table is changed or lost in the second. -/
def Grows {α : Type} (xs ys : Array α) : Prop :=
  ∀ (i : Nat) (a : α), xs[i]? = some a → ys[i]? = some a

namespace Grows

variable {α : Type} {xs ys zs : Array α}

theorem refl (xs : Array α) : Grows xs xs := fun _ _ h => h

theorem trans (hxy : Grows xs ys) (hyz : Grows ys zs) : Grows xs zs :=
  fun i a h => hyz i a (hxy i a h)

/-- An array grows when something is pushed. -/
theorem push (xs : Array α) (a : α) : Grows xs (xs.push a) := by
  intro i b h
  obtain ⟨hlt, heq⟩ := Array.getElem?_eq_some_iff.mp h
  rw [Array.getElem?_push_lt hlt, heq]

end Grows

/-! ## Words -/

namespace Vocabulary

/-- A word that is interned is in the table at its number. -/
theorem intern_spec (words : Array String) (word : String) :
    Grows words (intern words word).1 ∧
      (intern words word).1[(intern words word).2]? = some word := by
  rw [intern]
  split
  · next i hi =>
    obtain ⟨hlt, heq, -⟩ := Array.findIdx?_eq_some_iff_getElem.mp hi
    refine ⟨Grows.refl words, ?_⟩
    rw [Array.getElem?_eq_getElem hlt, beq_iff_eq.mp heq]
  · exact ⟨Grows.push words word, Array.getElem?_push_size⟩

/-- The numbers are those of words from the given list. -/
def Names (words : Array String) (ids : List Nat) (source : List String) : Prop :=
  ∀ w ∈ ids, ∃ word, words[w]? = some word ∧ word ∈ source

/-- Ids name the same words in a larger vocabulary. -/
theorem Names.grow {words more : Array String} {ids : List Nat} {source : List String}
    (h : Names words ids source) (hgrow : Grows words more) : Names more ids source := by
  intro w hw
  obtain ⟨word, hword, hmem⟩ := h w hw
  exact ⟨word, hgrow w word hword, hmem⟩

/-- A word that is interned is named by an id, and the words before it stay. -/
theorem internNext_spec {words : Array String} {ids : List Nat} {source : List String}
    (h : Names words ids source) {word : String} (hword : word ∈ source) :
    Grows words (internNext (words, ids) word).1 ∧
      Names (internNext (words, ids) word).1 (internNext (words, ids) word).2 source := by
  obtain ⟨hgrow, hget⟩ := intern_spec words word
  refine ⟨hgrow, fun w hw => ?_⟩
  have hids := h.grow hgrow
  change w ∈ (if (intern words word).2 ∈ ids then ids else ids ++ [(intern words word).2]) at hw
  split at hw
  · exact hids w hw
  · rcases List.mem_append.mp hw with hw | hw
    · exact hids w hw
    · obtain rfl := List.mem_singleton.mp hw
      exact ⟨word, hget, hword⟩

/-- Words that are interned one after another are named by their ids. -/
theorem foldl_internNext_spec {source : List String} (todo : List String)
    (htodo : ∀ word ∈ todo, word ∈ source) (words : Array String) (ids : List Nat)
    (h : Names words ids source) :
    Grows words (todo.foldl internNext (words, ids)).1 ∧
      Names (todo.foldl internNext (words, ids)).1 (todo.foldl internNext (words, ids)).2
        source := by
  induction todo generalizing words ids with
  | nil => exact ⟨Grows.refl words, h⟩
  | cons word todo ih =>
    obtain ⟨hgrow, hnames⟩ := internNext_spec h (htodo word List.mem_cons_self)
    obtain ⟨hgrow', hnames'⟩ :=
      ih (fun w hw => htodo w (List.mem_cons_of_mem word hw)) _ _ hnames
    exact ⟨hgrow.trans hgrow', hnames'⟩

/-- The words of a text are in the table at the numbers that the text gets. -/
theorem internText_spec (words : Array String) (text : String) :
    Grows words (internText words text).1 ∧
      Names (internText words text).1 (internText words text).2 (Text.subwords text) :=
  foldl_internNext_spec _ (fun _ h => h) words [] fun _ h => absurd h List.not_mem_nil

end Vocabulary

namespace Cursor

/-- The ids of a text name its words in the vocabulary that it leaves. -/
theorem wordsOf_spec (builder : ClassBuilder) (text : String) (role : Role) :
    Grows builder.vocabulary (wordsOf builder text role).1.vocabulary ∧
      Vocabulary.Names (wordsOf builder text role).1.vocabulary (wordsOf builder text role).2
        (Text.subwords text) := by
  rw [wordsOf]
  split
  · exact Vocabulary.internText_spec builder.vocabulary text
  · exact ⟨Grows.refl _, fun _ h => absurd h List.not_mem_nil⟩

/-! ## Symbols and uses -/

/-- A name that is noted is found at its place, and the names before it stay. -/
theorem noteSymbol_spec (symbols : Array String) (name : String) :
    Grows symbols (noteSymbol symbols name).1 ∧
      (noteSymbol symbols name).1[(noteSymbol symbols name).2]? = some name :=
  Vocabulary.intern_spec symbols name

/-- If a text gets a symbol, it is the name of the symbol. -/
theorem symbolOf_spec (symbols : Array String) (text : String) (role : Role) :
    Grows symbols (symbolOf symbols text role).1 ∧
      ∀ s, (symbolOf symbols text role).2 = some s →
        (symbolOf symbols text role).1[s]? = some text := by
  rw [symbolOf]
  split
  · refine ⟨(noteSymbol_spec symbols text).1, fun s hs => ?_⟩
    cases hs
    exact (noteSymbol_spec symbols text).2
  · refine ⟨Grows.refl symbols, fun s hs => ?_⟩
    cases hs

/-- A token after a new use has been linked: as before, or linked to the new use of its text. -/
theorem getElem?_linkUse {tokens : Array Token} {text : String} {next i : Nat} {token : Token}
    (h : (linkUse tokens text next)[i]? = some token) :
    ∃ old, tokens[i]? = some old ∧
      (token = old ∨ (old.text = text ∧ token = { old with nextUse := some next })) := by
  rw [linkUse] at h
  split at h
  · -- the token that is linked has been found as one with the text
    next k hk =>
    obtain ⟨hlt, hp, -⟩ := Array.findIdx?_eq_some_iff_getElem.mp hk
    rw [Array.getElem?_modify] at h
    split at h
    · next hki =>
      subst hki
      obtain ⟨old, hold, rfl⟩ := Option.map_eq_some_iff.mp h
      refine ⟨old, hold, Or.inr ⟨?_, rfl⟩⟩
      rw [Array.getElem?_eq_getElem hlt, Option.some.injEq] at hold
      rw [hold, Bool.and_eq_true, beq_iff_eq] at hp
      exact hp.1
    · exact ⟨token, h, Or.inl rfl⟩
  · exact ⟨token, h, Or.inl rfl⟩

/-- A token when a new node is there: as before, or assigned the new node. -/
theorem getElem?_settledTokens {awaited : Awaited} {tokens : Array Token} {node i : Nat}
    {token : Token} (h : (settledTokens awaited tokens node)[i]? = some token) :
    ∃ old, tokens[i]? = some old ∧
      (token = old ∨ token = { old with assignedFrom := some node }) := by
  cases awaited with
  | nothing => exact ⟨token, h, Or.inl rfl⟩
  | target => exact ⟨token, h, Or.inl rfl⟩
  | value target =>
    rw [settledTokens, Array.getElem?_modify] at h
    split at h
    · obtain ⟨old, hold, rfl⟩ := Option.map_eq_some_iff.mp h
      exact ⟨old, hold, Or.inr rfl⟩
    · exact ⟨token, h, Or.inl rfl⟩

end Cursor

/-! ## Sound tokens -/

namespace MethodGraph

/-- The texts of the tokens, in the order of the tokens. -/
def texts (method : MethodGraph) : List String := method.tokens.toList.map Token.text

/-- The texts are those of the tokens, one by one. -/
theorem getElem?_texts (method : MethodGraph) (i : Nat) :
    method.texts[i]? = method.tokens[i]?.map Token.text := by
  rw [texts, List.getElem?_map, Array.getElem?_toList]

theorem length_texts (method : MethodGraph) : method.texts.length = method.tokens.size := by
  rw [texts, List.length_map, Array.length_toList]

/-- Where there is a text, there is a token. -/
theorem lt_size_of_texts (method : MethodGraph) {i : Nat} {text : String}
    (h : method.texts[i]? = some text) : i < method.tokens.size := by
  rw [method.getElem?_texts, Option.map_eq_some_iff] at h
  obtain ⟨token, htoken, -⟩ := h
  exact (Array.getElem?_eq_some_iff.mp htoken).1

/-- The links of token number `i` lead where they should, with the given words of the class. -/
structure TokenSound (method : MethodGraph) (words : Array String) (i : Nat) (token : Token) :
    Prop where
  symbol : ∀ s, token.symbol = some s → method.symbols[s]? = some token.text
  nextUse : ∀ j, token.nextUse = some j → i < j ∧ method.texts[j]? = some token.text
  assignedFrom : ∀ n, token.assignedFrom = some n → n < method.nodes.size
  vocabulary : Vocabulary.Names words token.vocabulary (Text.subwords token.text)

/-- A method that goes on keeps its sound tokens. -/
theorem TokenSound.extend {method more : MethodGraph} {words moreWords : Array String} {i : Nat}
    {token : Token} (h : method.TokenSound words i token)
    (hsymbols : Grows method.symbols more.symbols) (htexts : method.texts <+: more.texts)
    (hnodes : method.nodes.size ≤ more.nodes.size) (hwords : Grows words moreWords) :
    more.TokenSound moreWords i token where
  symbol := fun s hs => hsymbols s _ (h.symbol s hs)
  nextUse := by
    intro j hj
    obtain ⟨hij, htext⟩ := h.nextUse j hj
    obtain ⟨later, hlater⟩ := htexts
    rw [← hlater, List.getElem?_append_left (List.getElem?_eq_some_iff.mp htext).1]
    exact ⟨hij, htext⟩
  assignedFrom := fun n hn => Nat.lt_of_lt_of_le (h.assignedFrom n hn) hnodes
  vocabulary := h.vocabulary.grow hwords

/-- All tokens of the method are sound, with the given words of the class. -/
def Linked (method : MethodGraph) (words : Array String) : Prop :=
  ∀ (i : Nat) (token : Token), method.tokens[i]? = some token →
    method.TokenSound words i token

/-- Links into the words hold in a larger vocabulary. -/
theorem Linked.grow {method : MethodGraph} {words more : Array String}
    (h : method.Linked words) (hgrow : Grows words more) : method.Linked more :=
  fun i token htoken => (h i token htoken).extend (Grows.refl _) (List.prefix_refl _)
    (Nat.le_refl _) hgrow

/-- No return of the method is linked yet. -/
def Unlinked (method : MethodGraph) : Prop :=
  ∀ (i : Nat) (token : Token), method.tokens[i]? = some token → token.returnsTo = []

end MethodGraph

/-! ## Every move keeps the links -/

namespace Cursor

/-- All tokens of the method made so far are sound and unlinked, and a token that awaits its value is
one of them. -/
structure Linked (cursor : Cursor) : Prop where
  sound : cursor.method.Linked cursor.builder.vocabulary
  unlinked : cursor.method.Unlinked
  awaited_lt : ∀ target, cursor.awaited = .value target → target < cursor.tokens.size

variable {cursor : Cursor}

theorem texts_push (kind : Kind) (callee : Option String) :
    (cursor.push kind callee).method.texts = cursor.method.texts := by
  show ((cursor.push kind callee).tokens).toList.map Token.text = _
  rw [push_tokens, map_settledTokens _ fun _ _ => rfl]
  rfl

theorem texts_emit (text : String) (role : Role) :
    (cursor.emit text role).method.texts = cursor.method.texts ++ [text] := by
  show ((cursor.emit text role).tokens).toList.map Token.text = _
  rw [emit_tokens, Array.toList_push, List.map_append, map_linkUse _ fun _ _ => rfl]
  rfl

theorem size_push_nodes (kind : Kind) (callee : Option String) :
    (cursor.push kind callee).nodes.size = cursor.nodes.size + 1 := by
  rw [push_nodes, adopt, Array.size_modify, Array.size_push]

theorem size_emit_nodes (text : String) (role : Role) :
    (cursor.emit text role).nodes.size = cursor.nodes.size := by
  rw [emit_nodes, Array.size_modify]

theorem size_linkUse (tokens : Array Token) (text : String) (next : Nat) :
    (linkUse tokens text next).size = tokens.size := by
  rw [linkUse]
  split
  · rw [Array.size_modify]
  · rfl

theorem size_emit_tokens (text : String) (role : Role) :
    (cursor.emit text role).tokens.size = cursor.tokens.size + 1 := by
  rw [emit_tokens, Array.size_push, size_linkUse]

/-- A token of a cursor after a move: one from before with the same links, but for those that the
move is about, or the new one. -/
theorem getElem?_emit_tokens {text : String} {role : Role} {i : Nat} {token : Token}
    (h : (cursor.emit text role).tokens[i]? = some token) :
    (i = cursor.tokens.size ∧ token =
      { text, owner := cursor.current, symbol := (symbolOf cursor.symbols text role).2
        vocabulary := (wordsOf cursor.builder text role).2 }) ∨
    ∃ old, cursor.tokens[i]? = some old ∧ (token = old ∨
      (old.text = text ∧ token = { old with nextUse := some cursor.tokens.size })) := by
  rw [emit_tokens, Array.getElem?_push, size_linkUse] at h
  split at h
  · next hi =>
    cases h
    exact Or.inl ⟨hi, rfl⟩
  · exact Or.inr (getElem?_linkUse h)

namespace Linked

theorem openMethod (builder : ClassBuilder) (signature : String) :
    (builder.openMethod signature).Linked where
  sound := fun _ token h =>
    absurd (h.symm.trans Array.getElem?_empty) (Option.some_ne_none token)
  unlinked := fun _ token h =>
    absurd (h.symm.trans Array.getElem?_empty) (Option.some_ne_none token)
  awaited_lt := by
    intro i h
    cases h

/-- A sound token stays sound when a new node is there. -/
theorem tokenSound_push (h : cursor.Linked) (kind : Kind) (callee : Option String) {i : Nat}
    {old : Token} (hold : cursor.tokens[i]? = some old) :
    (cursor.push kind callee).method.TokenSound (cursor.push kind callee).builder.vocabulary i
      old := by
  refine (h.sound i old hold).extend ?_ ?_ ?_ ?_
  · show Grows cursor.symbols (cursor.push kind callee).symbols
    rw [push_symbols]
    exact Grows.refl _
  · rw [texts_push]
  · show cursor.nodes.size ≤ (cursor.push kind callee).nodes.size
    rw [size_push_nodes]
    exact Nat.le_succ _
  · rw [push_builder]
    exact Grows.refl _

/-- A push keeps the links, and a value that is settled is a node that exists. -/
theorem push (h : cursor.Linked) (kind : Kind) (callee : Option String) :
    (cursor.push kind callee).Linked where
  sound := by
    intro i token htoken
    change (cursor.push kind callee).tokens[i]? = some token at htoken
    rw [push_tokens] at htoken
    obtain ⟨old, hold, rfl | rfl⟩ := getElem?_settledTokens htoken
    · exact h.tokenSound_push kind callee hold
    · -- the value that the token is assigned is the new node
      have hsound := h.tokenSound_push kind callee hold
      refine ⟨hsound.symbol, hsound.nextUse, fun n hn => ?_, hsound.vocabulary⟩
      cases hn
      show cursor.nodes.size < (cursor.push kind callee).nodes.size
      rw [size_push_nodes]
      exact Nat.lt_succ_self _
  unlinked := by
    intro i token htoken
    change (cursor.push kind callee).tokens[i]? = some token at htoken
    rw [push_tokens] at htoken
    obtain ⟨old, hold, rfl | rfl⟩ := getElem?_settledTokens htoken
    · exact h.unlinked i token hold
    · exact h.unlinked i old hold
  awaited_lt := by
    intro target htarget
    rw [push_awaited] at htarget
    cases hin : awaitedIn cursor.awaited kind <;> rw [hin] at htarget <;> cases htarget

/-- A sound token stays sound when a new token is there. -/
theorem tokenSound_emit (h : cursor.Linked) (text : String) (role : Role) {i : Nat} {old : Token}
    (hold : cursor.tokens[i]? = some old) :
    (cursor.emit text role).method.TokenSound (cursor.emit text role).builder.vocabulary i old := by
  refine (h.sound i old hold).extend ?_ ?_ ?_ ?_
  · show Grows cursor.symbols (cursor.emit text role).symbols
    rw [emit_symbols]
    exact (symbolOf_spec cursor.symbols text role).1
  · rw [texts_emit]
    exact List.prefix_append _ _
  · show cursor.nodes.size ≤ (cursor.emit text role).nodes.size
    rw [size_emit_nodes]
  · rw [emit_builder]
    exact (wordsOf_spec cursor.builder text role).1

/-- What a token awaits is there after the next token, too. -/
theorem awaited_lt_emit (h : cursor.Linked) (text : String) (role : Role) {target : Nat}
    (htarget : (cursor.emit text role).awaited = .value target) :
    target < cursor.tokens.size + 1 := by
  rw [emit_awaited] at htarget
  cases hawaited : cursor.awaited with
  | nothing =>
    rw [hawaited] at htarget
    cases htarget
  | target =>
    rw [hawaited, awaitedAfter] at htarget
    split at htarget
    · cases htarget
      exact Nat.lt_succ_self _
    · cases htarget
  | value i =>
    rw [hawaited] at htarget
    cases htarget
    exact Nat.lt_succ_of_lt (h.awaited_lt target hawaited)

/-- A token keeps the links of the others, and its own lead to what exists. -/
theorem emit (h : cursor.Linked) (text : String) (role : Role) :
    (cursor.emit text role).Linked where
  sound := by
    intro i token htoken
    rcases getElem?_emit_tokens htoken with ⟨rfl, rfl⟩ | ⟨old, hold, rfl | ⟨htext, rfl⟩⟩
    · -- the new token has a symbol and words, and no other links yet
      refine ⟨fun s hs => ?_, fun j hj => ?_, fun j hj => ?_, ?_⟩
      · show (cursor.emit text role).symbols[s]? = some text
        rw [emit_symbols]
        exact (symbolOf_spec cursor.symbols text role).2 s hs
      · cases hj
      · cases hj
      · rw [emit_builder]
        exact (wordsOf_spec cursor.builder text role).2
    · exact h.tokenSound_emit text role hold
    · -- the last use of the text so far gets the new token as its next use
      have hsound := h.tokenSound_emit text role hold
      refine ⟨hsound.symbol, fun j hj => ?_, hsound.assignedFrom, hsound.vocabulary⟩
      cases hj
      refine ⟨(Array.getElem?_eq_some_iff.mp hold).1, ?_⟩
      have hlength : cursor.method.texts.length = cursor.tokens.size := cursor.method.length_texts
      rw [texts_emit, ← htext, ← hlength, List.getElem?_concat_length]
  unlinked := by
    intro i token htoken
    rcases getElem?_emit_tokens htoken with ⟨rfl, rfl⟩ | ⟨old, hold, rfl | ⟨-, rfl⟩⟩
    · rfl
    · exact h.unlinked i token hold
    · exact h.unlinked i old hold
  awaited_lt := by
    intro target htarget
    rw [size_emit_tokens]
    exact h.awaited_lt_emit text role htarget

/-- **Every move that can be made keeps the links.** -/
theorem move (h : cursor.Linked) {m : Move} {next : Cursor} (hm : cursor.move m = .ok next) :
    next.Linked := by
  rcases move_cases hm with ⟨kind, rfl, rfl⟩ | ⟨kind, callee, rfl, rfl⟩ |
    ⟨rfl, node, path, hpath, rfl⟩ | ⟨text, role, rfl, rfl⟩
  · exact h.push kind none
  · have hnoted :
        Linked { cursor with builder := cursor.builder.noteCall cursor.signature callee } :=
      ⟨h.sound, h.unlinked, h.awaited_lt⟩
    exact hnoted.push kind (some callee)
  · refine ⟨h.sound, h.unlinked, fun target htarget => ?_⟩
    dsimp only at htarget
    split at htarget
    · cases htarget
    · exact h.awaited_lt target htarget
  · exact h.emit text role

end Linked

end Cursor

end CodeGraph
