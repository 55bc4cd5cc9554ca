/-
# Reading written trees

The written form of a tree is an object.  Its members are the kind of the node and, where there are
any, its name, its signature and its children (`Tree.toJson_eq`), so it is read member by member,
and the tree that is read is the tree that was written (`Tree.ofJson_toJson`).  Of a child only the
length of its written form matters: it is shorter than that of its parent, and a text has more
fuel than characters.
-/
import CodeGraph.Proofs.Graph.Label
import CodeGraph.Proofs.Json.Brackets
import CodeGraph.Tree.Format

namespace CodeGraph

open Json

/-! ## Kinds and roles -/

/-- **A written kind is read as itself.** -/
theorem Kind.reads (kind : Kind) : Reads Kind.read (encodeText kind.name) kind := by
  have hfound : (Kind.all.map fun kind => Alternative.named kind.name kind).find?
      (·.name == kind.name) = some (Alternative.named kind.name kind) := by
    rw [List.find?_map]
    show (Kind.ofName? kind.name).map _ = _
    rw [Kind.ofName?_name]
    rfl
  exact reads_choice hfound rfl

/-- **A written role is read as itself.** -/
theorem Role.reads (role : Role) : Reads Role.read (encodeText role.name) role := by
  have hfound : (Role.all.map fun role => Alternative.named role.name role).find?
      (·.name == role.name) = some (Alternative.named role.name role) := by
    cases role <;> rfl
  exact reads_choice hfound rfl

/-! ## The written form of a tree as an object -/

/-- The member for a text, if there is one. -/
def optionalMember (key : String) (text? : Option String) : List (String × List Char) :=
  text?.toList.map fun text => (key, encodeText text)

/-- The written form of a member of a forest. -/
def Item.toJson : Item → List Char
  | .token text role =>
    encodeObject [("token",
      encodeObject [("text", encodeText text), ("role", encodeText role.name)])]
  | .node tree => encodeObject [("node", tree.toJson)]

/-- The written forms of the items of a forest. -/
def Forest.texts (forest : Forest) : List (List Char) := forest.toList.map Item.toJson

/-- The member for the children, if there are any. -/
def Forest.member : Forest → List (String × List Char)
  | .nil => []
  | children => [("children", encodeList children.texts)]

/-- The members of a written node. -/
def Tree.members (tree : Tree) : List (String × List Char) :=
  ("kind", encodeText tree.kind.name) ::
    (optionalMember "name" tree.name ++
      (optionalMember "signature" tree.signature ++ tree.children.member))

/-! ### What is written last -/

theorem writeMember_eq (key : String) (value rest : List Char) :
    writeMember key value rest = encodeMember (key, value) ++ rest := by
  rw [writeMember, encodeMember, List.append_assoc, List.cons_append]

/-- A text that may be missing is written as a member or not at all. -/
theorem writeOptional_eq (key : String) (text? : Option String) (rest : List Char) :
    writeOptional key text? rest =
      behindCommas ((optionalMember key text?).map encodeMember) ++ rest := by
  cases text? with
  | none => rfl
  | some text =>
    rw [writeOptional, writeMember_eq]
    simp [optionalMember, behindCommas]

/-- What follows the head of a node is written behind it. -/
theorem writeHead_append (kind : Kind) (name signature : Option String) (rest more : List Char) :
    writeHead kind name signature rest ++ more = writeHead kind name signature (rest ++ more) := by
  simp only [writeHead, writeMember_eq, writeOptional_eq, List.append_assoc]

/-- What is written behind the head of a node: its children, if there are any. -/
def writeChildren (children : Forest) (rest : List Char) : List Char :=
  match children with
  | .nil => rest
  | children => ",\"children\":[".toList ++ children.write true (']' :: rest)

/-- A token is written in front of the rest of the forest. -/
theorem Forest.write_token (first : Bool) (text : String) (role : Role) (tail : Forest)
    (rest : List Char) : (Forest.token text role tail).write first rest =
      (if first then [] else [',']) ++ ((Item.token text role).toJson ++ tail.write false rest) := by
  simp [Forest.write, Item.toJson, encodeObject, separate, List.intercalate, writeMember,
    encodeText, encodeChar]

/-- A node is written in front of the rest of the forest. -/
theorem Forest.write_node (first : Bool) (kind : Kind) (name signature : Option String)
    (children tail : Forest) (rest : List Char) :
    (Forest.node kind name signature children tail).write first rest =
      (if first then [] else [',']) ++ ("\x7b\"node\":\x7b".toList ++
        writeHead kind name signature
          (writeChildren children ('}' :: '}' :: tail.write false rest))) := by
  cases children <;> simp only [Forest.write, writeChildren, List.append_assoc]

/-- A tree is written as its head and its children. -/
theorem Tree.toJson_eq_writeHead (tree : Tree) : tree.toJson =
    '{' :: writeHead tree.kind tree.name tree.signature (writeChildren tree.children ['}']) := by
  obtain ⟨kind, name, signature, children⟩ := tree
  cases children <;> rfl

/-- What follows the children is written behind them. -/
theorem writeChildren_append {children : Forest}
    (h : ∀ rest more, children.write true rest ++ more = children.write true (rest ++ more))
    (rest more : List Char) :
    writeChildren children rest ++ more = writeChildren children (rest ++ more) := by
  cases children <;> simp only [writeChildren, List.append_assoc, h, List.cons_append]

/-- The items are written in front of the rest. -/
theorem Forest.write_append (forest : Forest) (first : Bool) (rest more : List Char) :
    forest.write first rest ++ more = forest.write first (rest ++ more) := by
  induction forest generalizing first rest more with
  | nil => rfl
  | token text role tail ih => simp only [Forest.write_token, List.append_assoc, ih]
  | node kind name signature children tail ihChildren ihTail =>
    simp only [Forest.write_node, List.append_assoc, writeHead_append,
      writeChildren_append (ihChildren true), List.cons_append, ihTail]

/-- A node is written in front of the rest. -/
theorem Tree.toJson_append (tree : Tree) (rest : List Char) : tree.toJson ++ rest =
    '{' :: writeHead tree.kind tree.name tree.signature
      (writeChildren tree.children ('}' :: rest)) := by
  rw [Tree.toJson_eq_writeHead, List.cons_append, writeHead_append,
    writeChildren_append (tree.children.write_append true), List.singleton_append]

/-- A node is written as an object around the tree. -/
theorem Item.toJson_node_append (tree : Tree) (rest : List Char) :
    (Item.node tree).toJson ++ rest =
      "\x7b\"node\":".toList ++ (tree.toJson ++ '}' :: rest) := by
  simp [Item.toJson, encodeObject, separate, List.intercalate, encodeText, encodeChar]

/-- **The items of a forest are written one behind the other, with commas between them.** -/
theorem Forest.write_eq (forest : Forest) (first : Bool) (rest : List Char) :
    forest.write first rest =
      (if first then separate forest.texts else behindCommas forest.texts) ++ rest := by
  induction forest generalizing first rest with
  | nil => cases first <;> rfl
  | token text role tail ih =>
    rw [Forest.write_token, ih]
    cases first <;> simp [Forest.texts, Forest.toList, separate_cons, behindCommas]
  | node kind name signature children tail _ ih =>
    -- the node is written into what comes behind it, and is cut off from it here
    have hnode : "\x7b\"node\":\x7b".toList ++ writeHead kind name signature
        (writeChildren children ('}' :: '}' :: tail.write false rest)) =
        (Item.node ⟨kind, name, signature, children⟩).toJson ++ tail.write false rest := by
      rw [Item.toJson_node_append, Tree.toJson_append]
      rfl
    rw [Forest.write_node, hnode, ih]
    cases first <;> simp [Forest.texts, Forest.toList, separate_cons, behindCommas]

/-- The children are written as a member, if there are any. -/
theorem writeChildren_eq (children : Forest) (rest : List Char) :
    writeChildren children rest = behindCommas (children.member.map encodeMember) ++ rest := by
  cases children with
  | nil => rfl
  | token text role tail =>
    show ",\"children\":[".toList ++ (Forest.token text role tail).write true (']' :: rest) = _
    rw [Forest.write_eq]
    simp [Forest.member, behindCommas, encodeMember, encodeList, encodeText, encodeChar]
  | node kind name signature below tail =>
    show ",\"children\":[".toList ++
      (Forest.node kind name signature below tail).write true (']' :: rest) = _
    rw [Forest.write_eq]
    simp [Forest.member, behindCommas, encodeMember, encodeList, encodeText, encodeChar]

/-- **A tree is written as an object of its members.** -/
theorem Tree.toJson_eq (tree : Tree) : tree.toJson = encodeObject tree.members := by
  rw [Tree.toJson_eq_writeHead, encodeObject_eq, Tree.members, List.map_cons, separate_cons]
  simp only [writeHead, writeMember_eq, writeOptional_eq, writeChildren_eq, List.map_append,
    behindCommas, List.flatMap_append, List.append_assoc]

/-- The children take up no more than their parent. -/
theorem Tree.length_texts_le (tree : Tree) :
    (encodeList tree.children.texts).length ≤ tree.toJson.length := by
  rw [Tree.toJson_eq]
  have hmem : tree.children ≠ .nil →
      ("children", encodeList tree.children.texts) ∈ tree.members := by
    intro hne
    refine List.mem_cons_of_mem _ (List.mem_append_right _ (List.mem_append_right _ ?_))
    cases hchildren : tree.children with
    | nil => exact absurd hchildren hne
    | token text role tail => exact List.mem_singleton_self _
    | node kind name signature below tail => exact List.mem_singleton_self _
  -- a tree without children has no member for them, but it is longer than an empty list
  by_cases hnil : tree.children = .nil
  · have hlt := length_lt_length_encodeObject tree.members
    rw [Tree.members, List.length_cons] at hlt
    rw [hnil]
    show 2 ≤ _
    rw [Tree.members]
    omega
  · exact (length_lt_length_encodeObject_of_mem (hmem hnil)).le

/-! ## Reading -/

/-- **A written token is read as itself.** -/
theorem reads_token (text : String) (role : Role) {fuel : Nat} (hfuel : 2 < fuel) :
    Reads (tokenShape.read fuel)
      (encodeObject [("text", encodeText text), ("role", encodeText role.name)])
      (.token text role) := by
  have hrole : Shape.Drafts tokenShape ⟨some text, none⟩ [("role", encodeText role.name)]
      ⟨some text, some role⟩ := by
    refine .cons rfl rfl ?_ (.nil _)
    exact role.reads.map fun role => (⟨some text, some role⟩ : TokenDraft)
  have htext : Shape.Drafts tokenShape tokenShape.blank
      [("text", encodeText text), ("role", encodeText role.name)] ⟨some text, some role⟩ := by
    refine .cons rfl rfl ?_ hrole
    exact (reads_text text).map fun text => (⟨some text, none⟩ : TokenDraft)
  exact Shape.reads_object htext rfl hfuel

section Nodes

variable {readChildren : Reader Forest} {kind : Kind} {name signature : Option String}
  {members : List (String × List Char)} {last : TreeDraft}

/-- The name is read, or the draft has none. -/
theorem drafts_name
    (h : Shape.Drafts (treeShape readChildren) ⟨some kind, name.map some, none, none⟩ members
      last) :
    Shape.Drafts (treeShape readChildren) ⟨some kind, none, none, none⟩
      (optionalMember "name" name ++ members) last := by
  cases name with
  | none => exact h
  | some text =>
    refine .cons rfl rfl ?_ h
    exact (reads_text text).optional.map fun name => (⟨some kind, some name, none, none⟩ : TreeDraft)

/-- The signature is read, or the draft has none. -/
theorem drafts_signature
    (h : Shape.Drafts (treeShape readChildren) ⟨some kind, name.map some, signature.map some, none⟩
      members last) :
    Shape.Drafts (treeShape readChildren) ⟨some kind, name.map some, none, none⟩
      (optionalMember "signature" signature ++ members) last := by
  cases signature with
  | none => exact h
  | some text =>
    refine .cons rfl rfl ?_ h
    exact (reads_text text).optional.map fun signature =>
      (⟨some kind, name.map some, some signature, none⟩ : TreeDraft)

/-- The children are read, or the draft has none. -/
theorem drafts_children (kind : Kind) (name signature : Option String) {children : Forest}
    (h : Reads readChildren (encodeList children.texts) children) :
    ∃ children?, children?.getD .nil = children ∧
      Shape.Drafts (treeShape readChildren) ⟨some kind, name.map some, signature.map some, none⟩
        children.member ⟨some kind, name.map some, signature.map some, children?⟩ := by
  have hread := h.map fun children =>
    (⟨some kind, name.map some, signature.map some, some children⟩ : TreeDraft)
  cases children with
  | nil => exact ⟨none, rfl, .nil _⟩
  | token text role tail => exact ⟨_, rfl, .cons rfl rfl hread (.nil _)⟩
  | node kind name signature below tail => exact ⟨_, rfl, .cons rfl rfl hread (.nil _)⟩

/-- **A written node is read as itself**, if its children are. -/
theorem reads_node (tree : Tree)
    (hchildren : Reads readChildren (encodeList tree.children.texts) tree.children) {fuel : Nat}
    (hfuel : tree.toJson.length ≤ fuel) :
    Reads ((treeShape readChildren).read fuel) tree.toJson tree := by
  obtain ⟨children?, hall, hend⟩ :=
    drafts_children tree.kind tree.name tree.signature hchildren
  have hdrafts : Shape.Drafts (treeShape readChildren) (treeShape readChildren).blank tree.members
      ⟨some tree.kind, tree.name.map some, tree.signature.map some, children?⟩ := by
    refine .cons rfl rfl ?_ (drafts_name (drafts_signature hend))
    exact tree.kind.reads.map fun kind => (⟨some kind, none, none, none⟩ : TreeDraft)
  have hfinish : (treeShape readChildren).finish
      ⟨some tree.kind, tree.name.map some, tree.signature.map some, children?⟩ = .ok tree := by
    -- what has not been written is absent in the tree, too
    obtain ⟨kind, name, signature, children⟩ := tree
    cases name <;> cases signature <;> simp [treeShape, hall]
  rw [Tree.toJson_eq] at hfuel ⊢
  exact Shape.reads_object hdrafts hfinish ((length_lt_length_encodeObject _).trans_le hfuel)

end Nodes

/-- **A written forest is read as itself**, if its nodes are. -/
theorem reads_forest {fuel : Nat} {readTree : Reader Tree} (forest : Forest)
    (hnodes : ∀ tree, Item.node tree ∈ forest.toList → Reads readTree tree.toJson tree)
    (hfuel : (encodeList forest.texts).length ≤ fuel) :
    Reads (readForest fuel readTree) (encodeList forest.texts) forest := by
  have hitem : ∀ item ∈ forest.toList,
      Reads (readChoice (itemAlternatives fuel readTree)) item.toJson item := by
    intro item hitem
    cases item with
    | token text role =>
      have hinner := length_lt_length_encodeObject
        [("text", encodeText text), ("role", encodeText role.name)]
      have houter := length_lt_length_encodeObject_of_mem (List.mem_singleton_self
        ("token", encodeObject [("text", encodeText text), ("role", encodeText role.name)]))
      have hlist := length_lt_length_encodeList_of_mem (List.mem_map_of_mem (f := Item.toJson) hitem)
      have htoken : 2 < fuel := by
        rw [Item.toJson, ← Forest.texts] at hlist
        simp only [List.length_cons, List.length_nil] at hinner
        omega
      exact reads_keyedChoice rfl (reads_token text role htoken)
    | node tree => exact reads_keyedChoice rfl ((hnodes tree hitem).map Item.node)
  have hread := (reads_list_map hitem hfuel).map Forest.ofList
  rw [Forest.ofList_toList] at hread
  exact hread

/-- **A written tree is read as itself**, whatever its depth. -/
theorem reads_tree {fuel depth : Nat} (tree : Tree) (hdepth : tree.toJson.length ≤ depth)
    (hfuel : tree.toJson.length ≤ fuel) : Reads (readTree fuel depth) tree.toJson tree := by
  -- by induction on the depth, since the written form of a child is shorter
  induction depth generalizing tree with
  | zero =>
    rw [Tree.toJson_eq_writeHead, List.length_cons] at hdepth
    omega
  | succ depth ih =>
    have hchildren := tree.length_texts_le
    have hnodes : ∀ child, Item.node child ∈ tree.children.toList →
        Reads (readTree fuel depth) child.toJson child := by
      intro child hchild
      have hitem := length_lt_length_encodeObject_of_mem
        (List.mem_singleton_self ("node", child.toJson))
      have hlist := length_lt_length_encodeList_of_mem
        (List.mem_map_of_mem (f := Item.toJson) hchild)
      rw [Item.toJson, ← Forest.texts] at hlist
      exact ih child (by omega) (by omega)
    exact reads_node tree (reads_forest tree.children hnodes (hchildren.trans hfuel)) hfuel

/-- **Trees survive being written and read**: whatever kinds, names, signatures, tokens and children
there are and however deeply they are nested, the reader takes the written form of a tree for that
tree. -/
theorem Tree.ofJson_toJson (tree : Tree) : Tree.ofJson tree.toJson = .ok tree := by
  have hfuel := length_le_enoughFuel tree.toJson
  exact readWhole_of_reads (reads_tree tree hfuel hfuel)

end CodeGraph
