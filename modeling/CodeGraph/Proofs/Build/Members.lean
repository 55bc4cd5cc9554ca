/-
# Members of the class

The class is the first type that a traversal of compilation units comes to, and its members are the
methods behind its beginning that have only compilation units and the class above them.  The outline
of a tree finds just these, in document order (`Tree.exists_members`).
-/
import CodeGraph.Proofs.Build.Levels
import CodeGraph.Proofs.Build.Outline

namespace CodeGraph

/-- A type that can be the class. -/
def Kind.isClass (kind : Kind) : Bool := kind = .typeDeclaration ∨ kind = .enumDeclaration

/-- What is entered outside of the class. -/
def Kind.isUnit (kind : Kind) : Bool := kind = .compilationUnit

theorem Kind.isClass_iff {kind : Kind} :
    kind.isClass = true ↔ kind = .typeDeclaration ∨ kind = .enumDeclaration :=
  decide_eq_true_iff

theorem Kind.isUnit_iff {kind : Kind} : kind.isUnit = true ↔ kind = .compilationUnit :=
  decide_eq_true_iff

/-- The methods among some findings. -/
def Finding.methods (findings : List Finding) : List Tree :=
  findings.filterMap fun
    | .method declaration => some declaration
    | _ => none

theorem Finding.methods_append (before after : List Finding) :
    methods (before ++ after) = methods before ++ methods after :=
  List.filterMap_append

/-- Each method that is found is built with those nested in it. -/
theorem Finding.declarations_eq (findings : List Finding) :
    declarations findings = (methods findings).flatMap Tree.methods := by
  induction findings with
  | nil => rfl
  | cons finding findings ih =>
    cases finding with
    | method declaration => exact congrArg (declaration.methods ++ ·) ih
    | beginClass name? => exact ih
    | passOver kind name? => exact ih
    | looseMethod => exact ih

namespace Forest

/-! ## What an outline meets -/

/-- In the class, an outline finds the methods that are met through compilation units. -/
theorem methods_outline_true (forest : Forest) (k : Nat) :
    Finding.methods (forest.outline true).1 =
      (forest.met Kind.isMethod Kind.isUnit k).map Prod.snd := by
  induction forest generalizing k with
  | nil => rfl
  | token text role rest ih => exact ih (k + 1)
  | node kind name signature children rest ihChildren ihRest =>
    obtain ⟨here, after, hhere, heq⟩ := outline_node true kind name signature children rest
    have hnode : after = true ∧ Finding.methods here =
        (Tree.met Kind.isMethod Kind.isUnit { kind, name, signature, children }).map Prod.snd := by
      rw [Tree.met]
      cases hhere with
      | unit hkind =>
        subst hkind
        exact ⟨children.outline_true.1, ihChildren 0⟩
      | beginClass _ hbegun => cases hbegun
      | looseMethod _ hbegun => cases hbegun
      | passOver hkind =>
        rcases Kind.isTypeDeclaration_iff.mp hkind with rfl | rfl | rfl <;> exact ⟨rfl, rfl⟩
      | method hkind =>
        subst hkind
        exact ⟨rfl, rfl⟩
      | nothing hunit _ hmethod =>
        dsimp only
        rw [if_neg (mt Kind.isMethod_iff.mp hmethod), if_neg (mt Kind.isUnit_iff.mp hunit)]
        exact ⟨rfl, rfl⟩
    obtain ⟨rfl, hmethods⟩ := hnode
    rw [heq, met_node, Finding.methods_append, hmethods, ihRest (k + 1), List.map_append,
      List.map_map]
    rfl

/-- The methods that belong to the first of some types: those in it, and the members behind it. -/
def FirstOwns (classes members : List (List Nat × Tree)) (methods : List Tree) : Prop :=
  ∃ c body others, classes = (c, body) :: others ∧
    methods = (body.children.met Kind.isMethod Kind.isUnit 0).map Prod.snd ++
      (members.filter fun member => c < member.1).map Prod.snd

/-- Either there is no class and no method of one, or the methods are those of the first class. -/
def Owns (begun : Bool) (classes members : List (List Nat × Tree)) (methods : List Tree) : Prop :=
  begun = false ∧ classes = [] ∧ methods = [] ∨ begun = true ∧ FirstOwns classes members methods

/-- An address below a place among the items. -/
def shift (k : Nat) (places : List (List Nat × Tree)) : List (List Nat × Tree) :=
  places.map fun (address, tree) => (k :: address, tree)

/-- What comes behind a class is found below each child alike. -/
theorem filter_shift (k : Nat) (c : List Nat) (places : List (List Nat × Tree)) :
    (shift k places).filter (fun place => k :: c < place.1) =
      shift k (places.filter fun place => c < place.1) := by
  rw [shift, shift, List.filter_map]
  congr 2
  funext place
  refine decide_eq_decide.mpr ?_
  exact append_lt_append_left_iff [k]

/-- The members of a class are found below each child alike. -/
theorem Owns.shift {begun : Bool} {classes members : List (List Nat × Tree)} {methods : List Tree}
    (h : Owns begun classes members methods) (k : Nat) :
    Owns begun (shift k classes) (shift k members) methods := by
  rcases h with ⟨rfl, rfl, rfl⟩ | ⟨rfl, c, body, others, rfl, rfl⟩
  · exact Or.inl ⟨rfl, rfl, rfl⟩
  · refine Or.inr ⟨rfl, k :: c, body, Forest.shift k others, rfl, ?_⟩
    rw [filter_shift, Forest.shift, List.map_map]
    rfl

/-- Items behind a place come later. -/
theorem lt_of_mem_met_succ {wanted enters : Kind → Bool} {forest : Forest} {k : Nat}
    {address below : List Nat} {found : Tree}
    (h : (address, found) ∈ forest.met wanted enters (k + 1)) : k :: below < address := by
  obtain ⟨j, beyond, child, rfl, -, -⟩ := mem_met.mp h
  exact List.cons_lt_cons_iff.mpr (Or.inl (by omega))

/-- Members in front of every class are not the class's. -/
theorem Owns.append_before {begun : Bool} {classes members before : List (List Nat × Tree)}
    {methods : List Tree} (h : Owns begun classes members methods)
    (hbefore : ∀ c ∈ classes, ∀ member ∈ before, ¬ c.1 < member.1) :
    Owns begun classes (before ++ members) methods := by
  rcases h with hnone | ⟨hbegun, c, body, others, rfl, rfl⟩
  · exact Or.inl hnone
  · have hdropped : before.filter (fun member => c < member.1) = [] := by
      refine List.filter_eq_nil_iff.mpr fun member hmember => ?_
      rw [decide_eq_true_eq]
      exact hbefore (c, body) List.mem_cons_self member hmember
    refine Or.inr ⟨hbegun, c, body, others, rfl, ?_⟩
    rw [List.filter_append, hdropped, List.nil_append]

/-- Members behind every class are those of the first one. -/
theorem FirstOwns.append {classes members after : List (List Nat × Tree)} {methods : List Tree}
    (h : FirstOwns classes members methods) (others : List (List Nat × Tree))
    (hafter : ∀ c ∈ classes, ∀ member ∈ after, c.1 < member.1) :
    FirstOwns (classes ++ others) (members ++ after) (methods ++ after.map Prod.snd) := by
  obtain ⟨c, body, more, rfl, rfl⟩ := h
  have hkept : after.filter (fun member => c < member.1) = after := by
    refine List.filter_eq_self.mpr fun member hmember => ?_
    exact decide_eq_true (hafter (c, body) List.mem_cons_self member hmember)
  refine ⟨c, body, more ++ others, rfl, ?_⟩
  rw [List.filter_append, hkept, List.map_append, List.append_assoc]

/-- What one node adds belongs to the first class in it, if there is none before. -/
theorem Finds.owns {kind : Kind} {name signature : Option String} {children : Forest}
    {here : List Finding} {after : Bool} (h : Finds false kind name signature children here after)
    (hchildren : Owns (children.outline false).2 (children.met Kind.isClass Kind.isUnit 0)
      (children.met Kind.isMethod Kind.isUnit 0)
      (Finding.methods (children.outline false).1)) :
    Owns after (Tree.met Kind.isClass Kind.isUnit { kind, name, signature, children })
      (Tree.met Kind.isMethod Kind.isUnit { kind, name, signature, children })
      (Finding.methods here) := by
  rw [Tree.met, Tree.met]
  cases h with
  | unit hkind =>
    subst hkind
    exact hchildren
  | beginClass hkind =>
    have hmembers : (if kind.isMethod = true then
        [(([] : List Nat), ({ kind, name, signature, children } : Tree))]
        else if kind.isUnit = true then children.met Kind.isMethod Kind.isUnit 0 else []) = [] := by
      rcases hkind with rfl | rfl <;> rfl
    refine Or.inr ⟨children.outline_true.1, [], { kind, name, signature, children }, [], ?_, ?_⟩
    · rw [if_pos (Kind.isClass_iff.mpr hkind)]
    · rw [hmembers, List.filter_nil, List.map_nil, List.append_nil]
      exact children.methods_outline_true 0
  | method _ hbegun => cases hbegun
  | looseMethod hkind =>
    subst hkind
    exact Or.inl ⟨rfl, rfl, rfl⟩
  | passOver hkind hbegun =>
    -- of the types only an anonymous class does not begin the class
    rcases Kind.isTypeDeclaration_iff.mp hkind with rfl | rfl | rfl
    · cases hbegun (Or.inl rfl)
    · cases hbegun (Or.inr rfl)
    · exact Or.inl ⟨rfl, rfl, rfl⟩
  | nothing hunit htype hmethod =>
    have hclass : ¬ kind.isClass = true := by
      intro hclass
      rcases Kind.isClass_iff.mp hclass with rfl | rfl <;> cases htype
    refine Or.inl ⟨rfl, ?_, rfl⟩
    rw [if_neg hclass, if_neg (mt Kind.isUnit_iff.mp hunit)]

/-- **The first type is the class.** -/
theorem methods_outline_false (forest : Forest) (k : Nat) :
    Owns (forest.outline false).2 (forest.met Kind.isClass Kind.isUnit k)
      (forest.met Kind.isMethod Kind.isUnit k) (Finding.methods (forest.outline false).1) := by
  induction forest generalizing k with
  | nil => exact Or.inl ⟨rfl, rfl, rfl⟩
  | token text role rest ih => exact ih (k + 1)
  | node kind name signature children rest ihChildren ihRest =>
    obtain ⟨here, after, hhere, heq⟩ := outline_node false kind name signature children rest
    rw [heq, met_node, met_node, Finding.methods_append]
    change Owns _ (Forest.shift k _ ++ _) (Forest.shift k _ ++ _) _
    rcases (hhere.owns (ihChildren 0)).shift k with ⟨rfl, hclasses, hmethods⟩ | ⟨rfl, hfirst⟩
    · -- no class yet: the members in this node come before the class, if there is one behind it
      rw [hclasses, hmethods, List.nil_append, List.nil_append]
      refine (ihRest (k + 1)).append_before fun c hc member hmember => ?_
      obtain ⟨⟨address, tree⟩, -, rfl⟩ := List.mem_map.mp hmember
      exact lt_asymm (lt_of_mem_met_succ hc)
    · -- the class is in this node: all members behind the node come after it
      rw [rest.methods_outline_true (k + 1)]
      refine Or.inr ⟨rest.outline_true.1, hfirst.append _ fun c hc member hmember => ?_⟩
      obtain ⟨⟨address, tree⟩, -, rfl⟩ := List.mem_map.mp hc
      exact lt_of_mem_met_succ hmember

end Forest

/-! ## The class and its members by address -/

namespace Tree

/-- A type or enumeration at an address that has only compilation units above it. -/
structure ReachesClass (tree : Tree) (c : List Nat) : Prop where
  kind : tree.kindAt? c = some .typeDeclaration ∨ tree.kindAt? c = some .enumDeclaration
  above : ∀ e, e <+: c → e ≠ c → tree.kindAt? e = some .compilationUnit

/-- The first of these in document order: the class. -/
structure IsClassAt (tree : Tree) (c : List Nat) : Prop extends tree.ReachesClass c where
  first : ∀ other, tree.ReachesClass other → other = c ∨ c < other

/-- A method behind the beginning of the class, with only compilation units and the class above
it. -/
structure IsMemberAt (tree : Tree) (c d : List Nat) : Prop where
  kind : tree.kindAt? d = some .methodDeclaration
  behind : c < d
  above : ∀ e, e <+: d → e ≠ d → e = c ∨ tree.kindAt? e = some .compilationUnit

variable {tree : Tree}

/-- The kind at an address is that of the node there. -/
theorem kindAt?_eq_some {address : List Nat} {kind : Kind} :
    tree.kindAt? address = some kind ↔
      ∃ node, tree.at? address = some node ∧ node.kind = kind :=
  Option.map_eq_some_iff

/-- There is a node everywhere on the way to a node. -/
theorem exists_at?_of_isPrefix {address e : List Nat} {node : Tree}
    (h : tree.at? address = some node) (he : e <+: address) : ∃ s, tree.at? e = some s := by
  obtain ⟨below, rfl⟩ := he
  rw [at?_append] at h
  obtain ⟨s, hs, -⟩ := Option.bind_eq_some_iff.mp h
  exact ⟨s, hs⟩

/-- What is entered on the way to a node is a compilation unit. -/
theorem kindAt?_eq_unit_iff {wanted : Kind → Bool} (hwanted : wanted .compilationUnit = false)
    {address e : List Nat} {node : Tree} (h : tree.at? address = some node) (he : e <+: address) :
    tree.kindAt? e = some .compilationUnit ↔
      ∀ s, tree.at? e = some s → wanted s.kind = false ∧ s.kind.isUnit = true := by
  rw [kindAt?_eq_some]
  constructor
  · rintro ⟨s, hs, hkind⟩ s' hs'
    obtain rfl := Option.some.inj (hs'.symm.trans hs)
    rw [hkind]
    exact ⟨hwanted, rfl⟩
  · intro henters
    obtain ⟨s, hs⟩ := exists_at?_of_isPrefix h he
    exact ⟨s, hs, Kind.isUnit_iff.mp (henters s hs).2⟩

theorem reachesClass_iff {c : List Nat} : tree.ReachesClass c ↔
    ∃ body, tree.Meets Kind.isClass Kind.isUnit c body := by
  constructor
  · rintro ⟨hkind, habove⟩
    obtain ⟨body, hbody, hclass⟩ : ∃ body, tree.at? c = some body ∧ body.kind.isClass = true := by
      rcases hkind with hkind | hkind
      · obtain ⟨body, hbody, hkind⟩ := kindAt?_eq_some.mp hkind
        exact ⟨body, hbody, Kind.isClass_iff.mpr (Or.inl hkind)⟩
      · obtain ⟨body, hbody, hkind⟩ := kindAt?_eq_some.mp hkind
        exact ⟨body, hbody, Kind.isClass_iff.mpr (Or.inr hkind)⟩
    refine ⟨body, hbody, hclass, fun e he hne => ?_⟩
    exact (kindAt?_eq_unit_iff rfl hbody he).mp (habove e he hne)
  · rintro ⟨body, hfound, hclass, habove⟩
    refine ⟨?_, fun e he hne => (kindAt?_eq_unit_iff rfl hfound he).mpr (habove e he hne)⟩
    rw [kindAt?, hfound, Option.map_some, Option.some.injEq, Option.some.injEq]
    exact Kind.isClass_iff.mp hclass

/-- The methods of a class at an address, and the methods behind it. -/
def membersFrom (tree : Tree) (c : List Nat) (body : Tree) : List (List Nat × Tree) :=
  (body.children.met Kind.isMethod Kind.isUnit 0).map (fun (below, method) =>
    (c ++ below, method)) ++
    (tree.met Kind.isMethod Kind.isUnit).filter fun member => c < member.1

variable {c : List Nat} {body : Tree}

/-- Behind a class comes no compilation unit that contains it. -/
theorem ReachesClass.kindAt?_ne (h : tree.ReachesClass c) :
    tree.kindAt? c ≠ some .compilationUnit := by
  rcases h.kind with hkind | hkind
  · rw [hkind]
    decide
  · rw [hkind]
    decide

/-- What is met outside of the class is not below it, since the class is not entered. -/
theorem ReachesClass.not_isPrefix (h : tree.ReachesClass c) (hbody : tree.at? c = some body)
    {d : List Nat} {method : Tree} (hmeets : tree.Meets Kind.isMethod Kind.isUnit d method)
    (hbehind : c < d) : ¬ c <+: d := by
  intro hway
  have hunit := (hmeets.above c hway (ne_of_lt hbehind) body hbody).2
  exact h.kindAt?_ne (kindAt?_eq_some.mpr ⟨body, hbody, Kind.isUnit_iff.mp hunit⟩)

theorem IsMemberAt.isMethod {d : List Nat} {method : Tree} (h : tree.IsMemberAt c d)
    (hmethod : tree.at? d = some method) : method.kind.isMethod = true := by
  obtain ⟨other, hother, hkind⟩ := kindAt?_eq_some.mp h.kind
  obtain rfl := Option.some.inj (hmethod.symm.trans hother)
  exact Kind.isMethod_iff.mpr hkind

/-- The members outside of the class are the methods met behind it. -/
theorem meets_iff_isMemberAt (hclass : tree.ReachesClass c) (hbody : tree.at? c = some body)
    {d : List Nat} {method : Tree} :
    tree.Meets Kind.isMethod Kind.isUnit d method ∧ c < d ↔
      tree.at? d = some method ∧ tree.IsMemberAt c d ∧ ¬ c <+: d := by
  constructor
  · rintro ⟨hmeets, hbehind⟩
    have hkind := Kind.isMethod_iff.mp hmeets.wanted_eq
    refine ⟨hmeets.found, ⟨kindAt?_eq_some.mpr ⟨method, hmeets.found, hkind⟩, hbehind,
      fun e he hne => Or.inr ?_⟩, hclass.not_isPrefix hbody hmeets hbehind⟩
    exact (kindAt?_eq_unit_iff rfl hmeets.found he).mpr (hmeets.above e he hne)
  · rintro ⟨hfound, hmember, hapart⟩
    refine ⟨⟨hfound, hmember.isMethod hfound, fun e he hne => ?_⟩, hmember.behind⟩
    refine (kindAt?_eq_unit_iff rfl hfound he).mp ?_
    exact (hmember.above e he hne).resolve_left fun hec => hapart (hec ▸ he)

/-- The members in the class are the methods met below it. -/
theorem meetsBelow_iff_isMemberAt (hclass : tree.ReachesClass c) (hbody : tree.at? c = some body)
    {below : List Nat} {method : Tree} :
    body.MeetsBelow Kind.isMethod Kind.isUnit below method ↔
      tree.at? (c ++ below) = some method ∧ tree.IsMemberAt c (c ++ below) := by
  have hat : ∀ e, tree.at? (c ++ e) = body.at? e := by
    intro e
    rw [at?_append, hbody, Option.bind_some]
  have hkindAt : ∀ e, tree.kindAt? (c ++ e) = body.kindAt? e := by
    intro e
    rw [kindAt?, hat, kindAt?]
  constructor
  · intro hmeets
    have hkind := Kind.isMethod_iff.mp hmeets.wanted_eq
    refine ⟨(hat below).trans hmeets.found,
      (hkindAt below).trans (kindAt?_eq_some.mpr ⟨method, hmeets.found, hkind⟩),
      lt_append_of_ne_nil c hmeets.ne_nil, fun e he hne => ?_⟩
    -- above the member is the class, something above the class or something between the two
    rcases prefix_append_cases he with hbefore | ⟨e, rfl, hway⟩
    · by_cases heq : e = c
      · exact Or.inl heq
      · exact Or.inr (hclass.above e hbefore heq)
    · by_cases hnil : e = []
      · subst hnil
        exact Or.inl (List.append_nil c)
      · have hunit := hmeets.between e hway hnil fun heq => hne (congrArg _ heq)
        exact Or.inr ((hkindAt e).trans ((kindAt?_eq_unit_iff rfl hmeets.found hway).mpr hunit))
  · rintro ⟨hfound, hmember⟩
    have hinner : body.at? below = some method := (hat below).symm.trans hfound
    refine ⟨?_, hinner, hmember.isMethod hfound, fun e he hnil hne => ?_⟩
    · rintro rfl
      rw [List.append_nil] at hmember
      exact lt_irrefl c hmember.behind
    · refine (kindAt?_eq_unit_iff rfl hinner he).mp ?_
      rw [← hkindAt]
      refine (hmember.above (c ++ e) ((List.prefix_append_right_inj c).mpr he) fun heq =>
        hne (List.append_cancel_left heq)).resolve_left fun heq => hnil ?_
      exact List.append_right_eq_self.mp heq

/-- The members are listed with their addresses. -/
theorem mem_membersFrom (hclass : tree.ReachesClass c) (hbody : tree.at? c = some body)
    {d : List Nat} {method : Tree} :
    (d, method) ∈ tree.membersFrom c body ↔ tree.at? d = some method ∧ tree.IsMemberAt c d := by
  rw [membersFrom, List.mem_append, List.mem_map, List.mem_filter, decide_eq_true_eq, mem_met,
    meets_iff_isMemberAt hclass hbody]
  constructor
  · rintro (⟨⟨below, inner⟩, hmem, heq⟩ | ⟨hfound, hmember, -⟩)
    · cases heq
      exact (meetsBelow_iff_isMemberAt hclass hbody).mp (mem_children_met.mp hmem)
    · exact ⟨hfound, hmember⟩
  · rintro ⟨hfound, hmember⟩
    by_cases hinside : c <+: d
    · obtain ⟨below, rfl⟩ := hinside
      have hmeets := (meetsBelow_iff_isMemberAt hclass hbody).mpr ⟨hfound, hmember⟩
      exact Or.inl ⟨(below, method), mem_children_met.mpr hmeets, rfl⟩
    · exact Or.inr ⟨hfound, hmember, hinside⟩

/-- A member does not contain another one. -/
theorem IsMemberAt.eq_of_isPrefix {d e : List Nat} (hd : tree.IsMemberAt c d)
    (he : tree.IsMemberAt c e) (hway : d <+: e) : d = e := by
  by_contra hne
  rcases he.above d hway hne with rfl | hunit
  · exact lt_irrefl d hd.behind
  · rw [hd.kind] at hunit
    cases hunit

theorem pairwise_membersFrom (hclass : tree.ReachesClass c) (hbody : tree.at? c = some body) :
    ((tree.membersFrom c body).map Prod.fst).Pairwise (· < ·) := by
  rw [membersFrom, List.map_append, List.map_map, List.pairwise_append]
  refine ⟨?_, ?_, fun a ha b hb => ?_⟩
  · have hinside : ((body.children.met Kind.isMethod Kind.isUnit 0).map Prod.fst).Pairwise
        (· < ·) := body.children.pairwise_met 0
    rw [List.pairwise_map] at hinside ⊢
    exact hinside.imp fun hlt => (append_lt_append_left_iff c).mpr hlt
  · have hmet : ((tree.met Kind.isMethod Kind.isUnit).map Prod.fst).Pairwise (· < ·) :=
      tree.pairwise_met
    rw [List.pairwise_map] at hmet ⊢
    exact hmet.filter _
  · obtain ⟨⟨below, inner⟩, -, rfl⟩ := List.mem_map.mp ha
    obtain ⟨⟨address, method⟩, hmem, rfl⟩ := List.mem_map.mp hb
    rw [List.mem_filter, decide_eq_true_eq, mem_met] at hmem
    have hapart : ¬ c <+: address := hclass.not_isPrefix hbody hmem.1 hmem.2
    have hlt := append_lt_append_of_lt hmem.2 hapart below []
    rw [List.append_nil] at hlt
    exact hlt

/-- The first type that is met is the class. -/
theorem isClassAt_of_met {others : List (List Nat × Tree)}
    (h : tree.met Kind.isClass Kind.isUnit = (c, body) :: others) : tree.IsClassAt c where
  toReachesClass := reachesClass_iff.mpr ⟨body, mem_met.mp (h ▸ List.mem_cons_self)⟩
  first := by
    intro other hother
    obtain ⟨found, hmeets⟩ := reachesClass_iff.mp hother
    have hmem := mem_met.mpr hmeets
    have hsorted : ((tree.met Kind.isClass Kind.isUnit).map Prod.fst).Pairwise (· < ·) :=
      tree.pairwise_met
    rw [h] at hmem hsorted
    rcases List.mem_cons.mp hmem with heq | hmem
    · exact Or.inl (congrArg Prod.fst heq)
    · exact Or.inr (List.rel_of_pairwise_cons hsorted (List.mem_map_of_mem hmem))

/-- What is met in a tree is met in the forest with this tree. -/
theorem met_toForest (wanted enters : Kind → Bool) (tree : Tree) :
    tree.toForest.met wanted enters 0 = Forest.shift 0 (tree.met wanted enters) := by
  rw [toForest, Forest.met_node, Forest.met, List.append_nil]
  rfl

/-- **The outline of a tree finds the members of its class.** -/
theorem exists_members (hbegun : (tree.toForest.outline false).2 = true) :
    ∃ c body, tree.IsClassAt c ∧ tree.at? c = some body ∧
      Finding.methods (tree.toForest.outline false).1 =
        (tree.membersFrom c body).map Prod.snd := by
  rcases tree.toForest.methods_outline_false 0 with ⟨hnone, -⟩ | ⟨-, c, body, others, hclasses, heq⟩
  · rw [hbegun] at hnone
    cases hnone
  · rw [met_toForest] at hclasses heq
    rcases hmet : tree.met Kind.isClass Kind.isUnit with _ | ⟨⟨c', body'⟩, others'⟩
    · rw [hmet] at hclasses
      cases hclasses
    · rw [hmet] at hclasses
      cases hclasses
      have hclass := isClassAt_of_met hmet
      have hbody : tree.at? c' = some body := (mem_met.mp (hmet ▸ List.mem_cons_self)).found
      refine ⟨c', body, hclass, hbody, ?_⟩
      rw [heq, Forest.filter_shift, membersFrom, List.map_append, List.map_map, Forest.shift,
        List.map_map]
      rfl

end Tree

end CodeGraph
