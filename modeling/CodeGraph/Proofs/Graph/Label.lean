/-
# Reading labels

The label of a node is the name of its kind, and behind a colon the signature that it calls.  No
name of a kind has a colon in it, so whatever the signature is, a label can be read in one way
only (`NonTerminal.label_inj`).
-/
import CodeGraph.Graph.Basic

namespace CodeGraph

/-- A list falls apart in one way into items of one sort and a rest that begins with another. -/
theorem append_inj_of_head? {α : Type} {p : α → Prop} {xs ys xs' ys' : List α}
    (hxs : ∀ a ∈ xs, ¬ p a) (hys : ∀ a, ys.head? = some a → p a) (hxs' : ∀ a ∈ xs', ¬ p a)
    (hys' : ∀ a, ys'.head? = some a → p a) (h : xs ++ ys = xs' ++ ys') : xs = xs' ∧ ys = ys' := by
  induction xs generalizing xs' with
  | nil =>
    cases xs' with
    | nil => exact ⟨rfl, h⟩
    | cons b xs' =>
      have hb : ys.head? = some b := by
        rw [← List.nil_append ys, h]
        rfl
      exact absurd (hys b hb) (hxs' b List.mem_cons_self)
  | cons a xs ih =>
    cases xs' with
    | nil =>
      have ha : ys'.head? = some a := by
        rw [← List.nil_append ys', ← h]
        rfl
      exact absurd (hys' a ha) (hxs a List.mem_cons_self)
    | cons b xs' =>
      obtain ⟨rfl, htail⟩ := List.cons.inj h
      obtain ⟨rfl, rfl⟩ := ih (fun c hc => hxs c (List.mem_cons_of_mem a hc))
        (fun c hc => hxs' c (List.mem_cons_of_mem a hc)) htail
      exact ⟨rfl, rfl⟩

namespace Kind

theorem mem_all (kind : Kind) : kind ∈ all := by
  cases kind <;> decide

/-- Names find their kinds. -/
theorem ofName?_name (kind : Kind) : ofName? kind.name = some kind :=
  have hall : ∀ kind ∈ all, ofName? kind.name = some kind := by decide +kernel
  hall kind kind.mem_all

theorem name_inj {kind other : Kind} (h : kind.name = other.name) : kind = other := by
  have hfound := ofName?_name kind
  rw [h, ofName?_name] at hfound
  exact (Option.some.inj hfound).symm

theorem name_ne_empty (kind : Kind) : kind.name ≠ "" :=
  have hall : ∀ kind ∈ all, kind.name ≠ "" := by decide +kernel
  hall kind kind.mem_all

/-- Names are made of letters. -/
theorem isAlpha_of_mem_name {kind : Kind} {c : Char} (h : c ∈ kind.name.toList) :
    c.isAlpha = true :=
  have hall : ∀ kind ∈ all, kind.name.toList.all Char.isAlpha = true := by decide +kernel
  List.all_eq_true.mp (hall kind kind.mem_all) c h

/-- There is no colon in the name of a kind. -/
theorem colon_not_mem_name (kind : Kind) : ':' ∉ kind.name.toList :=
  fun h => absurd (isAlpha_of_mem_name h) (by decide)

end Kind

namespace NonTerminal

/-- What comes behind the name of the kind in a label. -/
def labelTail : Option String → List Char
  | some callee => ':' :: callee.toList
  | none => []

/-- A label is the name of a kind and what follows it for a callee. -/
theorem toList_label (node : NonTerminal) :
    node.label.toList = node.kind.name.toList ++ labelTail node.callee := by
  rw [label]
  split
  · next callee hcallee =>
    rw [String.toList_append, String.toList_append, hcallee, List.append_assoc]
    rfl
  · next hcallee =>
    rw [hcallee]
    exact (List.append_nil _).symm

/-- The callee is read off what follows the kind. -/
theorem labelTail_inj {callee other : Option String} (h : labelTail callee = labelTail other) :
    callee = other := by
  cases callee with
  | none =>
    cases other with
    | none => rfl
    | some name => cases h
  | some name =>
    cases other with
    | none => cases h
    | some name' => rw [String.toList_inj.mp (List.cons.inj h).2]

/-- **A label tells the kind of the node and what it calls.** -/
theorem label_inj {node other : NonTerminal} (h : node.label = other.label) :
    node.kind = other.kind ∧ node.callee = other.callee := by
  have hname : ∀ kind : Kind, ∀ a ∈ kind.name.toList, a ≠ ':' := by
    rintro kind a ha rfl
    exact kind.colon_not_mem_name ha
  have htail : ∀ (callee : Option String) (a : Char), (labelTail callee).head? = some a →
      a = ':' := by
    intro callee a ha
    cases callee with
    | none => cases ha
    | some callee => exact (Option.some.inj ha).symm
  have hlist := congrArg String.toList h
  rw [toList_label, toList_label] at hlist
  obtain ⟨hkind, hcallee⟩ := append_inj_of_head? (hname node.kind) (htail node.callee)
    (hname other.kind) (htail other.callee) hlist
  exact ⟨Kind.name_inj (String.toList_inj.mp hkind), labelTail_inj hcallee⟩

end NonTerminal

end CodeGraph
