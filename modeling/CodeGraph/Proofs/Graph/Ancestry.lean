/-
# What lies above a node

The nodes above a node are found by going up from parent to parent.  In a numbered tree they have
smaller numbers, and new nodes at its end change nothing of what lies above the others
(`IsNumbering.contains_append_iff`).
-/
import CodeGraph.Proofs.Build.Place

namespace CodeGraph

/-- One step up. -/
def IsParent (parents : List (Option Nat)) (v p : Nat) : Prop := parents[v]? = some (some p)

/-- The node `a` is `v` or above it. -/
def Contains (parents : List (Option Nat)) (a v : Nat) : Prop :=
  Relation.ReflTransGen (IsParent parents) v a

/-- The node `a` is above `v`. -/
def IsAbove (parents : List (Option Nat)) (a v : Nat) : Prop :=
  Relation.TransGen (IsParent parents) v a

variable {parents : List (Option Nat)} {a v p : Nat}

/-- More nodes at the end leave the steps up as they are. -/
theorem IsParent.append (h : IsParent parents v p) (more : List (Option Nat)) :
    IsParent (parents ++ more) v p := by
  rw [IsParent, List.getElem?_append_left (List.getElem?_eq_some_iff.mp h).1]
  exact h

theorem Contains.append (h : Contains parents a v) (more : List (Option Nat)) :
    Contains (parents ++ more) a v :=
  Relation.ReflTransGen.mono (fun _ _ hstep => IsParent.append hstep more) _ _ h

/-- What is above a node stays above it when nodes are added. -/
theorem IsAbove.append (h : IsAbove parents a v) (more : List (Option Nat)) :
    IsAbove (parents ++ more) a v :=
  Relation.TransGen.mono (fun _ _ hstep => IsParent.append hstep more) _ _ h

/-- What contains the parent is above the child. -/
theorem isAbove_of_contains (hstep : IsParent parents v p) (h : Contains parents a p) :
    IsAbove parents a v :=
  Relation.TransGen.head' hstep h

namespace IsNumbering

/-- What contains a node has no greater number. -/
theorem le_of_contains (htree : IsNumbering parents) (h : Contains parents a v) : a ≤ v := by
  induction h with
  | refl => exact Nat.le_refl v
  | tail _ hstep ih => exact Nat.le_trans (Nat.le_of_lt (htree.lt_of_parent hstep)) ih

/-- New nodes do not come between the old ones. -/
theorem contains_append_iff (htree : IsNumbering parents) (hv : v < parents.length)
    (more : List (Option Nat)) : Contains (parents ++ more) a v ↔ Contains parents a v := by
  refine ⟨fun h => ?_, fun h => h.append more⟩
  induction h with
  | refl => exact .refl
  | @tail u p _ hstep ih =>
    -- the way has come to an old node so far, so its next step is an old one
    have hu : u < parents.length := Nat.lt_of_le_of_lt (htree.le_of_contains ih) hv
    rw [IsParent, List.getElem?_append_left hu] at hstep
    exact ih.tail hstep

end IsNumbering

/-- The open nodes contain the innermost of them. -/
theorem Ascends.contains {path : List Nat} (h : Ascends parents path) (ha : a ∈ path) :
    Contains parents a (path.head?.getD 0) := by
  induction path with
  | nil => cases ha
  | cons u path ih =>
    rcases List.mem_cons.mp ha with rfl | ha
    · exact .refl
    · exact .head h.1 (ih h.2 ha)

end CodeGraph
