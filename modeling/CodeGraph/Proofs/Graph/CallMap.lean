/-
# The map of the calls

The view of the calls is a map: the callers stand in strict order, and each of them has, again in
strict order, all that it calls (`Invocations.isMap_toList`).
-/
import Mathlib
import CodeGraph.Graph.Invocations

namespace CodeGraph

namespace Invocations

/-! ## Names in order -/

theorem mem_insertName {name other : String} {names : List String} :
    other ∈ insertName name names ↔ other = name ∨ other ∈ names := by
  induction names with
  | nil => exact List.mem_cons
  | cons first names ih =>
    rw [insertName]
    split
    · next heq =>
      subst heq
      rw [List.mem_cons]
      exact (or_iff_right_of_imp Or.inl).symm
    · split
      · exact List.mem_cons
      · rw [List.mem_cons, ih, List.mem_cons, or_left_comm]

theorem mem_sortNames {name : String} {names : List String} :
    name ∈ sortNames names ↔ name ∈ names := by
  induction names with
  | nil => exact Iff.rfl
  | cons first names ih =>
    show name ∈ insertName first (sortNames names) ↔ _
    rw [mem_insertName, ih, List.mem_cons]

/-- A name is put where it belongs. -/
theorem pairwise_insertName {name : String} {names : List String} (h : names.Pairwise (· < ·)) :
    (insertName name names).Pairwise (· < ·) := by
  induction names with
  | nil => exact List.pairwise_singleton _ name
  | cons first names ih =>
    obtain ⟨hfirst, hnames⟩ := List.pairwise_cons.mp h
    rw [insertName]
    split
    · exact h
    · next hne =>
      split
      · next hlt =>
        refine List.pairwise_cons.mpr ⟨fun other hother => ?_, h⟩
        rcases List.mem_cons.mp hother with rfl | hlater
        · exact hlt
        · exact hlt.trans (hfirst other hlater)
      · next hnot =>
        have hgt : first < name := lt_of_le_of_ne (not_lt.mp hnot) (Ne.symm hne)
        refine List.pairwise_cons.mpr ⟨fun other hother => ?_, ih hnames⟩
        rcases mem_insertName.mp hother with rfl | hlater
        · exact hgt
        · exact hfirst other hlater

/-- Sorted names are in order, each once. -/
theorem pairwise_sortNames (names : List String) : (sortNames names).Pairwise (· < ·) := by
  induction names with
  | nil => exact List.Pairwise.nil
  | cons first names ih => exact pairwise_insertName ih

/-! ## Callers and callees -/

variable {invocations : Invocations} {caller callee : String}

/-- The callees of a caller are those that it has called. -/
theorem mem_calleesOf :
    callee ∈ invocations.calleesOf caller ↔ (caller, callee) ∈ invocations.calls := by
  rw [calleesOf, List.mem_filterMap]
  constructor
  · rintro ⟨⟨c, name⟩, hmem, heq⟩
    change (if c = caller then some name else none) = some callee at heq
    split at heq
    · next hc =>
      rw [← hc, ← Option.some.inj heq]
      exact hmem
    · cases heq
  · intro hmem
    exact ⟨_, hmem, if_pos rfl⟩

/-- The callers are listed in order. -/
theorem map_fst_toList (invocations : Invocations) :
    invocations.toList.map Prod.fst = sortNames invocations.callers := by
  rw [toList, List.map_map]
  exact List.map_id _

/-- Each caller is listed with its callees in order. -/
theorem mem_toList {callees : List String} : (caller, callees) ∈ invocations.toList ↔
    caller ∈ invocations.callers ∧ callees = sortNames (invocations.calleesOf caller) := by
  rw [toList, List.mem_map]
  constructor
  · rintro ⟨other, hother, heq⟩
    cases heq
    exact ⟨mem_sortNames.mp hother, rfl⟩
  · rintro ⟨hcaller, rfl⟩
    exact ⟨caller, mem_sortNames.mpr hcaller, rfl⟩

/-- The list is a map whose keys are the texts that `IsKey` says, each with the set of the texts
that `IsValue` says. -/
structure IsMap (IsKey : String → Prop) (IsValue : String → String → Prop)
    (entries : List (String × List String)) : Prop where
  keys_ordered : (entries.map Prod.fst).Pairwise (· < ·)
  mem_keys_iff : ∀ key, key ∈ entries.map Prod.fst ↔ IsKey key
  values_ordered : ∀ entry ∈ entries, entry.2.Pairwise (· < ·)
  mem_values_iff : ∀ entry ∈ entries, ∀ value, value ∈ entry.2 ↔ IsValue entry.1 value

/-- **The view of the calls is a map of the callers to all that they call.** -/
theorem isMap_toList (invocations : Invocations) :
    IsMap (· ∈ invocations.callers) (fun caller callee => (caller, callee) ∈ invocations.calls)
      invocations.toList where
  keys_ordered := by
    rw [map_fst_toList]
    exact pairwise_sortNames _
  mem_keys_iff key := by
    rw [map_fst_toList, mem_sortNames]
  values_ordered := by
    rintro ⟨caller, callees⟩ hentry
    obtain ⟨-, rfl⟩ := mem_toList.mp hentry
    exact pairwise_sortNames _
  mem_values_iff := by
    rintro ⟨caller, callees⟩ hentry callee
    obtain ⟨-, rfl⟩ := mem_toList.mp hentry
    rw [mem_sortNames, mem_calleesOf]

end Invocations

end CodeGraph
