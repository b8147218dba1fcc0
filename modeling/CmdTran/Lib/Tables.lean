import Std.Data.TreeMap.Lemmas
import Mathlib.Algebra.BigOperators.Group.Finset.Basic
import Mathlib.Algebra.GroupWithZero.Nat
import Mathlib.Data.List.Nodup

/-!
# Sums over a table

A number for each entry of a table, added up. When the table changes at one key, the sum changes by what the
entries there make out.
-/

universe u

namespace Table

open Std (TreeMap)

variable {α : Type u} (f : α → Nat)

/-- The sum over all entries. -/
def total (t : TreeMap Nat α) : Nat := (t.toList.map fun e => f e.2).sum

/-- What is at one key. -/
def valueAt (t : TreeMap Nat α) (k : Nat) : Nat := (t[k]?.map f).getD 0

/-- The sum over the entries at other keys. -/
def totalOff (t : TreeMap Nat α) (k : Nat) : Nat :=
  ((t.toList.filter (·.1 ≠ k)).map fun e => f e.2).sum

theorem nodup_toList (t : TreeMap Nat α) : t.toList.Nodup := by
  apply List.Nodup.of_map Prod.fst
  rw [TreeMap.map_fst_toList_eq_keys]
  exact TreeMap.nodup_keys

@[simp] theorem total_empty : total f ∅ = 0 := rfl

theorem valueAt_of_none {t : TreeMap Nat α} {k : Nat} (h : t[k]? = none) : valueAt f t k = 0 := by
  rw [valueAt, h]
  rfl

theorem valueAt_of_some {t : TreeMap Nat α} {k : Nat} {v : α} (h : t[k]? = some v) :
    valueAt f t k = f v := by
  rw [valueAt, h]
  rfl

/-- The entries at one key are one at most. -/
theorem perm_filter_key (t : TreeMap Nat α) (k : Nat) :
    (t.toList.filter (·.1 = k)).Perm (t[k]?.map fun v => (k, v)).toList := by
  apply (List.perm_ext_iff_of_nodup ((nodup_toList t).filter _) ?_).mpr
  · rintro ⟨k', v⟩
    rw [List.mem_filter, TreeMap.mem_toList_iff_getElem?_eq_some, decide_eq_true_eq, Option.mem_toList,
      Option.map_eq_some_iff]
    constructor
    · rintro ⟨hv, rfl⟩
      exact ⟨v, hv, rfl⟩
    · rintro ⟨v', hv, heq⟩
      cases heq
      exact ⟨hv, rfl⟩
  · cases t[k]? with
    | none => exact List.nodup_nil
    | some v => exact List.nodup_singleton _

theorem total_eq (t : TreeMap Nat α) (k : Nat) : total f t = valueAt f t k + totalOff f t k := by
  have hsplit := List.filter_append_perm (fun e : Nat × α => e.1 = k) t.toList
  have hsum := (hsplit.map fun e => f e.2).sum_eq
  have hkey := ((perm_filter_key t k).map fun e => f e.2).sum_eq
  rw [List.map_append, List.sum_append, hkey] at hsum
  rw [total, ← hsum, totalOff, valueAt]
  congr 1
  · cases t[k]? with
    | none => rfl
    | some v => exact List.sum_singleton
  · simp only [decide_not]

theorem totalOff_congr {t t' : TreeMap Nat α} {k : Nat} (h : ∀ k', k' ≠ k → t'[k']? = t[k']?) :
    totalOff f t' k = totalOff f t k := by
  refine (List.Perm.map _ ?_).sum_eq
  apply (List.perm_ext_iff_of_nodup ((nodup_toList t').filter _) ((nodup_toList t).filter _)).mpr
  rintro ⟨k', v⟩
  simp only [List.mem_filter, TreeMap.mem_toList_iff_getElem?_eq_some, decide_eq_true_eq]
  constructor
  · rintro ⟨hv, hk⟩
    exact ⟨(h k' hk) ▸ hv, hk⟩
  · rintro ⟨hv, hk⟩
    exact ⟨(h k' hk).symm ▸ hv, hk⟩

/-- Tables that agree but for one key. -/
theorem total_congr {t t' : TreeMap Nat α} {k : Nat} (h : ∀ k', k' ≠ k → t'[k']? = t[k']?) :
    total f t' + valueAt f t k = total f t + valueAt f t' k := by
  rw [total_eq f t k, total_eq f t' k, totalOff_congr f h]
  omega

/-! ## A table of finitely many rows -/

variable {ι : Type u} [DecidableEq ι]

theorem sum_update {rows : Finset ι} (g : ι → α) {i : ι} (hi : i ∈ rows) (x : α) :
    ∑ j ∈ rows, f (Function.update g i x j) + f (g i) = ∑ j ∈ rows, f (g j) + f x := by
  have hrest : ∑ j ∈ rows.erase i, f (Function.update g i x j) = ∑ j ∈ rows.erase i, f (g j) := by
    apply Finset.sum_congr rfl
    intro j hj
    rw [Function.update_of_ne (Finset.ne_of_mem_erase hj)]
  have hself : f (Function.update g i x i) = f x := by rw [Function.update_self]
  rw [← Finset.add_sum_erase rows _ hi, ← Finset.add_sum_erase rows (fun j => f (g j)) hi, hrest, hself]
  omega

end Table
