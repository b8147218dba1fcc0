import Mathlib.Algebra.Order.BigOperators.Group.Finset
import Mathlib.Data.Set.Card

/-!
# Counting parties

How many of the parties of a system are in a state of some kind, when there may be infinitely many of
them and all but finitely many are at rest.
-/

universe u v

namespace Parties

variable {ι : Type u} {β : Type v}

/-- The number of parties in a state of the kind, if they are finitely many. -/
noncomputable def count (kind : β → Bool) (f : ι → β) : Nat := {i | kind (f i)}.ncard

/-- All but finitely many parties are at rest. -/
def AtRest (rest : β) (f : ι → β) : Prop := {i | f i ≠ rest}.Finite

variable {kind : β → Bool} {rest : β} {f : ι → β}

theorem atRest_rest : AtRest rest fun _ : ι => rest := by
  simp [AtRest]

theorem count_rest (h : kind rest = false) : count kind (fun _ : ι => rest) = 0 := by
  simp [count, h]

theorem AtRest.finite (hf : AtRest rest f) (h : kind rest = false) : {i | kind (f i)}.Finite := by
  apply hf.subset
  intro i hi heq
  rw [Set.mem_ofPred_eq, heq, h] at hi
  cases hi

variable [DecidableEq ι]

theorem AtRest.update (hf : AtRest rest f) (i : ι) (x : β) :
    AtRest rest (Function.update f i x) := by
  apply (hf.insert i).subset
  intro j hj
  by_cases hij : j = i
  · exact .inl hij
  · rw [Set.mem_ofPred_eq, Function.update_of_ne hij] at hj
    exact .inr hj

/-- When one party goes on, the count loses it in its old state and gains it in its new one. -/
theorem AtRest.count_update (hf : AtRest rest f) (h : kind rest = false) (i : ι) (x : β) :
    count kind (Function.update f i x) + (kind (f i)).toNat = count kind f + (kind x).toNat := by
  have hothers : ∀ g : ι → β, AtRest rest g →
      count kind g = ({j | kind (g j)} \ {i}).ncard + (kind (g i)).toNat := by
    intro g hg
    cases hi : kind (g i) with
    | true =>
        have hmem : i ∈ {j | kind (g j)} := hi
        rw [count, ← Set.ncard_sdiff_singleton_add_one hmem (hg.finite h)]
        rfl
    | false =>
        have hmem : i ∉ {j | kind (g j)} := by
          simp [hi]
        rw [Set.sdiff_singleton_eq_self hmem]
        rfl
  have hsame : {j | kind (Function.update f i x j)} \ {i} = {j | kind (f j)} \ {i} := by
    ext j
    by_cases hij : j = i <;> simp [hij]
  have hold := hothers f hf
  have hnew := hothers (Function.update f i x) (hf.update i x)
  rw [hsame, Function.update_self] at hnew
  omega

/-! ## Sums -/

/-- What one party has changes; each of the others has at most `c` more. -/
theorem sum_le_of_others [Fintype ι] {f g : ι → Nat} {i : ι} {c : Nat} (h : ∀ j, j ≠ i → g j ≤ f j + c) :
    ∑ j, g j + f i + c ≤ ∑ j, f j + g i + c * Fintype.card ι := by
  have hothers : ∑ j ∈ Finset.univ.erase i, g j ≤ ∑ j ∈ Finset.univ.erase i, (f j + c) :=
    Finset.sum_le_sum fun j hj => h j (Finset.ne_of_mem_erase hj)
  have hcard : (Finset.univ.erase i).card + 1 = Fintype.card ι :=
    Finset.card_erase_add_one (Finset.mem_univ i)
  rw [Finset.sum_add_distrib, Finset.sum_const_nat fun _ _ => rfl, Nat.mul_comm] at hothers
  rw [← Finset.add_sum_erase _ f (Finset.mem_univ i), ← Finset.add_sum_erase _ g (Finset.mem_univ i),
    ← hcard, Nat.mul_succ]
  omega

end Parties
