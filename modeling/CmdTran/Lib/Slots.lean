import Mathlib.Data.Nat.ModEq

/-!
# Slots of a wrapping counter

A ring of `L` slots is addressed by a counter that wraps at `K`. Between two wraps, counts that are
less than `L` apart have different slots. Across a wrap the slots are shifted by `K % L`, so that two
counts that far apart share one.
-/

namespace Wrapping

variable {K L i j : Nat}

/-- The slot of the `n`-th count. -/
def slot (K L n : Nat) : Nat := n % K % L

/-- The counter wraps after `i` and not after `j`. -/
def Crosses (K i j : Nat) : Prop := i / K < j / K

instance : Decidable (Crosses K i j) := inferInstanceAs (Decidable (_ < _))

theorem slot_eq_iff_dvd (hij : i ≤ j) (h : ¬Crosses K i j) : slot K L i = slot K L j ↔ L ∣ j - i := by
  have hquot : j / K = i / K :=
    Nat.le_antisymm (Nat.not_lt.mp h) (Nat.div_le_div_right hij)
  have hi := Nat.div_add_mod i K
  have hj := Nat.div_add_mod j K
  rw [hquot] at hj
  have hdiff : j % K - i % K = j - i := by omega
  have hle : i % K ≤ j % K := by omega
  rw [← hdiff]
  exact Nat.modEq_iff_dvd' hle

theorem slot_eq_iff_mod (hK : j < i + K) (h : Crosses K i j) :
    slot K L i = slot K L j ↔ (j - i) % L = K % L := by
  have hpos : 0 < K := by
    rcases Nat.eq_zero_or_pos K with rfl | hpos
    · simp [Crosses] at h
    · exact hpos
  have hij : i ≤ j := by
    by_contra hlt
    exact Nat.not_lt.mpr (Nat.div_le_div_right (Nat.le_of_not_le hlt)) h
  have hquot : j / K = i / K + 1 := by
    have hle : j / K ≤ (i + K) / K := Nat.div_le_div_right (Nat.le_of_lt hK)
    rw [Nat.add_div_right i hpos] at hle
    exact Nat.le_antisymm hle h
  have hi := Nat.div_add_mod i K
  have hj := Nat.div_add_mod j K
  rw [hquot, Nat.mul_add, Nat.mul_one] at hj
  have hshift : i % K + (j - i) = j % K + K := by omega
  constructor
  · intro hslot
    have hsum : i % K + (j - i) ≡ i % K + K [MOD L] := by
      rw [hshift]
      exact Nat.ModEq.add_right K hslot.symm
    exact Nat.ModEq.add_left_cancel' _ hsum
  · intro hmod
    have hsum : i % K + K ≡ j % K + K [MOD L] := by
      rw [← hshift]
      exact Nat.ModEq.add_left _ (Nat.ModEq.symm hmod)
    exact Nat.ModEq.add_right_cancel' _ hsum

/-- Counts less than `L` apart share a slot only across a wrap. -/
theorem slot_eq_iff (hij : i < j) (hlt : j - i < L) (hLK : L ≤ K) :
    slot K L i = slot K L j ↔ Crosses K i j ∧ j - i = K % L := by
  by_cases hcross : Crosses K i j
  · rw [slot_eq_iff_mod (by omega) hcross, Nat.mod_eq_of_lt hlt]
    exact (and_iff_right hcross).symm
  · rw [slot_eq_iff_dvd (Nat.le_of_lt hij) hcross]
    constructor
    · intro hdvd
      exact absurd (Nat.le_of_dvd (by omega) hdvd) (by omega)
    · exact fun hboth => absurd hboth.1 hcross

/-- Counts at most `L` apart, when a wrap shifts the slots. -/
theorem slot_eq_iff_le (hij : i < j) (hle : j - i ≤ L) (hLK : L ≤ K) (hshift : K % L ≠ 0) :
    slot K L i = slot K L j ↔ if Crosses K i j then j - i = K % L else j - i = L := by
  rcases Nat.lt_or_eq_of_le hle with hlt | heq
  · rw [slot_eq_iff hij hlt hLK]
    split
    · rename_i hcross
      exact and_iff_right hcross
    · rename_i hcross
      exact iff_of_false (fun hboth => hcross hboth.1) (Nat.ne_of_lt hlt)
  · split
    · rename_i hcross
      have hmod : K % L < L := Nat.mod_lt K (by omega)
      have hK : j < i + K := by
        rcases Nat.lt_or_eq_of_le hLK with hlt | hsame
        · omega
        · rw [hsame, Nat.mod_self] at hshift
          exact absurd rfl hshift
      rw [slot_eq_iff_mod hK hcross, heq, Nat.mod_self]
      exact iff_of_false (Ne.symm hshift) (Nat.ne_of_gt hmod)
    · rename_i hcross
      rw [slot_eq_iff_dvd (Nat.le_of_lt hij) hcross, heq]
      exact iff_of_true (Nat.dvd_refl L) rfl

end Wrapping
