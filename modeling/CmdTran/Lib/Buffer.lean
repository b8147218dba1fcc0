import Mathlib.Data.List.Basic

/-!
# Bounds-checked memory

Reads at an integer index, slices and writes that fail outside the bounds. `Buffer α n` is a piece
of memory of exactly `n` cells.
-/

universe u

/-! ## Reading -/

namespace Checked

variable {α : Type u}

def read (l : List α) (i : Int) : Option α :=
  if 0 ≤ i then l[i.toNat]? else none

def slice (l : List α) (off len : Int) : Option (List α) :=
  if 0 ≤ off ∧ 0 ≤ len ∧ off + len ≤ l.length then some ((l.drop off.toNat).take len.toNat)
  else none

theorem read_eq_getElem? {l : List α} {i : Int} (h : 0 ≤ i) : read l i = l[i.toNat]? :=
  if_pos h

theorem read_of_lt {l : List α} {i : Int} (d : α) (h : 0 ≤ i) (hlt : i < l.length) :
    read l i = some (l.getD i.toNat d) := by
  rw [read_eq_getElem? h, List.getD_eq_getElem?_getD, List.getElem?_eq_getElem (by omega)]
  rfl

theorem slice_eq {l : List α} {off len : Int} (h0 : 0 ≤ off) (h1 : 0 ≤ len)
    (h : off + len ≤ l.length) : slice l off len = some ((l.drop off.toNat).take len.toNat) :=
  if_pos ⟨h0, h1, h⟩

end Checked

/-! ## Buffers -/

@[ext] structure Buffer (α : Type u) (n : Nat) where
  toList : List α
  length_eq : toList.length = n
  deriving DecidableEq

namespace Buffer

variable {α : Type u} {n : Nat}

attribute [simp] Buffer.length_eq

def fill (n : Nat) (a : α) : Buffer α n :=
  ⟨List.replicate n a, List.length_replicate⟩

/-- Copies `src` to the cells from `off` on. -/
def write (b : Buffer α n) (off : Int) (src : List α) : Option (Buffer α n) :=
  if h : 0 ≤ off ∧ off + src.length ≤ n then
    some ⟨b.toList.take off.toNat ++ src ++ b.toList.drop (off.toNat + src.length), by
      simp only [List.length_append, List.length_take, List.length_drop, b.length_eq]
      omega⟩
  else none

theorem write_isSome (b : Buffer α n) {off : Int} (src : List α) (h0 : 0 ≤ off)
    (h : off + src.length ≤ n) : ∃ b', b.write off src = some b' := by
  unfold write
  rw [dif_pos ⟨h0, h⟩]
  exact ⟨_, rfl⟩

theorem write_eq_some {b b' : Buffer α n} {off : Int} {src : List α}
    (h : b.write off src = some b') :
    0 ≤ off ∧ off + src.length ≤ n ∧
      b'.toList = b.toList.take off.toNat ++ src ++ b.toList.drop (off.toNat + src.length) := by
  unfold write at h
  split at h
  · rename_i hb
    cases h
    exact ⟨hb.1, hb.2, rfl⟩
  · cases h

/-- Up to its end, a written buffer holds the cells before `off`, then the source. -/
theorem take_of_write {b b' : Buffer α n} {off : Int} {src : List α}
    (h : b.write off src = some b') :
    b'.toList.take (off.toNat + src.length) = b.toList.take off.toNat ++ src := by
  obtain ⟨h0, hle, heq⟩ := write_eq_some h
  have hlen : (b.toList.take off.toNat ++ src).length = off.toNat + src.length := by
    rw [List.length_append, List.length_take, b.length_eq]
    omega
  rw [heq]
  exact List.take_left' hlen

theorem drop_of_write {b b' : Buffer α n} {off : Int} {src : List α}
    (h : b.write off src = some b') :
    b'.toList.drop (off.toNat + src.length) = b.toList.drop (off.toNat + src.length) := by
  obtain ⟨h0, hle, heq⟩ := write_eq_some h
  have hlen : (b.toList.take off.toNat ++ src).length = off.toNat + src.length := by
    rw [List.length_append, List.length_take, b.length_eq]
    omega
  rw [heq]
  exact List.drop_left' hlen

theorem write_append {b b' : Buffer α n} {off : Int} {src : List α}
    (h : b.write off src = some b') (src' : List α) :
    b'.write (off + src.length) src' = b.write off (src ++ src') := by
  obtain ⟨h0, hle, heq⟩ := write_eq_some h
  have htake := take_of_write h
  have hdrop := drop_of_write h
  unfold write
  by_cases hb : off + src.length + src'.length ≤ n
  · have hoff : (off + src.length).toNat = off.toNat + src.length := by omega
    rw [dif_pos ⟨by omega, hb⟩, dif_pos ⟨h0, by rw [List.length_append]; omega⟩]
    congr 2
    rw [hoff, htake, ← List.drop_drop, hdrop, List.drop_drop, List.length_append]
    simp only [List.append_assoc, Nat.add_assoc]
  · rw [dif_neg (by omega), dif_neg (by rw [List.length_append]; omega)]

end Buffer
