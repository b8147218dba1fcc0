import Mathlib.Data.List.Nodup
import Mathlib.Data.List.Perm.Subperm
import Mathlib.Logic.Function.Basic

/-!
# Linked lists in memory

Cells at addresses, each with the address of the next one. `Linked` says which list the cells from an
address on are; it looks at no other cell.
-/

universe u v

/-- A cell of a list: where the next one is, and what it holds. -/
structure Cell (A : Type u) (β : Type v) where
  next : Option A
  item : β
  deriving DecidableEq

namespace Chain

variable {A : Type u} {β : Type v}

/-- The cells from `p` on are those of the list, and the last one points nowhere. -/
def Linked (cells : A → Option (Cell A β)) : Option A → List (A × β) → Prop
  | p, [] => p = none
  | p, (a, x) :: xs => p = some a ∧ ∃ next, cells a = some ⟨next, x⟩ ∧ Linked cells next xs

/-- What the first `n` cells from `p` on hold. -/
def walk (cells : A → Option (Cell A β)) : Nat → Option A → List β
  | 0, _ => []
  | _ + 1, none => []
  | n + 1, some a =>
      match cells a with
      | none => []
      | some cell => cell.item :: walk cells n cell.next

/-- The pointer after `n` steps from `p` on; `NULL` stays. `none` is a read of a cell that is not there. -/
def follow (cells : A → Option (Cell A β)) : Nat → Option A → Option (Option A)
  | 0, p => some p
  | _ + 1, none => some none
  | n + 1, some a => (cells a).bind fun cell => follow cells n cell.next

/-- The same with a pointer that trails one step behind. -/
def trail (cells : A → Option (Cell A β)) : Nat → A → Option A → Option (A × Option A)
  | 0, front, p => some (front, p)
  | _ + 1, front, none => some (front, none)
  | n + 1, _, some a => (cells a).bind fun cell => trail cells n a cell.next

/-- The first cell from `p` on that holds what is looked for, `NULL` if there is none, and the one before
it. `none` is a read of a cell that is not there, or a walk over more than `n` cells. -/
def search (cells : A → Option (Cell A β)) (found : β → Bool) :
    Nat → A → Option A → Option (A × Option A)
  | _, front, none => some (front, none)
  | 0, _, some _ => none
  | n + 1, front, some a =>
      (cells a).bind fun cell =>
        if found cell.item then some (front, some a) else search cells found n a cell.next

/-- The address of the last cell of the list, or `front` in front of it. -/
def lastOr (front : A) (xs : List (A × β)) : A := (xs.getLast?.map Prod.fst).getD front

variable {cells : A → Option (Cell A β)} {p : Option A} {xs ys : List (A × β)} {a : A} {x y : β}

@[simp] theorem lastOr_nil (front : A) : lastOr front ([] : List (A × β)) = front := rfl

theorem lastOr_cons (front : A) : lastOr front ((a, x) :: xs) = lastOr a xs := by
  rw [lastOr, List.getLast?_cons, lastOr]
  cases xs.getLast? <;> rfl

@[simp] theorem lastOr_concat (front : A) (cell : A × β) :
    lastOr front (xs ++ [cell]) = cell.1 := by
  rw [lastOr, List.getLast?_concat]
  rfl

/-! ## Reading -/

theorem Linked.head (h : Linked cells p ((a, x) :: xs)) :
    p = some a ∧ ∃ next, cells a = some ⟨next, x⟩ ∧ Linked cells next xs := h

theorem Linked.walk (h : Linked cells p xs) : walk cells xs.length p = xs.map Prod.snd := by
  induction xs generalizing p with
  | nil => rfl
  | cons cell xs ih =>
      obtain ⟨rfl, next, hcell, hrest⟩ := h
      simp only [List.length_cons, Chain.walk, hcell, List.map_cons, ih hrest]

theorem Linked.head_eq (h : Linked cells p xs) : p = xs.head?.map Prod.fst := by
  cases xs with
  | nil => exact h
  | cons cell xs => exact h.1

theorem Linked.follow (h : Linked cells p xs) (n : Nat) :
    follow cells n p = some ((xs.drop n).head?.map Prod.fst) := by
  induction n generalizing p xs with
  | zero => exact congrArg some h.head_eq
  | succ n ih =>
      cases xs with
      | nil =>
          cases h
          rfl
      | cons cell xs =>
          obtain ⟨rfl, next, hcell, hrest⟩ := h
          rw [Chain.follow, hcell]
          exact ih hrest

theorem Linked.trail (h : Linked cells p xs) (n : Nat) (front : A) :
    trail cells n front p = some (lastOr front (xs.take n), (xs.drop n).head?.map Prod.fst) := by
  induction n generalizing p xs front with
  | zero => exact congrArg (fun q => some (front, q)) h.head_eq
  | succ n ih =>
      cases xs with
      | nil =>
          cases h
          rfl
      | cons cell xs =>
          obtain ⟨rfl, next, hcell, hrest⟩ := h
          rw [Chain.trail, hcell, Option.bind_some, ih hrest, List.take_succ_cons, lastOr_cons,
            List.drop_succ_cons]

/-- The search goes through the whole list. -/
theorem Linked.search_none (found : β → Bool) {n : Nat} (h : Linked cells p xs) (hn : xs.length ≤ n)
    (hnot : ∀ cell ∈ xs, found cell.2 = false) (front : A) :
    search cells found n front p = some (lastOr front xs, none) := by
  induction xs generalizing n p front with
  | nil =>
      cases h
      cases n <;> rfl
  | cons cell xs ih =>
      obtain ⟨a, x⟩ := cell
      obtain ⟨rfl, next, hcell, hrest⟩ := h
      obtain ⟨n, rfl⟩ := Nat.exists_eq_add_one_of_ne_zero (Nat.ne_of_gt (Nat.lt_of_lt_of_le (Nat.succ_pos _) hn))
      have hx : found x = false := hnot _ (List.mem_cons_self ..)
      rw [search, hcell, Option.bind_some, if_neg (by simp [hx]), lastOr_cons]
      exact ih hrest (Nat.le_of_succ_le_succ hn)
        (fun cell hmem => hnot cell (List.mem_cons_of_mem _ hmem)) a

/-- The search stops at the first cell that holds what is looked for. -/
theorem Linked.search_some {found : β → Bool} {n : Nat} (h : Linked cells p (ys ++ (a, x) :: xs))
    (hn : ys.length < n) (hnot : ∀ cell ∈ ys, found cell.2 = false) (hx : found x = true)
    (front : A) : search cells found n front p = some (lastOr front ys, some a) := by
  induction ys generalizing n p front with
  | nil =>
      obtain ⟨rfl, next, hcell, _⟩ := h
      obtain ⟨n, rfl⟩ := Nat.exists_eq_add_one_of_ne_zero (Nat.ne_of_gt hn)
      rw [search, hcell, Option.bind_some, if_pos hx]
      rfl
  | cons cell ys ih =>
      obtain ⟨b, y⟩ := cell
      obtain ⟨rfl, next, hcell, hrest⟩ := h
      obtain ⟨n, rfl⟩ := Nat.exists_eq_add_one_of_ne_zero (Nat.ne_of_gt (Nat.zero_lt_of_lt hn))
      have hy : found y = false := hnot _ (List.mem_cons_self ..)
      rw [search, hcell, Option.bind_some, if_neg (by simp [hy]), lastOr_cons]
      exact ih hrest (Nat.lt_of_succ_lt_succ hn)
        (fun cell hmem => hnot cell (List.mem_cons_of_mem _ hmem)) b

/-- The memory determines the list. -/
theorem Linked.unique (hx : Linked cells p xs) (hy : Linked cells p ys) : xs = ys := by
  induction xs generalizing p ys with
  | nil =>
      cases hx
      cases ys with
      | nil => rfl
      | cons cell ys => cases hy.1
  | cons cell xs ih =>
      obtain ⟨a, x⟩ := cell
      obtain ⟨rfl, next, hcell, hrest⟩ := hx
      cases ys with
      | nil => cases hy
      | cons cell' ys =>
          obtain ⟨b, y⟩ := cell'
          obtain ⟨hb, next', hcell', hrest'⟩ := hy
          cases hb
          rw [hcell] at hcell'
          cases hcell'
          rw [ih hrest hrest']

theorem Linked.suffix (h : Linked cells p (ys ++ (a, x) :: xs)) :
    Linked cells (some a) ((a, x) :: xs) := by
  induction ys generalizing p with
  | nil =>
      obtain ⟨rfl, hrest⟩ := h
      exact ⟨rfl, hrest⟩
  | cons cell ys ih =>
      obtain ⟨_, next, _, hrest⟩ := h
      exact ih hrest

/-- A list that comes to an end visits no cell twice. -/
theorem Linked.nodup (h : Linked cells p xs) : (xs.map Prod.fst).Nodup := by
  induction xs generalizing p with
  | nil => exact List.nodup_nil
  | cons cell xs ih =>
      obtain ⟨a, x⟩ := cell
      have hrest := h.head.2
      obtain ⟨next, hcell, hrest⟩ := hrest
      refine List.nodup_cons.mpr ⟨?_, ih hrest⟩
      intro hmem
      obtain ⟨⟨b, y⟩, hy, rfl⟩ := List.mem_map.mp hmem
      obtain ⟨ys, zs, rfl⟩ := List.append_of_mem hy
      have hlater : Linked cells (some b) ((b, y) :: zs) := hrest.suffix
      have hfirst : Linked cells (some b) ((b, x) :: (ys ++ (b, y) :: zs)) :=
        ⟨rfl, next, hcell, hrest⟩
      have hlength := congrArg List.length (hfirst.unique hlater)
      simp only [List.length_cons, List.length_append] at hlength
      omega

/-- The cells of the list are there. -/
theorem Linked.isSome (h : Linked cells p xs) (ha : a ∈ xs.map Prod.fst) : (cells a).isSome := by
  obtain ⟨⟨b, y⟩, hb, rfl⟩ := List.mem_map.mp ha
  obtain ⟨ys, zs, rfl⟩ := List.append_of_mem hb
  obtain ⟨_, next, hcell, _⟩ := h.suffix
  rw [hcell]
  rfl

theorem Linked.notMem (h : Linked cells p (ys ++ (a, x) :: xs)) : a ∉ (ys ++ xs).map Prod.fst := by
  have hnodup : ((a, x) :: (ys ++ xs)).map Prod.fst |>.Nodup :=
    (List.perm_middle.map Prod.fst).nodup_iff.mp h.nodup
  exact (List.nodup_cons.mp hnodup).1

/-- A cell is the last one if its address is that of the last one. -/
theorem Linked.last_iff (h : Linked cells p (ys ++ (a, x) :: xs)) :
    (ys ++ (a, x) :: xs).getLast?.map Prod.fst = some a ↔ xs = [] := by
  rw [List.getLast?_append_cons]
  constructor
  · intro hlast
    cases xs with
    | nil => rfl
    | cons cell xs =>
        rw [List.getLast?_cons_cons] at hlast
        obtain ⟨q, hq, ha⟩ := Option.map_eq_some_iff.mp hlast
        have hmem : a ∈ (cell :: xs).map Prod.fst := List.mem_map.mpr ⟨q, List.mem_of_getLast? hq, ha⟩
        exact absurd hmem (List.nodup_cons.mp h.suffix.nodup).1
  · rintro rfl
    rfl

/-! ## Writing -/

variable [DecidableEq A]

/-- A cell that is not in the list does not matter. -/
theorem Linked.update (h : Linked cells p xs) (ha : a ∉ xs.map Prod.fst)
    (cell : Option (Cell A β)) : Linked (Function.update cells a cell) p xs := by
  induction xs generalizing p with
  | nil => exact h
  | cons c xs ih =>
      obtain ⟨b, y⟩ := c
      obtain ⟨hp, next, hcell, hrest⟩ := h
      rw [List.map_cons, List.mem_cons, not_or] at ha
      refine ⟨hp, next, ?_, ih hrest ha.2⟩
      rw [Function.update_of_ne (Ne.symm ha.1)]
      exact hcell

/-- A cell comes before the first one. -/
theorem Linked.cons (h : Linked cells p xs) (ha : a ∉ xs.map Prod.fst) (x : β) :
    Linked (Function.update cells a (some ⟨p, x⟩)) (some a) ((a, x) :: xs) :=
  ⟨rfl, p, Function.update_self _ _ _, h.update ha _⟩

/-- Behind the cell `a`, another list goes on. -/
theorem Linked.relink {zs : List (A × β)} {q : Option A} (h : Linked cells p (ys ++ (a, x) :: zs))
    (hq : Linked cells q xs) (ha : a ∉ xs.map Prod.fst) :
    Linked (Function.update cells a (some ⟨q, x⟩)) p (ys ++ (a, x) :: xs) := by
  induction ys generalizing p with
  | nil =>
      obtain ⟨rfl, _⟩ := h
      exact hq.cons ha x
  | cons cell ys ih =>
      obtain ⟨b, y⟩ := cell
      have hnodup := List.nodup_cons.mp h.nodup
      obtain ⟨hp, next, hcell, hrest⟩ := h
      have hba : b ≠ a := by
        rintro rfl
        exact hnodup.1 (by simp)
      refine ⟨hp, next, ?_, ih hrest⟩
      rw [Function.update_of_ne hba]
      exact hcell

/-- The cell behind `a` is passed over. -/
theorem Linked.unlink {b : A} {next : Option A} (h : Linked cells p (ys ++ (a, x) :: (b, y) :: xs))
    (hb : cells b = some ⟨next, y⟩) :
    Linked (Function.update cells a (some ⟨next, x⟩)) p (ys ++ (a, x) :: xs) := by
  obtain ⟨_, _, _, htail⟩ := h.suffix
  obtain ⟨rfl, next', hb', hrest⟩ := htail
  rw [hb] at hb'
  cases hb'
  have hnodup := List.nodup_cons.mp h.suffix.nodup
  exact h.relink hrest fun hmem => hnodup.1 (List.mem_cons_of_mem _ hmem)

/-- The first cell gets other contents. -/
theorem Linked.set {next : Option A} (h : Linked cells p ((a, x) :: xs))
    (hcell : cells a = some ⟨next, x⟩) (y : β) :
    Linked (Function.update cells a (some ⟨next, y⟩)) p ((a, y) :: xs) := by
  have hnodup := List.nodup_cons.mp h.nodup
  obtain ⟨hp, next', hcell', hrest⟩ := h
  rw [hcell] at hcell'
  cases hcell'
  refine ⟨hp, next, ?_, hrest.update hnodup.1 _⟩
  rw [Function.update_self]

/-- The first cell goes. -/
theorem Linked.tail {next : Option A} (h : Linked cells p ((a, x) :: xs))
    (hcell : cells a = some ⟨next, x⟩) : Linked (Function.update cells a none) next xs := by
  have hnodup := List.nodup_cons.mp h.nodup
  obtain ⟨_, next', hcell', hrest⟩ := h
  rw [hcell] at hcell'
  cases hcell'
  exact hrest.update hnodup.1 none

/-- A new cell comes behind the last one. -/
theorem Linked.concat {e : A} (h : Linked cells p (xs ++ [(e, y)]))
    (ha : a ∉ (xs ++ [(e, y)]).map Prod.fst) (x : β) :
    Linked (Function.update (Function.update cells e (some ⟨some a, y⟩)) a (some ⟨none, x⟩)) p
      (xs ++ [(e, y)] ++ [(a, x)]) := by
  have hae : a ≠ e := by
    rintro rfl
    exact ha (by simp)
  have hnew : Linked (Function.update cells a (some ⟨none, x⟩)) (some a) [(a, x)] :=
    ⟨rfl, none, Function.update_self _ _ _, rfl⟩
  rw [Function.update_comm (Ne.symm hae), List.append_assoc]
  exact (h.update ha _).relink hnew (by simpa using Ne.symm hae)

/-! ## The cells that are there -/

/-- These cells are there, and no others. -/
structure Occupies (cells : A → Option (Cell A β)) (addrs : List A) : Prop where
  nodup : addrs.Nodup
  mem_iff : ∀ a, (cells a).isSome ↔ a ∈ addrs

variable {addrs : List A} {cell : Cell A β}

theorem Occupies.write (h : Occupies cells addrs) (ha : (cells a).isSome) (cell : Cell A β) :
    Occupies (Function.update cells a (some cell)) addrs := by
  refine ⟨h.nodup, fun b => ?_⟩
  rcases Decidable.eq_or_ne b a with rfl | hne
  · rw [Function.update_self]
    exact iff_of_true rfl ((h.mem_iff b).mp ha)
  · rw [Function.update_of_ne hne]
    exact h.mem_iff b

theorem Occupies.new (h : Occupies cells addrs) (ha : cells a = none) (cell : Cell A β) :
    Occupies (Function.update cells a (some cell)) (a :: addrs) := by
  have hnotMem : a ∉ addrs := by
    rw [← h.mem_iff, ha]
    exact Bool.false_ne_true
  refine ⟨List.nodup_cons.mpr ⟨hnotMem, h.nodup⟩, fun b => ?_⟩
  rcases Decidable.eq_or_ne b a with rfl | hne
  · rw [Function.update_self]
    exact iff_of_true rfl (List.mem_cons_self ..)
  · rw [Function.update_of_ne hne, List.mem_cons, h.mem_iff]
    exact ⟨.inr, fun hmem => hmem.resolve_left hne⟩

theorem Occupies.delete (h : Occupies cells addrs) (a : A) :
    Occupies (Function.update cells a none) (addrs.erase a) := by
  refine ⟨h.nodup.erase a, fun b => ?_⟩
  rw [h.nodup.mem_erase_iff]
  rcases Decidable.eq_or_ne b a with rfl | hne
  · rw [Function.update_self]
    exact iff_of_false Bool.false_ne_true fun hmem => hmem.1 rfl
  · rw [Function.update_of_ne hne, h.mem_iff]
    exact (and_iff_right hne).symm

omit [DecidableEq A] in
/-- If as many cells are there as the list has, they are those of the list. -/
theorem Linked.occupies (h : Linked cells p xs) (ho : Occupies cells addrs)
    (hlength : addrs.length ≤ xs.length) : Occupies cells (xs.map Prod.fst) := by
  have hsubset : xs.map Prod.fst ⊆ addrs := fun a ha => (ho.mem_iff a).mp (h.isSome ha)
  have hperm : (xs.map Prod.fst).Perm addrs :=
    (h.nodup.subperm hsubset).perm_of_length_le (by rwa [List.length_map])
  exact ⟨h.nodup, fun a => (ho.mem_iff a).trans hperm.mem_iff.symm⟩

end Chain
