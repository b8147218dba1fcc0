import CmdTran.Lib.Slots
import CmdTran.Queue.Basic

/-!
# The queue against a list

The indices are 32-bit counters and `QUEUE_LEN` does not divide `2^32`: when the counter wraps, the
slots are shifted by `2^24`. The queue is a list of its capacity as long as this does not show.
-/

namespace CmdTran

open Wrapping

variable {α : Type}

/-! ## Counts -/

def uint32Size : Nat := 0x100000000

/-- `2^32 % QUEUE_LEN` -/
def wrapShift : Nat := 0x1000000

/-- The slot of the `n`-th element. -/
abbrev slotOf (n : Nat) : Nat := slot uint32Size queueLen n

theorem countToIndex_ofNat (n : Nat) : countToIndex (UInt32.ofNat n) = slotOf n := by
  rw [countToIndex, UInt32.toNat_ofNat']
  rfl

theorem ofNat_succ (n : Nat) : UInt32.ofNat n + 1 = UInt32.ofNat (n + 1) := by
  rw [UInt32.ofNat_add]
  rfl

theorem slotOf_eq_iff {i j : Nat} (hij : i < j) (hlt : j - i < queueLen) :
    slotOf i = slotOf j ↔ Crosses uint32Size i j ∧ j - i = wrapShift :=
  slot_eq_iff hij hlt (by decide)

theorem slotOf_eq_iff_le {i j : Nat} (hij : i < j) (hle : j - i ≤ queueLen) :
    slotOf i = slotOf j ↔
      if Crosses uint32Size i j then j - i = wrapShift else j - i = queueLen :=
  slot_eq_iff_le hij hle (by decide) (by decide)

/-! ## Calls that the wrap does not disturb -/

/-- The call is made on a list of these elements after `popped` others. -/
def Fits (elements : List α) (popped : Nat) : Call α → Prop
  | .push _ => Crosses uint32Size popped (popped + elements.length + 1) →
      elements.length + 1 ≠ wrapShift ∧ elements.length + 1 ≠ queueLen
  | .pop => Crosses uint32Size popped (popped + wrapShift) →
      elements.length ≠ wrapShift ∧ ∀ x, elements[wrapShift]? = some x → elements.head? = some x

namespace Fifo

/-- How many elements the call takes. -/
def taken (elements : List α) : Call α → Nat
  | .push _ => 0
  | .pop => min 1 elements.length

/-- Every one of the calls fits where it is made. -/
def AllFit (elements : List α) (popped : Nat) : List (Call α) → Prop
  | [] => True
  | c :: calls => Fits elements popped c ∧
      AllFit (call elements c).1 (popped + taken elements c) calls

end Fifo

/-! ## The queue and its history -/

/-- The queue after `pushed`, the first `popped` of them taken. A slot has what was put there last. -/
structure Rel (q : CLockFreeQueue α) (pushed : List α) (popped : Nat) : Prop where
  write : q.writeIndex = UInt32.ofNat pushed.length
  maximum : q.maximumReadIndex = UInt32.ofNat pushed.length
  read : q.readIndex = UInt32.ofNat popped
  size : q.size = UInt32.ofNat (pushed.length - popped)
  le : popped ≤ pushed.length
  bound : pushed.length - popped < queueLen
  slots : ∀ i x, pushed[i]? = some x →
    (∀ j, i < j → j < pushed.length → slotOf j ≠ slotOf i) → q.slots (slotOf i) = x

theorem rel_new (junk : Nat → α) : Rel (CLockFreeQueue.new junk) [] 0 :=
  ⟨rfl, rfl, rfl, rfl, Nat.le_refl 0, (by decide : 0 < queueLen), nofun⟩

namespace Rel

variable {q : CLockFreeQueue α} {pushed : List α} {popped : Nat}

/-! ## `Push` -/

/-- `Push` says no when the next count has the slot of the oldest element. -/
theorem push_eq (h : Rel q pushed popped) (data : α) :
    q.push data =
      if slotOf (pushed.length + 1) = slotOf popped then some (q, false)
      else some ({
        writeIndex := UInt32.ofNat (pushed.length + 1)
        readIndex := q.readIndex
        maximumReadIndex := UInt32.ofNat (pushed.length + 1)
        size := q.size + 1
        slots := Function.update q.slots (slotOf pushed.length) data }, true) := by
  unfold CLockFreeQueue.push
  simp only [h.write, h.read, h.maximum, ofNat_succ, countToIndex_ofNat, if_true]

theorem push_full (h : Rel q pushed popped) :
    slotOf (pushed.length + 1) = slotOf popped ↔
      if Crosses uint32Size popped (pushed.length + 1) then
        pushed.length + 1 - popped = wrapShift
      else pushed.length + 1 - popped = queueLen := by
  have hle := h.le
  have hbound := h.bound
  rw [eq_comm]
  exact slotOf_eq_iff_le (by omega) (by omega)

theorem push_stored (h : Rel q pushed popped) (data : α)
    (hroom : pushed.length + 1 - popped < queueLen) :
    Rel {
      writeIndex := UInt32.ofNat (pushed.length + 1)
      readIndex := q.readIndex
      maximumReadIndex := UInt32.ofNat (pushed.length + 1)
      size := q.size + 1
      slots := Function.update q.slots (slotOf pushed.length) data } (pushed ++ [data]) popped := by
  have hlen : (pushed ++ [data]).length = pushed.length + 1 := by simp
  have hle := h.le
  refine ⟨by rw [hlen], by rw [hlen], h.read, ?_, by omega, by omega, ?_⟩
  · rw [h.size, ofNat_succ, hlen, Nat.sub_add_comm hle]
  · intro i x hx hlast
    rw [hlen] at hlast
    dsimp only
    rcases Nat.lt_or_ge i pushed.length with hlt | hge
    · have hother := hlast pushed.length hlt (Nat.lt_succ_self _)
      rw [Function.update_of_ne (Ne.symm hother)]
      rw [List.getElem?_append_left hlt] at hx
      exact h.slots i x hx fun j hij hj => hlast j hij (Nat.lt_succ_of_lt hj)
    · rw [List.getElem?_append_right hge] at hx
      obtain ⟨hzero, hdata⟩ := List.getElem?_eq_some_iff.mp hx
      have heq : i = pushed.length := by
        simp only [List.length_singleton] at hzero
        omega
      subst heq
      rw [Function.update_self]
      simpa using hdata

theorem push_call (h : Rel q pushed popped) (data : α) :
    ∃ q' done, q.push data = some (q', done) ∧
      (done = decide (pushed.length - popped ≠ queueLen - 1) ↔
        Fits (pushed.drop popped) popped (.push data)) ∧
      (Fits (pushed.drop popped) popped (.push data) →
        Rel q' (if done then pushed ++ [data] else pushed) popped) := by
  have hle := h.le
  have hbound := h.bound
  have hfull := h.push_full
  have hlen : (pushed.drop popped).length = pushed.length - popped := List.length_drop
  have hend : popped + (pushed.length - popped) + 1 = pushed.length + 1 := by omega
  have hroom : pushed.length + 1 - popped = pushed.length - popped + 1 := by omega
  have hpos : 0 < queueLen := by decide
  have hne : wrapShift ≠ queueLen := by decide
  rw [h.push_eq data]
  simp only [Fits, hlen, hend]
  rw [hroom] at hfull
  split
  · rename_i hslot
    rw [hslot, eq_self, true_iff] at hfull
    refine ⟨q, false, rfl, ?_, fun _ => h⟩
    split at hfull
    · rename_i hcross
      constructor
      · intro hdone
        have hno := of_decide_eq_false hdone.symm
        omega
      · intro hfits
        exact absurd hfull (hfits hcross).1
    · rename_i hcross
      refine iff_of_true ?_ fun hcross' => absurd hcross' hcross
      rw [eq_comm, decide_eq_false_iff_not]
      omega
  · rename_i hslot
    rw [eq_false hslot, false_iff] at hfull
    refine ⟨_, true, rfl, ?_, ?_⟩
    · split at hfull
      · rename_i hcross
        rw [eq_comm, decide_eq_true_iff]
        constructor
        · intro hroom' _
          exact ⟨hfull, by omega⟩
        · intro hfits
          have := (hfits hcross).2
          omega
      · rename_i hcross
        refine iff_of_true ?_ fun hcross' => absurd hcross' hcross
        rw [eq_comm, decide_eq_true_iff]
        omega
    · intro hfits
      apply h.push_stored data
      split at hfull
      · rename_i hcross
        have := (hfits hcross).2
        omega
      · omega

/-! ## `Pop` -/

/-- `Pop` says no when the next element to come has the slot of the oldest. -/
theorem pop_eq (h : Rel q pushed popped) :
    q.pop =
      if slotOf popped = slotOf pushed.length then (q, none)
      else ({ q with readIndex := UInt32.ofNat (popped + 1), size := q.size - 1 },
        some (q.slots (slotOf popped))) := by
  unfold CLockFreeQueue.pop
  simp only [h.read, h.maximum, ofNat_succ, countToIndex_ofNat]

theorem pop_empty (h : Rel q pushed popped) (hlt : popped < pushed.length) :
    slotOf popped = slotOf pushed.length ↔
      Crosses uint32Size popped pushed.length ∧ pushed.length - popped = wrapShift :=
  slotOf_eq_iff hlt h.bound

theorem pop_taken (h : Rel q pushed popped) (hlt : popped < pushed.length) :
    Rel { q with readIndex := UInt32.ofNat (popped + 1), size := q.size - 1 } pushed
      (popped + 1) := by
  have hbound := h.bound
  refine ⟨h.write, h.maximum, rfl, ?_, hlt, by omega, h.slots⟩
  obtain ⟨n, hn⟩ : ∃ n, pushed.length - popped = n + 1 := ⟨pushed.length - popped - 1, by omega⟩
  have hrest : pushed.length - (popped + 1) = n := by omega
  dsimp only
  rw [h.size, hn, hrest, ← ofNat_succ]
  exact UInt32.add_sub_cancel _ _

/-- An element that no later one shares its slot with is still there. -/
theorem slots_kept (h : Rel q pushed popped) {i : Nat} {x : α} (hi : popped ≤ i)
    (hx : pushed[i]? = some x)
    (hkept : Crosses uint32Size i (i + wrapShift) → pushed.length ≤ i + wrapShift) :
    q.slots (slotOf i) = x := by
  apply h.slots i x hx
  intro j hij hj hslot
  have hbound := h.bound
  obtain ⟨hcross, hdist⟩ := (slotOf_eq_iff hij (by omega)).mp hslot.symm
  have hj' : j = i + wrapShift := by omega
  have := hkept (hj' ▸ hcross)
  omega

/-- After a wrap the element `2^24` further on is in the slot. -/
theorem slots_shifted (h : Rel q pushed popped) {i : Nat} {x : α} (hi : popped ≤ i)
    (hcross : Crosses uint32Size i (i + wrapShift)) (hx : pushed[i + wrapShift]? = some x) :
    q.slots (slotOf i) = x := by
  have hbound := h.bound
  obtain ⟨hlt, _⟩ := List.getElem?_eq_some_iff.mp hx
  have hpos : 0 < wrapShift := by decide
  have hsame : slotOf i = slotOf (i + wrapShift) :=
    (slotOf_eq_iff (by omega) (by omega)).mpr ⟨hcross, by omega⟩
  rw [hsame]
  apply h.slots _ x hx
  intro j hij hj hslot
  rw [← hsame] at hslot
  obtain ⟨_, hdist⟩ := (slotOf_eq_iff (by omega : i < j) (by omega)).mp hslot.symm
  omega

theorem pop_nil (h : Rel q pushed popped) (heq : popped = pushed.length) :
    q.pop = (q, none) ∧ Fits (pushed.drop popped) popped .pop := by
  constructor
  · rw [h.pop_eq, heq]
    exact if_pos rfl
  · intro _
    rw [heq, List.drop_length]
    exact ⟨(by decide : 0 ≠ wrapShift), nofun⟩

theorem pop_call (h : Rel q pushed popped) {x : α} (hx : pushed[popped]? = some x) :
    (q.pop.2 = some x ↔ Fits (pushed.drop popped) popped .pop) ∧
      (Fits (pushed.drop popped) popped .pop → Rel q.pop.1 pushed (popped + 1)) := by
  obtain ⟨hlt, _⟩ := List.getElem?_eq_some_iff.mp hx
  have hempty := h.pop_empty hlt
  have hlen : (pushed.drop popped).length = pushed.length - popped := List.length_drop
  have hget : (pushed.drop popped)[wrapShift]? = pushed[popped + wrapShift]? :=
    List.getElem?_drop
  have hhead : (pushed.drop popped).head? = some x := by
    rw [List.head?_drop]
    exact hx
  have hcrosses : pushed.length - popped = wrapShift → popped + wrapShift = pushed.length := by
    omega
  simp only [Fits, hlen, hget, hhead, h.pop_eq]
  split
  · -- the queue looks empty
    rename_i hslot
    obtain ⟨hcross, hdist⟩ := hempty.mp hslot
    have hno : ¬(Crosses uint32Size popped (popped + wrapShift) →
        pushed.length - popped ≠ wrapShift ∧
          ∀ y, pushed[popped + wrapShift]? = some y → some x = some y) := by
      intro hfits
      rw [hcrosses hdist] at hfits
      exact (hfits hcross).1 hdist
    exact ⟨iff_of_false nofun hno, fun hfits => absurd hfits hno⟩
  · rename_i hslot
    refine ⟨?_, fun _ => h.pop_taken hlt⟩
    by_cases hshift : Crosses uint32Size popped (popped + wrapShift) ∧
        popped + wrapShift < pushed.length
    · -- a later element is in the slot
      obtain ⟨hcross, hlater⟩ := hshift
      have hy := List.getElem?_eq_getElem hlater
      have hslot' := h.slots_shifted (Nat.le_refl popped) hcross hy
      dsimp only
      rw [hslot', hy]
      constructor
      · intro heq _
        exact ⟨by omega, fun y hy' => heq.symm.trans hy'⟩
      · intro hfits
        exact ((hfits hcross).2 _ rfl).symm
    · have hkept := h.slots_kept (Nat.le_refl popped) hx (by
        intro hcross
        by_contra hlater
        exact hshift ⟨hcross, Nat.not_le.mp hlater⟩)
      refine iff_of_true (congrArg some hkept) ?_
      intro hcross
      refine ⟨?_, ?_⟩
      · intro hdist
        rw [hcrosses hdist] at hcross
        exact hslot (hempty.mpr ⟨hcross, hdist⟩)
      · intro y hy
        exact absurd ⟨hcross, (List.getElem?_eq_some_iff.mp hy).1⟩ hshift

/-! ## One call -/

/-- A call answers as on the list exactly when it fits, and then the queue follows the list. -/
theorem call (h : Rel q pushed popped) (c : Call α) :
    ∃ q' reply, q.call c = some (q', reply) ∧
      (reply = (Fifo.call (pushed.drop popped) c).2 ↔ Fits (pushed.drop popped) popped c) ∧
      (Fits (pushed.drop popped) popped c →
        ∃ pushed', Rel q' pushed' (popped + Fifo.taken (pushed.drop popped) c) ∧
          pushed'.drop (popped + Fifo.taken (pushed.drop popped) c) =
            (Fifo.call (pushed.drop popped) c).1) := by
  have hlen : (pushed.drop popped).length = pushed.length - popped := List.length_drop
  cases c with
  | push data =>
      obtain ⟨q', done, hpush, hdone, hrel⟩ := h.push_call data
      refine ⟨q', .pushed done, by rw [CLockFreeQueue.call, hpush]; rfl, ?_, ?_⟩
      · rw [← hdone, Fifo.call, hlen]
        by_cases hfull : pushed.length - popped = queueLen - 1
        · simp [hfull]
        · simp [hfull]
      · intro hfits
        have hval := hdone.mpr hfits
        refine ⟨_, hrel hfits, ?_⟩
        rw [Fifo.call, hlen, Fifo.taken, Nat.add_zero, hval]
        by_cases hfull : pushed.length - popped = queueLen - 1
        · simp [hfull]
        · simp [hfull, List.drop_append_of_le_length h.le]
  | pop =>
      refine ⟨q.pop.1, .popped q.pop.2, rfl, ?_, ?_⟩
      · rcases Nat.lt_or_eq_of_le h.le with hlt | heq
        · have hx := List.getElem?_eq_getElem hlt
          rw [← (h.pop_call hx).1, List.drop_eq_getElem_cons hlt]
          simp [Fifo.call]
        · obtain ⟨hpop, hfits⟩ := h.pop_nil heq
          rw [hpop, heq, List.drop_length]
          exact iff_of_true rfl (by rw [heq, List.drop_length] at hfits; exact hfits)
      · intro hfits
        rcases Nat.lt_or_eq_of_le h.le with hlt | heq
        · have hx := List.getElem?_eq_getElem hlt
          have htaken : Fifo.taken (pushed.drop popped) .pop = 1 := by
            rw [Fifo.taken, hlen]
            omega
          refine ⟨pushed, ?_, ?_⟩
          · rw [htaken]
            exact (h.pop_call hx).2 hfits
          · rw [htaken, List.drop_eq_getElem_cons hlt]
            rfl
        · obtain ⟨hpop, _⟩ := h.pop_nil heq
          have htaken : Fifo.taken (pushed.drop popped) .pop = 0 := by
            rw [Fifo.taken, hlen]
            omega
          refine ⟨pushed, ?_, ?_⟩
          · rw [htaken, hpop]
            exact h
          · rw [htaken, Nat.add_zero, heq, List.drop_length]
            rfl

end Rel

/-! ## All calls -/

theorem Rel.replies {q : CLockFreeQueue α} {pushed : List α} {popped : Nat}
    (h : Rel q pushed popped) (calls : List (Call α)) :
    q.replies calls = some (Fifo.replies (pushed.drop popped) calls) ↔
      Fifo.AllFit (pushed.drop popped) popped calls := by
  induction calls generalizing q pushed popped with
  | nil => exact iff_of_true rfl trivial
  | cons c calls ih =>
      obtain ⟨q', reply, hcall, hreply, hnext⟩ := h.call c
      rw [CLockFreeQueue.replies, hcall, Option.bind_some, Fifo.replies, Fifo.AllFit]
      constructor
      · intro hsame
        obtain ⟨replies, hreplies, hcons⟩ := Option.map_eq_some_iff.mp hsame
        obtain ⟨hhead, htail⟩ := List.cons.inj hcons
        have hfits := hreply.mp hhead
        obtain ⟨pushed', hrel, hdrop⟩ := hnext hfits
        refine ⟨hfits, ?_⟩
        rw [← hdrop, ← ih hrel, hdrop, hreplies, htail]
      · rintro ⟨hfits, hrest⟩
        obtain ⟨pushed', hrel, hdrop⟩ := hnext hfits
        rw [← hdrop, ← ih hrel, hdrop] at hrest
        rw [hrest, Option.map_some, hreply.mpr hfits]

/-- The calls on a new queue return what they return on the list exactly when each of them fits. -/
theorem replies_iff_allFit (junk : Nat → α) (calls : List (Call α)) :
    (CLockFreeQueue.new junk).replies calls = some (Fifo.replies [] calls) ↔
      Fifo.AllFit [] 0 calls :=
  (rel_new junk).replies calls

/-! ## Fewer than `2^24` elements -/

theorem fits_push_of_lt {elements : List α} {popped : Nat} (data : α)
    (h : elements.length + 1 < wrapShift) : Fits elements popped (.push data) := by
  have hlt : wrapShift < queueLen := by decide
  intro _
  exact ⟨by omega, by omega⟩

theorem fits_pop_of_lt {elements : List α} {popped : Nat} (h : elements.length < wrapShift) :
    Fits elements popped .pop := by
  intro _
  refine ⟨by omega, ?_⟩
  intro x hx
  obtain ⟨hget, _⟩ := List.getElem?_eq_some_iff.mp hx
  omega

namespace Rel

variable {q : CLockFreeQueue α} {pushed : List α} {popped : Nat}

/-- `m_size` says how many elements there are. -/
theorem size_toNat (h : Rel q pushed popped) : q.size.toNat = pushed.length - popped := by
  have hbound := h.bound
  rw [h.size, UInt32.toNat_ofNat']
  simp only [queueLen] at hbound
  exact Nat.mod_eq_of_lt (by omega)

theorem push_of_lt (h : Rel q pushed popped) (data : α)
    (hlt : pushed.length - popped + 1 < wrapShift) :
    ∃ q', q.push data = some (q', true) ∧ Rel q' (pushed ++ [data]) popped := by
  have hlen : (pushed.drop popped).length = pushed.length - popped := List.length_drop
  have hmax : wrapShift < queueLen := by decide
  obtain ⟨q', done, hpush, hdone, hrel⟩ := h.push_call data
  have hfits : Fits (pushed.drop popped) popped (.push data) :=
    fits_push_of_lt data (by omega)
  have htrue : done = true := by
    rw [hdone.mpr hfits, decide_eq_true_iff]
    omega
  subst htrue
  exact ⟨q', hpush, hrel hfits⟩

theorem pop_of_lt (h : Rel q pushed popped) {x : α} (hx : pushed[popped]? = some x)
    (hlt : pushed.length - popped < wrapShift) :
    q.pop.2 = some x ∧ Rel q.pop.1 pushed (popped + 1) := by
  have hlen : (pushed.drop popped).length = pushed.length - popped := List.length_drop
  have hfits : Fits (pushed.drop popped) popped .pop := fits_pop_of_lt (by omega)
  exact ⟨(h.pop_call hx).1.mpr hfits, (h.pop_call hx).2 hfits⟩

theorem contents_of_lt (h : Rel q pushed popped) (hlt : pushed.length - popped < wrapShift) :
    q.contents = pushed.drop popped := by
  have hle := h.le
  have hbound := h.bound
  have hmax : queueLen < uint32Size := by decide
  have hcount : (q.maximumReadIndex - q.readIndex).toNat = pushed.length - popped := by
    rw [h.maximum, h.read, ← UInt32.ofNat_sub hle, UInt32.toNat_ofNat']
    exact Nat.mod_eq_of_lt (by rw [uint32Size] at hmax; omega)
  rw [CLockFreeQueue.contents, hcount]
  apply List.ext_getElem
  · simp
  · intro i hi hi'
    have hin : i < pushed.length - popped := by simpa using hi
    have hlt : popped + i < pushed.length := by omega
    have hx : pushed[popped + i]? = some pushed[popped + i] := List.getElem?_eq_getElem hlt
    have hslot := h.slots_kept (Nat.le_add_right popped i) hx fun _ => by omega
    rw [List.getElem_map, List.getElem_range, List.getElem_drop, h.read, ← UInt32.ofNat_add,
      countToIndex_ofNat]
    exact hslot

end Rel

/-! ## A queue that says it is full with `2^24 - 1` elements -/

/-- Elements go through an empty queue one by one, then it is filled. -/
def fillCalls (passing pushes : Nat) : List (Call Nat) :=
  (List.replicate passing [.push 0, .pop]).flatten ++
    (List.replicate pushes (.push 0) ++ [.push 0])

theorem allFit_passing {x : α} {rest : List (Call α)} (n popped : Nat)
    (h : Fifo.AllFit [] popped ((List.replicate n [.push x, .pop]).flatten ++ rest)) :
    Fifo.AllFit [] (popped + n) rest := by
  induction n generalizing popped with
  | zero => exact h
  | succ n ih =>
      have hpush : (Fifo.call [] (.push x)).1 = [x] := by
        rw [Fifo.call, List.length_nil, if_neg (by decide : ¬0 = queueLen - 1)]
        rfl
      rw [List.replicate_succ, List.flatten_cons, List.append_assoc] at h
      obtain ⟨_, hrest⟩ := h
      rw [hpush] at hrest
      have hnext := ih (popped + 1) hrest.2
      rw [Nat.add_assoc, Nat.add_comm 1 n] at hnext
      exact hnext

theorem allFit_pushes {x : α} {rest : List (Call α)} {popped : Nat} (n : Nat)
    {elements : List α} (hroom : elements.length + n < queueLen)
    (h : Fifo.AllFit elements popped (List.replicate n (.push x) ++ rest)) :
    ∃ elements' : List α, elements'.length = elements.length + n ∧
      Fifo.AllFit elements' popped rest := by
  induction n generalizing elements with
  | zero => exact ⟨elements, rfl, h⟩
  | succ n ih =>
      have hpush : (Fifo.call elements (.push x)).1 = elements ++ [x] := by
        rw [Fifo.call, if_neg (by omega)]
      rw [List.replicate_succ, List.cons_append] at h
      obtain ⟨_, hrest⟩ := h
      rw [hpush] at hrest
      have hlen : (elements ++ [x]).length = elements.length + 1 := by simp
      obtain ⟨elements', hlen', hall⟩ := ih (by omega) hrest
      exact ⟨elements', by omega, hall⟩

theorem not_replies_fill :
    (CLockFreeQueue.new fun _ => 0).replies (fillCalls 0xFF000000 0xFFFFFF) ≠
      some (Fifo.replies [] (fillCalls 0xFF000000 0xFFFFFF)) := by
  intro hsame
  have hall := ((rel_new fun _ => 0).replies _).mp hsame
  have hfill := allFit_passing 0xFF000000 0 hall
  obtain ⟨elements, hlen, hlast⟩ := allFit_pushes 0xFFFFFF (by decide) hfill
  have hcount : elements.length = 0xFFFFFF := by
    rw [hlen, List.length_nil, Nat.zero_add]
  have hcross : Crosses uint32Size (0 + 0xFF000000) (0 + 0xFF000000 + elements.length + 1) := by
    rw [hcount]
    decide
  have hne := (hlast.1 hcross).1
  rw [hcount] at hne
  exact hne rfl

end CmdTran
