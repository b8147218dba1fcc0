import CmdTran.Queue.Refinement

/-!
# What the queue can give out

`Pop` gives out nothing but what some `Push` put in. This holds also where the wrapped counters make two
elements share a slot.
-/

namespace CmdTran

open Wrapping

variable {α : Type} {P : α → Prop}

/-- After `popped` elements `n` more are in the slots, and all of them are of the kind. -/
structure Window (P : α → Prop) (q : CLockFreeQueue α) (popped n : Nat) : Prop where
  write : q.writeIndex = UInt32.ofNat (popped + n)
  maximum : q.maximumReadIndex = UInt32.ofNat (popped + n)
  read : q.readIndex = UInt32.ofNat popped
  slots : ∀ i < n, P (q.slots (slotOf (popped + i)))

theorem window_new (P : α → Prop) (junk : Nat → α) : Window P (CLockFreeQueue.new junk) 0 0 :=
  ⟨rfl, rfl, rfl, nofun⟩

/-- `Push` finds no room. -/
def CLockFreeQueue.Full (q : CLockFreeQueue α) : Prop :=
  countToIndex (q.writeIndex + 1) = countToIndex q.readIndex

instance (q : CLockFreeQueue α) : Decidable q.Full := inferInstanceAs (Decidable (_ = _))

/-- `Push` takes an element unless the queue is full, and a full queue stays as it is. -/
theorem CLockFreeQueue.push_cases {q q' : CLockFreeQueue α} {data : α} {done : Bool}
    (h : q.push data = some (q', done)) : (done = true ↔ ¬q.Full) ∧ (done = false → q' = q) := by
  unfold push at h
  dsimp only at h
  split at h
  · rename_i hfull
    cases h
    exact ⟨iff_of_false Bool.false_ne_true (absurd hfull), fun _ => rfl⟩
  · rename_i hroom
    split at h
    · cases h
      exact ⟨iff_of_true rfl hroom, nofun⟩
    · cases h

namespace Window

variable {q q' : CLockFreeQueue α} {popped n : Nat} {data : α} {done : Bool}

theorem mono {P' : α → Prop} (h : Window P q popped n) (hP : ∀ x, P x → P' x) : Window P' q popped n :=
  ⟨h.write, h.maximum, h.read, fun i hi => hP _ (h.slots i hi)⟩

/-- There is nothing yet that could be of the wrong kind. -/
theorem of_empty {P' : α → Prop} (h : Window P q popped 0) : Window P' q popped 0 :=
  ⟨h.write, h.maximum, h.read, nofun⟩

theorem push (h : Window P q popped n) (hdata : P data) (hp : q.push data = some (q', done)) :
    Window P q' popped (if done then n + 1 else n) := by
  simp only [CLockFreeQueue.push, h.write, h.maximum, if_true] at hp
  split at hp
  · cases hp
    exact h
  · cases hp
    refine ⟨ofNat_succ _, ofNat_succ _, h.read, fun i hi => ?_⟩
    simp only [countToIndex_ofNat]
    by_cases hslot : slotOf (popped + i) = slotOf (popped + n)
    · rw [hslot, Function.update_self]
      exact hdata
    · rw [Function.update_of_ne hslot]
      apply h.slots
      have hne : i ≠ n := fun heq => hslot (by rw [heq])
      exact Nat.lt_of_le_of_ne (Nat.le_of_lt_succ hi) hne

/-- `Pop` leaves the queue as it is, or takes the first element. -/
theorem pop (h : Window P q popped n) :
    q.pop = (q, none) ∨
      ∃ x m, q.pop.2 = some x ∧ P x ∧ n = m + 1 ∧ Window P q.pop.1 (popped + 1) m := by
  cases n with
  | zero =>
      left
      simp [CLockFreeQueue.pop, h.read, h.maximum]
  | succ m =>
      unfold CLockFreeQueue.pop
      dsimp only
      split
      · exact .inl rfl
      · refine .inr ⟨_, m, rfl, ?_, rfl, ?_⟩
        · rw [h.read, countToIndex_ofNat]
          exact h.slots 0 (Nat.succ_pos m)
        · have hnext : popped + 1 + m = popped + (m + 1) := by omega
          refine ⟨?_, ?_, ?_, fun i hi => ?_⟩
          · rw [hnext]
            exact h.write
          · rw [hnext]
            exact h.maximum
          · dsimp only
            rw [h.read, ofNat_succ]
          · have hi' : popped + 1 + i = popped + (i + 1) := by omega
            rw [hi']
            exact h.slots (i + 1) (Nat.succ_lt_succ hi)

end Window

/-! ## Calls on fewer elements than the wrap disturbs -/

/-- With `n` elements the queue is large enough, and its counters near enough to a wrap, for two elements to
share a slot. -/
def CLockFreeQueue.Wraps (q : CLockFreeQueue α) (n : Nat) : Prop :=
  wrapShift ≤ n ∧ uint32Size ≤ q.readIndex.toNat + n

instance (q : CLockFreeQueue α) (n : Nat) : Decidable (q.Wraps n) := inferInstanceAs (Decidable (_ ∧ _))

theorem CLockFreeQueue.Wraps.mono {q : CLockFreeQueue α} {m n : Nat} (h : q.Wraps m) (hle : m ≤ n) : q.Wraps n :=
  ⟨h.1.trans hle, h.2.trans (Nat.add_le_add_left hle _)⟩

namespace Rel

variable {q : CLockFreeQueue α} {pushed : List α} {popped : Nat}

/-- Whether it wraps does not depend on what was pushed. -/
theorem wraps_iff (h : Rel q pushed popped) {q' : CLockFreeQueue α} {pushed' : List α}
    (h' : Rel q' pushed' popped) (n : Nat) : q'.Wraps n ↔ q.Wraps n := by
  rw [CLockFreeQueue.Wraps, CLockFreeQueue.Wraps, h.read, h'.read]

theorem not_crosses (h : Rel q pushed popped) {n : Nat} (hlt : q.readIndex.toNat + n < uint32Size) :
    ¬Crosses uint32Size popped (popped + n) := by
  rw [h.read, UInt32.toNat_ofNat'] at hlt
  simp only [Crosses, uint32Size] at hlt ⊢
  omega

theorem push_of_not_wraps (h : Rel q pushed popped) (data : α)
    (hwraps : ¬q.Wraps (pushed.length - popped + 1)) :
    ∃ q' done, q.push data = some (q', done) ∧
      Rel q' (if done then pushed ++ [data] else pushed) popped := by
  obtain ⟨q', done, hpush, _, hrel⟩ := h.push_call data
  refine ⟨q', done, hpush, hrel ?_⟩
  rcases Nat.lt_or_ge (pushed.length - popped + 1) wrapShift with hlt | hge
  · apply fits_push_of_lt
    rw [List.length_drop]
    exact hlt
  · intro hcrosses
    rw [List.length_drop] at hcrosses
    exact absurd hcrosses (h.not_crosses (Nat.not_le.mp fun hle => hwraps ⟨hge, hle⟩))

theorem pop_of_not_wraps (h : Rel q pushed popped) {x : α} (hx : pushed[popped]? = some x)
    (hwraps : ¬q.Wraps (pushed.length - popped)) :
    q.pop.2 = some x ∧ Rel q.pop.1 pushed (popped + 1) := by
  rcases Nat.lt_or_ge (pushed.length - popped) wrapShift with hlt | hge
  · exact h.pop_of_lt hx hlt
  · have hfits : Fits (pushed.drop popped) popped .pop := by
      intro hcrosses
      refine absurd hcrosses (h.not_crosses (Nat.not_le.mp fun hle => hwraps ⟨hge, ?_⟩))
      exact hle.trans (Nat.add_le_add_left hge _)
    exact ⟨(h.pop_call hx).1.mpr hfits, (h.pop_call hx).2 hfits⟩

end Rel

end CmdTran
