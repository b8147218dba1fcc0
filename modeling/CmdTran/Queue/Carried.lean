import CmdTran.Queue.Refinement
import CmdTran.Queue.Threads

/-!
# What comes out was put in

A `Pop` returns no slot that nothing has been stored into, and so whatever holds of all elements that are
pushed holds of all that are taken. This is so however often the counters have wrapped.
-/

namespace CmdTran

variable {ι α : Type}

namespace Threads

/-- What a thread has of the queue: an element that it pushes or has copied is `ok`, and so is the slot that
it commits; an index that it has loaded is that of one of `n` elements, or of the next. -/
def CarriesAt (ok : α → Prop) (q : CLockFreeQueue α) (n : Nat) : ThreadStage α → Prop
  | .pushing x | .pushLoaded x _ | .reserving x _ | .storing x _ | .subtracting x => ok x
  | .committing w => ok (q.slots (countToIndex w))
  | .popLoaded r => ∃ k ≤ n, r = UInt32.ofNat k
  | .copying r => ∃ k < n, r = UInt32.ofNat k
  | .taking r x => ok x ∧ ∃ k < n, r = UInt32.ofNat k
  | .idle | .adding | .popping => True

/-- The slots of the `n` elements that have been committed so far all have an element that is `ok`. -/
structure Carries (ok : α → Prop) (s : Threads ι α) (n : Nat) : Prop where
  maximum : s.queue.maximumReadIndex = UInt32.ofNat n
  read : ∃ k ≤ n, s.queue.readIndex = UInt32.ofNat k
  slots : ∀ k < n, ok (s.queue.slots (slotOf k))
  stages : ∀ i, CarriesAt ok s.queue n (s.stage i)

/-- How many elements a step makes visible. -/
def commits (s s' : Threads ι α) : Nat :=
  if s'.queue.maximumReadIndex = s.queue.maximumReadIndex then 0 else 1

variable {ok : α → Prop} {s s₁ : Threads ι α} {q q' : CLockFreeQueue α} {n : Nat} {i : ι}
  {stage stage' : ThreadStage α}

theorem CarriesAt.mono (h : CarriesAt ok q n stage) (hslots : ∀ k, ok (q.slots k) → ok (q'.slots k))
    {m : Nat} (hm : n ≤ m) : CarriesAt ok q' m stage := by
  cases stage with
  | committing w => exact hslots _ h
  | popLoaded r =>
      obtain ⟨k, hk, hr⟩ := h
      exact ⟨k, hk.trans hm, hr⟩
  | copying r =>
      obtain ⟨k, hk, hr⟩ := h
      exact ⟨k, hk.trans_le hm, hr⟩
  | taking r x =>
      obtain ⟨hx, k, hk, hr⟩ := h
      exact ⟨hx, k, hk.trans_le hm, hr⟩
  | _ => exact h

variable [DecidableEq ι]

/-- A step that commits nothing. -/
theorem Carries.set (h : Carries ok s n) (hsame : s₁.stage = s.stage)
    (hmaximum : s₁.queue.maximumReadIndex = s.queue.maximumReadIndex)
    (hread : ∃ k ≤ n, s₁.queue.readIndex = UInt32.ofNat k)
    (hslots : ∀ k, ok (s.queue.slots k) → ok (s₁.queue.slots k))
    (hstage : CarriesAt ok s₁.queue n stage') :
    Carries ok (s₁.goto i stage') (n + s.commits (s₁.goto i stage')) := by
  have hnone : s.commits (s₁.goto i stage') = 0 := if_pos hmaximum
  rw [hnone]
  refine ⟨hmaximum.trans h.maximum, hread, fun k hk => hslots _ (h.slots k hk), ?_⟩
  intro j
  simp only [goto, Function.update_apply, hsame]
  split
  · exact hstage
  · exact (h.stages j).mono hslots le_rfl

/-- The thread goes to another stage. -/
theorem Carries.go (h : Carries ok s n) (hstage : CarriesAt ok s.queue n stage') :
    Carries ok (s.goto i stage') (n + s.commits (s.goto i stage')) :=
  h.set rfl rfl h.read (fun _ hk => hk) hstage

theorem add_one_ne (w : UInt32) : w + 1 ≠ w := by
  intro h
  have hnat := congrArg UInt32.toNat h
  have hlt := w.toNat_lt
  have hadd : (w + 1).toNat = (w.toNat + 1) % 0x100000000 := UInt32.toNat_add w 1
  omega

/-- The CAS on `m_maximumReadIndex` -/
theorem Carries.commit (h : Carries ok s n) (hslot : ok (s.queue.slots (slotOf n))) :
    Carries ok (s.commit.goto i .adding) (n + s.commits (s.commit.goto i .adding)) := by
  have hone : s.commits (s.commit.goto i .adding) = 1 := if_neg (add_one_ne _)
  rw [hone]
  obtain ⟨k, hk, hread⟩ := h.read
  refine ⟨?_, ⟨k, Nat.le_succ_of_le hk, hread⟩, ?_, ?_⟩
  · change s.queue.maximumReadIndex + 1 = UInt32.ofNat (n + 1)
    rw [h.maximum, ofNat_succ]
  · intro k hk
    rcases Nat.lt_succ_iff_lt_or_eq.mp hk with hlt | rfl
    · exact h.slots k hlt
    · exact hslot
  · intro j
    simp only [Threads.commit, goto, Function.update_apply]
    split
    · trivial
    · exact (h.stages j).mono (fun _ hk => hk) (Nat.le_succ n)

theorem Carries.move (h : Carries ok s n) (hmove : Move s stage s₁ stage') (hstage : s.stage i = stage) :
    Carries ok (s₁.goto i stage') (n + s.commits (s₁.goto i stage')) := by
  have hat := h.stages i
  rw [hstage] at hat
  cases hmove with
  | commit =>
      rw [CarriesAt, h.maximum, countToIndex_ofNat] at hat
      exact h.commit hat
  | store data w =>
      have hslots : ∀ k, ok (s.queue.slots k) → ok ((s.store w data).queue.slots k) := by
        intro k hk
        simp only [store, Function.update_apply]
        split
        · exact hat
        · exact hk
      refine h.set rfl rfl h.read hslots ?_
      simp only [CarriesAt, store, Function.update_self]
      exact hat
  | take data =>
      obtain ⟨hdata, k, hk, hread⟩ := hat
      refine h.set rfl rfl ⟨k + 1, hk, ?_⟩ (fun _ hslot => hslot) hdata
      change s.queue.readIndex + 1 = UInt32.ofNat (k + 1)
      rw [hread, ofNat_succ]
  | notEmpty r htest =>
      obtain ⟨k, hk, rfl⟩ := hat
      refine h.go ⟨k, Nat.lt_of_le_of_ne hk ?_, rfl⟩
      -- the test compares slots, and an index has one slot
      rintro rfl
      exact htest (by rw [h.maximum])
  | copy r =>
      obtain ⟨k, hk, rfl⟩ := hat
      refine h.go ⟨?_, k, hk, rfl⟩
      rw [countToIndex_ofNat]
      exact h.slots k hk
  | loadRead => exact h.go h.read
  | loadWrite | notFull | retryPush => exact h.go hat
  | reserve data => exact h.set rfl rfl h.read (fun _ hslot => hslot) hat
  | spin w => exact h.go hat
  | add | sub => exact h.set rfl rfl h.read (fun _ hslot => hslot) trivial
  | full | empty | retryPop => exact h.go trivial

/-- A call begins. -/
theorem Carries.enter (h : Carries ok s n) {c : Call α} (hc : ∀ x, c = .push x → ok x) :
    Carries ok (s.goto i (enter c)) (n + s.commits (s.goto i (enter c))) := by
  cases c with
  | push x => exact h.go (hc x rfl)
  | pop => exact h.go trivial

end Threads

end CmdTran
