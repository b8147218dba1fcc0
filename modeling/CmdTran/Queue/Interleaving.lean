import Mathlib.Data.Nat.ModEq
import CmdTran.Queue.Threads

/-!
# Every interleaving

As long as no index has wrapped, the queue keeps its bounds and its elements whatever the threads do.
Each thread remembers loads that may be old; what it may still conclude from them is in `Local`.
-/

namespace CmdTran

variable {ι α : Type}

/-! ## Counts -/

theorem countToIndex_ne {m n : UInt32} (hlt : m.toNat < n.toNat)
    (hdist : n.toNat < m.toNat + queueLen) : countToIndex m ≠ countToIndex n := by
  intro heq
  have hdvd := (Nat.modEq_iff_dvd' (Nat.le_of_lt hlt)).mp heq
  have hle := Nat.le_of_dvd (by omega) hdvd
  omega

theorem countToIndex_ne_of_ne {m n : UInt32} {k : Nat} (hne : m ≠ n) (hm : k ≤ m.toNat)
    (hm' : m.toNat < k + queueLen) (hn : k ≤ n.toNat) (hn' : n.toNat < k + queueLen) :
    countToIndex m ≠ countToIndex n := by
  rcases Nat.lt_or_gt_of_ne (fun heq => hne (UInt32.toNat_inj.mp heq)) with hlt | hgt
  · exact countToIndex_ne hlt (by omega)
  · exact (countToIndex_ne hgt (by omega)).symm

theorem toNat_succ {n : UInt32} (h : n.toNat + 1 < 0x100000000) : (n + 1).toNat = n.toNat + 1 := by
  rw [UInt32.toNat_add]
  exact Nat.mod_eq_of_lt h

/-- The place that the thread has reserved and not committed. -/
def ThreadStage.owned : ThreadStage α → Option UInt32
  | storing _ w | committing w => some w
  | _ => none

namespace Threads

/-! ## What a thread knows -/

/-- A load says something of the present while the index has not moved on. -/
def Local (s : Threads ι α) : ThreadStage α → Prop
  | .pushLoaded _ w => w.toNat ≤ s.reserved.length
  | .reserving _ w => w.toNat ≤ s.reserved.length ∧
      (w.toNat = s.reserved.length → s.reserved.length + 1 < 0x100000000 →
        s.reserved.length + 1 < s.taken.length + queueLen)
  | .storing data w => s.queue.maximumReadIndex.toNat ≤ w.toNat ∧ s.reserved[w.toNat]? = some data
  | .committing w => s.queue.maximumReadIndex.toNat ≤ w.toNat ∧
      s.reserved[w.toNat]? = some (s.queue.slots (countToIndex w))
  | .popLoaded r => r.toNat ≤ s.taken.length
  | .copying r => r.toNat ≤ s.taken.length ∧
      (r.toNat = s.taken.length → s.taken.length < s.queue.maximumReadIndex.toNat)
  | .taking r data => r.toNat ≤ s.taken.length ∧
      (r.toNat = s.taken.length → s.taken.length < s.queue.maximumReadIndex.toNat ∧
        s.reserved[s.taken.length]? = some data)
  | _ => True

structure Inv (s : Threads ι α) : Prop where
  few : s.reserved.length < 0x100000000
  write : s.queue.writeIndex.toNat = s.reserved.length
  read : s.queue.readIndex.toNat = s.taken.length
  read_le : s.taken.length ≤ s.queue.maximumReadIndex.toNat
  le_write : s.queue.maximumReadIndex.toNat ≤ s.reserved.length
  room : s.reserved.length < s.taken.length + queueLen
  taken : s.taken <+: s.reserved
  slots : ∀ c : UInt32, s.taken.length ≤ c.toNat → c < s.queue.maximumReadIndex →
    s.reserved[c.toNat]? = some (s.queue.slots (countToIndex c))
  stages : ∀ i, Local s (s.stage i)
  owners : ∀ i j w, (s.stage i).owned = some w → (s.stage j).owned = some w → i = j

variable {s : Threads ι α}

theorem inv_start (junk : Nat → α) : Inv (start junk : Threads ι α) :=
  ⟨(by decide : 0 < 0x100000000), rfl, rfl, Nat.le_refl 0, Nat.le_refl 0,
    (by decide : 0 < 0 + queueLen), List.nil_prefix, fun c _ hc => absurd hc (Nat.not_lt_zero _),
    fun _ => trivial, fun _ _ _ h => nomatch h⟩

theorem Inv.bounded (h : Inv s) : Bounded s.queue := by
  have hroom := h.room
  refine ⟨?_, ?_, ?_⟩
  · rw [h.read]
    exact h.read_le
  · rw [h.write]
    exact h.le_write
  · rw [h.write, h.read]
    omega

/-- A reserved place is behind the committed ones. -/
theorem Inv.owned (h : Inv s) {i : ι} {w : UInt32} (howned : (s.stage i).owned = some w) :
    s.queue.maximumReadIndex.toNat ≤ w.toNat ∧ w.toNat < s.reserved.length := by
  have hlocal := h.stages i
  cases hstage : s.stage i with
  | storing | committing =>
      rw [hstage] at hlocal howned
      cases howned
      exact ⟨hlocal.1, (List.getElem?_eq_some_iff.mp hlocal.2).1⟩
  | _ =>
      rw [hstage] at howned
      cases howned

/-! ## The steps of one thread seen from the others -/

namespace Inv

theorem reserve (h : Inv s) (data : α) (hfew : s.reserved.length + 1 < 0x100000000)
    (hroom : s.reserved.length + 1 < s.taken.length + queueLen) : Inv (s.reserve data) := by
  have hlen : (s.reserved ++ [data]).length = s.reserved.length + 1 := by simp
  have hkeep : ∀ {n : Nat} {x : α}, s.reserved[n]? = some x →
      (s.reserved ++ [data])[n]? = some x := by
    intro n x hx
    rw [List.getElem?_append_left (List.getElem?_eq_some_iff.mp hx).1]
    exact hx
  refine ⟨hlen ▸ hfew, ?_, h.read, h.read_le, ?_, hlen ▸ hroom,
    h.taken.trans (List.prefix_append _ _), ?_, ?_, h.owners⟩
  · have hwrite := h.write
    dsimp only [Threads.reserve]
    rw [toNat_succ (by omega), hwrite, hlen]
  · have hle := h.le_write
    dsimp only [Threads.reserve]
    omega
  · intro c hc hc'
    exact hkeep (h.slots c hc hc')
  · intro i
    have hlocal := h.stages i
    dsimp only [Threads.reserve] at hlocal ⊢
    cases hstage : s.stage i with
    | idle | pushing | adding | popping | subtracting => trivial
    | pushLoaded =>
        rw [hstage] at hlocal
        exact (Nat.le_succ_of_le hlocal).trans_eq hlen.symm
    | reserving data' w =>
        rw [hstage] at hlocal
        refine ⟨hlen ▸ Nat.le_succ_of_le hlocal.1, ?_⟩
        intro heq
        have hle := hlocal.1
        dsimp only at heq
        omega
    | storing | committing =>
        rw [hstage] at hlocal
        exact ⟨hlocal.1, hkeep hlocal.2⟩
    | popLoaded | copying =>
        rw [hstage] at hlocal
        exact hlocal
    | taking =>
        rw [hstage] at hlocal
        exact ⟨hlocal.1, fun heq => ⟨(hlocal.2 heq).1, hkeep (hlocal.2 heq).2⟩⟩

/-- An element goes to a place that no committed element and no other thread has. -/
theorem slot_ne (h : Inv s) {i : ι} {w c : UInt32} (howned : (s.stage i).owned = some w)
    (hne : c ≠ w) (hc : s.taken.length ≤ c.toNat) (hc' : c.toNat < s.reserved.length) :
    countToIndex c ≠ countToIndex w := by
  have hroom := h.room
  have hread := h.read_le
  obtain ⟨hw, hw'⟩ := h.owned howned
  exact countToIndex_ne_of_ne hne hc (by omega) (by omega) (by omega)

theorem store (h : Inv s) {i : ι} {w : UInt32} {data : α}
    (hstage : s.stage i = .storing data w) : Inv (s.store w data) := by
  have howned : (s.stage i).owned = some w := by
    rw [hstage]
    rfl
  have hbounds := h.owned howned
  refine ⟨h.few, h.write, h.read, h.read_le, h.le_write, h.room, h.taken, ?_, ?_, h.owners⟩
  · intro c hc hc'
    have hc' : c.toNat < s.queue.maximumReadIndex.toNat := hc'
    have hne : c ≠ w := by
      rintro rfl
      omega
    dsimp only [Threads.store]
    rw [Function.update_of_ne (h.slot_ne howned hne hc (by omega))]
    exact h.slots c hc hc'
  · intro j
    have hlocal := h.stages j
    dsimp only [Threads.store] at hlocal ⊢
    cases hj : s.stage j with
    | committing w' =>
        rw [hj] at hlocal
        have hother : (s.stage j).owned = some w' := by
          rw [hj]
          rfl
        have hbounds' := h.owned hother
        have hread := h.read_le
        have hne : w' ≠ w := by
          rintro rfl
          cases h.owners i j _ howned hother
          cases hstage.symm.trans hj
        refine ⟨hlocal.1, ?_⟩
        dsimp only
        rw [Function.update_of_ne (h.slot_ne howned hne (by omega) (by omega))]
        exact hlocal.2
    | _ =>
        rw [hj] at hlocal
        exact hlocal

theorem commit (h : Inv s) (hle : s.queue.maximumReadIndex.toNat < s.reserved.length)
    (hslot : s.reserved[s.queue.maximumReadIndex.toNat]? =
      some (s.queue.slots (countToIndex s.queue.maximumReadIndex)))
    (howned : ∀ i, (s.stage i).owned ≠ some s.queue.maximumReadIndex) : Inv s.commit := by
  have hfew := h.few
  have hread := h.read_le
  have hnext : (s.queue.maximumReadIndex + 1).toNat = s.queue.maximumReadIndex.toNat + 1 :=
    toNat_succ (by omega)
  refine ⟨h.few, h.write, h.read, ?_, ?_, h.room, h.taken, ?_, ?_, h.owners⟩
  · dsimp only [Threads.commit]
    omega
  · dsimp only [Threads.commit]
    omega
  · intro c hc hc'
    have hc' : c.toNat < s.queue.maximumReadIndex.toNat + 1 := hnext ▸ hc'
    rcases Nat.lt_or_eq_of_le (Nat.le_of_lt_succ hc') with hlt | heq
    · exact h.slots c hc hlt
    · rw [UInt32.toNat_inj.mp heq]
      exact hslot
  · intro i
    have hlocal := h.stages i
    have hbehind : ∀ w, (s.stage i).owned = some w →
        (s.queue.maximumReadIndex + 1).toNat ≤ w.toNat := by
      intro w hw
      have hge := (h.owned hw).1
      have hne : s.queue.maximumReadIndex.toNat ≠ w.toNat := by
        intro heq
        rw [UInt32.toNat_inj.mp heq] at howned
        exact howned i hw
      omega
    dsimp only [Threads.commit] at hlocal ⊢
    cases hstage : s.stage i with
    | storing data w =>
        rw [hstage] at hlocal hbehind
        exact ⟨hbehind w rfl, hlocal.2⟩
    | committing w =>
        rw [hstage] at hlocal hbehind
        exact ⟨hbehind w rfl, hlocal.2⟩
    | copying r =>
        rw [hstage] at hlocal
        refine ⟨hlocal.1, ?_⟩
        intro heq
        have hlt := hlocal.2 heq
        dsimp only
        omega
    | taking r data =>
        rw [hstage] at hlocal
        refine ⟨hlocal.1, ?_⟩
        intro heq
        obtain ⟨hlt, hdata⟩ := hlocal.2 heq
        refine ⟨?_, hdata⟩
        dsimp only
        omega
    | _ =>
        rw [hstage] at hlocal
        exact hlocal

theorem take (h : Inv s) {data : α} (hlt : s.taken.length < s.queue.maximumReadIndex.toNat)
    (hdata : s.reserved[s.taken.length]? = some data) : Inv (s.take data) := by
  have hlen : (s.taken ++ [data]).length = s.taken.length + 1 := by simp
  have hfew := h.few
  have hread := h.read
  have hle := h.le_write
  have hroom := h.room
  refine ⟨h.few, h.write, ?_, ?_, h.le_write, ?_, ?_, ?_, ?_, h.owners⟩
  · dsimp only [Threads.take]
    rw [toNat_succ (by omega), hread, hlen]
  · dsimp only [Threads.take]
    omega
  · dsimp only [Threads.take]
    omega
  · obtain ⟨hin, hget⟩ := List.getElem?_eq_some_iff.mp hdata
    have hinit := List.prefix_iff_eq_take.mp h.taken
    dsimp only [Threads.take]
    rw [hinit, ← hget, List.take_append_getElem]
    exact List.take_prefix _ _
  · intro c hc
    dsimp only [Threads.take] at hc
    exact h.slots c (by omega)
  · intro i
    have hlocal := h.stages i
    dsimp only [Threads.take] at hlocal ⊢
    cases hstage : s.stage i with
    | reserving data' w =>
        rw [hstage] at hlocal
        refine ⟨hlocal.1, ?_⟩
        intro heq hfew'
        have hold := hlocal.2 heq hfew'
        dsimp only
        omega
    | popLoaded r =>
        rw [hstage] at hlocal
        exact (Nat.le_succ_of_le hlocal).trans_eq hlen.symm
    | copying r =>
        rw [hstage] at hlocal
        refine ⟨hlen ▸ Nat.le_succ_of_le hlocal.1, ?_⟩
        intro heq
        have hle' := hlocal.1
        dsimp only at heq
        omega
    | taking r data' =>
        rw [hstage] at hlocal
        refine ⟨hlen ▸ Nat.le_succ_of_le hlocal.1, ?_⟩
        intro heq
        have hle' := hlocal.1
        dsimp only at heq
        omega
    | _ =>
        rw [hstage] at hlocal
        exact hlocal

theorem setSize (h : Inv s) (size : UInt32) : Inv (s.setSize size) := by
  refine ⟨h.few, h.write, h.read, h.read_le, h.le_write, h.room, h.taken, h.slots, ?_, h.owners⟩
  intro i
  have hlocal := h.stages i
  dsimp only [Threads.setSize] at hlocal ⊢
  cases hstage : s.stage i <;> rw [hstage] at hlocal <;> exact hlocal

/-! ## What the tests say -/

/-- The index that `Push` tests is at most `QUEUE_LEN` ahead of the one it compares it with. -/
theorem not_full (h : Inv s) {w : UInt32} (hw : w.toNat = s.reserved.length)
    (hfew : s.reserved.length + 1 < 0x100000000)
    (htest : countToIndex (w + 1) ≠ countToIndex s.queue.readIndex) :
    s.reserved.length + 1 < s.taken.length + queueLen := by
  have hroom := h.room
  by_contra hfull
  have heq : s.reserved.length + 1 = s.taken.length + queueLen := by omega
  apply htest
  rw [countToIndex, countToIndex, toNat_succ (by omega), hw, h.read, heq]
  exact Nat.add_mod_right _ _

theorem not_empty (h : Inv s) {r : UInt32} (hr : r.toNat = s.taken.length)
    (htest : countToIndex r ≠ countToIndex s.queue.maximumReadIndex) :
    s.taken.length < s.queue.maximumReadIndex.toNat := by
  have hle := h.read_le
  rcases Nat.lt_or_eq_of_le hle with hlt | heq
  · exact hlt
  · rw [UInt32.toNat_inj.mp (hr.trans heq)] at htest
    exact absurd rfl htest

/-- What is read from the slot of the next element while nobody has taken it is that element. -/
theorem copied (h : Inv s) {r : UInt32} (hr : r.toNat = s.taken.length)
    (hlt : s.taken.length < s.queue.maximumReadIndex.toNat) :
    s.reserved[s.taken.length]? = some (s.queue.slots (countToIndex r)) := by
  rw [← hr]
  apply h.slots r (Nat.le_of_eq hr.symm)
  rw [← hr] at hlt
  exact hlt

/-! ## The stage of one thread -/

variable [DecidableEq ι]

theorem goto (h : Inv s) (i : ι) (stage : ThreadStage α) (hlocal : Local s stage)
    (howned : ∀ w j, stage.owned = some w → j ≠ i → (s.stage j).owned ≠ some w) :
    Inv (s.goto i stage) := by
  refine ⟨h.few, h.write, h.read, h.read_le, h.le_write, h.room, h.taken, h.slots, ?_, ?_⟩
  · intro j
    have hj : Local s ((s.goto i stage).stage j) := by
      simp only [Threads.goto, Function.update_apply]
      split
      · exact hlocal
      · exact h.stages j
    cases hstage : (s.goto i stage).stage j <;> rw [hstage] at hj <;> exact hj
  · intro j k w hj hk
    simp only [Threads.goto, Function.update_apply] at hj hk
    split at hj
    · rename_i heq
      split at hk
      · rename_i heq'
        rw [heq, heq']
      · rename_i hne
        exact absurd hk (howned w k hj hne)
    · rename_i hne
      split at hk
      · exact absurd hj (howned w j hk hne)
      · exact h.owners j k w hj hk

/-- The thread goes on to a stage in which it owns no place. -/
theorem leave (h : Inv s) (i : ι) (stage : ThreadStage α) (hlocal : Local s stage)
    (hnone : stage.owned = none) : Inv (s.goto i stage) :=
  h.goto i stage hlocal fun w _ hw => by rw [hnone] at hw; cases hw

/-! ## One step -/

theorem move (h : Inv s) {i : ι} {s₁ : Threads ι α} {stage stage' : ThreadStage α}
    (hmove : Move s stage s₁ stage') (hstage : s.stage i = stage)
    (hfew : s₁.reserved.length < 0x100000000) : Inv (s₁.goto i stage') := by
  have hlocal := h.stages i
  rw [hstage] at hlocal
  cases hmove with
  | loadWrite => exact h.leave i _ (Nat.le_of_eq h.write) rfl
  | full | retryPush | empty | retryPop => exact h.leave i _ trivial rfl
  | notFull data w htest =>
      exact h.leave i _ ⟨hlocal, fun heq hfew' => h.not_full heq hfew' htest⟩ rfl
  | reserve data =>
      have hlen : (s.reserved ++ [data]).length = s.reserved.length + 1 := by simp
      have hfew' : s.reserved.length + 1 < 0x100000000 := hlen ▸ hfew
      have hnext := h.reserve data hfew' (hlocal.2 h.write hfew')
      have hmax := h.le_write
      have hwrite := h.write
      apply hnext.goto i
      · refine ⟨?_, ?_⟩
        · dsimp only [Threads.reserve]
          omega
        · dsimp only [Threads.reserve]
          rw [hwrite, List.getElem?_concat_length]
      · intro w' j hown hne hother
        cases hown
        have hbounds := h.owned (i := j) hother
        omega
  | store data w =>
      have hnext := h.store hstage
      apply hnext.goto i
      · refine ⟨hlocal.1, ?_⟩
        dsimp only [Threads.store]
        rw [Function.update_self]
        exact hlocal.2
      · intro w' j hown hne hother
        cases hown
        exact hne (h.owners j i w hother (by rw [hstage]; rfl))
  | commit =>
      have howned : (s.stage i).owned = some s.queue.maximumReadIndex := by
        rw [hstage]
        rfl
      have hadd := h.leave i .adding trivial rfl
      have hothers : ∀ j, ((s.goto i .adding).stage j).owned ≠ some s.queue.maximumReadIndex := by
        intro j hj
        simp only [Threads.goto, Function.update_apply] at hj
        split at hj
        · cases hj
        · rename_i hne
          exact hne (h.owners j i _ hj howned)
      exact hadd.commit (h.owned howned).2 hlocal.2 hothers
  | spin w =>
      apply h.goto i _ hlocal
      intro w' j hown hne hother
      cases hown
      exact hne (h.owners j i w hother (by rw [hstage]; rfl))
  | loadRead => exact h.leave i _ (Nat.le_of_eq h.read) rfl
  | notEmpty r htest => exact h.leave i _ ⟨hlocal, fun heq => h.not_empty heq htest⟩ rfl
  | copy r =>
      refine h.leave i _ ⟨hlocal.1, ?_⟩ rfl
      intro heq
      exact ⟨hlocal.2 heq, h.copied heq (hlocal.2 heq)⟩
  | take data =>
      obtain ⟨hlt, hdata⟩ := hlocal.2 h.read
      exact (h.take hlt hdata).leave i _ trivial rfl
  | add | sub => exact (h.setSize _).leave i _ trivial rfl

theorem step (h : Inv s) {a : ThreadStep ι α} {s' : Threads ι α} (hs : s.step a = some s')
    (hfew : s'.reserved.length < 0x100000000) : Inv s' := by
  rcases step_cases hs with ⟨i, c, _, _, rfl⟩ | ⟨i, s₁, stage, _, hmove, rfl⟩
  · cases c with
    | push => exact h.leave i _ trivial rfl
    | pop => exact h.leave i _ trivial rfl
  · exact h.move hmove rfl hfew

/-- Only a store changes a slot, and not one of an element that is still to be taken. -/
theorem keepsUnread (h : Inv s) {a : ThreadStep ι α} {s' : Threads ι α}
    (hs : s.step a = some s') : KeepsUnread s.queue s'.queue := by
  intro c hc hc'
  rcases step_cases hs with ⟨i, _, _, _, rfl⟩ | ⟨i, s₁, stage, _, hmove, rfl⟩
  · rfl
  · generalize hstage : s.stage i = old at hmove
    cases hmove with
    | store data w =>
        have howned : (s.stage i).owned = some w := by
          rw [hstage]
          rfl
        have hbounds := h.owned howned
        have hread := h.read
        have hc : s.queue.readIndex.toNat ≤ c.toNat := hc
        have hc' : c.toNat < s.queue.maximumReadIndex.toNat := hc'
        have hne : c ≠ w := by
          rintro rfl
          omega
        exact Function.update_of_ne (h.slot_ne howned hne (by omega) (by omega)) _ _
    | _ => rfl

end Inv

/-! ## Runs -/

variable [DecidableEq ι]

theorem reserved_le_of_step {a : ThreadStep ι α} {s' : Threads ι α} (hs : s.step a = some s') :
    s.reserved.length ≤ s'.reserved.length := by
  rcases step_cases hs with ⟨i, _, _, _, rfl⟩ | ⟨i, s₁, stage, _, hmove, rfl⟩
  · exact Nat.le_refl _
  · exact hmove.reserved_le

theorem inv_of_run {junk : Nat → α} {steps : List (ThreadStep ι α)} {s s' : Threads ι α}
    (h : s.reserved.length < 0x100000000 → Inv s)
    (hrun : (threads junk).run s steps = some s') (hfew : s'.reserved.length < 0x100000000) :
    Inv s' := by
  induction steps generalizing s with
  | nil =>
      cases hrun
      exact h hfew
  | cons a steps ih =>
      obtain ⟨s₁, hs₁, hrest⟩ := (threads junk).run_cons_eq_some.mp hrun
      apply ih _ hrest
      intro hfew₁
      have hle : s.reserved.length ≤ s₁.reserved.length := reserved_le_of_step hs₁
      exact (h (by omega)).step hs₁ hfew₁

/-- In every interleaving in which fewer than `2^32` pushes have reserved a place: the indices are in
order, the next step overwrites no element that is still to be taken, and what the calls of `Pop` took
is what the calls of `Push` reserved places for, in the same order. -/
theorem queue_of_run (junk : Nat → α) {steps : List (ThreadStep ι α)} {s : Threads ι α}
    (hrun : (threads junk).run (start junk) steps = some s)
    (hfew : s.reserved.length < 0x100000000) :
    Bounded s.queue ∧ s.taken <+: s.reserved ∧
      ∀ a s', s.step a = some s' → KeepsUnread s.queue s'.queue := by
  have hinv := inv_of_run (fun _ => inv_start junk) hrun hfew
  exact ⟨hinv.bounded, hinv.taken, fun a s' hs => hinv.keepsUnread hs⟩

/-- A push of 7, overtaken by a pop and then a second push before its commit. -/
def twoPushes : List (ThreadStep Nat Nat) :=
  [.call 0 (.push 7), .goOn 0, .goOn 0, .goOn 0, .call 1 .pop, .goOn 1, .goOn 1,
    .call 1 (.push 8), .goOn 1, .goOn 1, .goOn 1, .goOn 1, .goOn 1, .goOn 0, .goOn 0, .goOn 1,
    .call 2 .pop, .goOn 2, .goOn 2, .goOn 2, .goOn 2]

theorem queue_of_run_twoPushes :
    ∃ s, (threads fun _ => 0).run (start fun _ => 0) twoPushes = some s ∧ s.taken = [7] ∧
      s.reserved = [7, 8] ∧ Bounded s.queue ∧ s.taken <+: s.reserved ∧
      ∀ a s', s.step a = some s' → KeepsUnread s.queue s'.queue := by
  have hlists : ((threads fun _ => 0).run (start fun _ => 0) twoPushes).map
      (fun s => (s.taken, s.reserved)) = some ([7], [7, 8]) := by
    decide +kernel
  obtain ⟨s, hrun, hs⟩ := Option.map_eq_some_iff.mp hlists
  obtain ⟨htaken, hreserved⟩ := Prod.mk.inj hs
  refine ⟨s, hrun, htaken, hreserved, queue_of_run (fun _ => 0) hrun ?_⟩
  rw [hreserved]
  decide

end Threads

end CmdTran
