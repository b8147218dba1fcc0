import CmdTran.Pool.Users
import CmdTran.Queue.Carried

/-!
# When there is no block

`GetBlock` looks at `m_size` first, which `Push` and `Pop` count up and down only after their CAS. What its
`Pop` finds is a matter of the CASes: how many blocks have become visible, and how many had been taken when it
loaded `m_readIndex`.
-/

namespace CmdTran

variable {ι : Type}

/-- `committed` counts the CASes on `m_maximumReadIndex` that have succeeded, with those of `CreatPool`; those
on `m_readIndex` are as many as there are elements in `taken`, and `seen` has how many there were when the
thread last loaded `m_readIndex`. No step looks at these. -/
structure PoolClock (ι : Type) where
  state : PoolThreads ι
  committed : Nat
  seen : ι → Nat

namespace PoolClock

def start (p : CMemPool) : PoolClock ι :=
  ⟨.start p, p.unUsedBlockQueue.maximumReadIndex.toNat, fun _ => 0⟩

variable [DecidableEq ι]

/-- The load of `m_readIndex` is where the thread's `Pop` goes on from `popping`. -/
def see (c : PoolClock ι) : PoolStep ι → ι → Nat
  | .goOn i =>
      match c.state.calls i with
      | .popping => Function.update c.seen i c.state.taken.length
      | _ => c.seen
  | _ => c.seen

def step (c : PoolClock ι) (a : PoolStep ι) : Option (PoolClock ι) :=
  (c.state.step a).map fun s => ⟨s, c.committed + c.state.threads.commits s.threads, c.see a⟩

/-! ## What should hold -/

/-- The next step of the thread is the end of a `GetBlock` with `NULL`, which is 0. -/
def ReturnsNull (s : PoolThreads ι) (i : ι) : Prop :=
  s.returnsBlock i = some none ∨ s.returnsBlock i = some (some 0)

/-- If the step is the end of a `GetBlock` with `NULL`, the pool has been extended as often as it may
be by then: `extensions` never goes down. -/
def AtLimit (s : PoolThreads ι) : PoolStep ι → Prop
  | .goOn i => ReturnsNull s i → growCountMax ≤ s.extensions
  | _ => True

/-- The next step of the thread is the test of a `Pop` that its `GetBlock` has called. -/
def AtTest (s : PoolThreads ι) (i : ι) : Bool :=
  match s.stage i, s.calls i with
  | .popping, .popLoaded _ => true
  | _, _ => false

/-- While the pool may be extended, the `Pop` of a `GetBlock` makes its test when the blocks that have become
visible are not as many as had been taken when it loaded `m_readIndex`, nor so many more that the two come to
one slot (`slotOf_ne_iff`). -/
def FindsBlock (c : PoolClock ι) : PoolStep ι → Prop
  | .goOn i => AtTest c.state i → c.state.extensions < growCountMax →
      slotOf (c.seen i) ≠ slotOf c.committed
  | _ => True

instance (c : PoolClock ι) : (a : PoolStep ι) → Decidable (FindsBlock c a)
  | .goOn _ => inferInstanceAs (Decidable (_ → _ → _))
  | .getBlock _ | .freeBlock _ _ => inferInstanceAs (Decidable True)

/-- `FreeBlock` is not called with `NULL`. -/
def FreesBlock : PoolStep ι → Prop
  | .freeBlock _ addr => 0 < addr
  | _ => True

instance : (a : PoolStep ι) → Decidable (FreesBlock a)
  | .freeBlock _ addr => inferInstanceAs (Decidable (0 < addr))
  | .getBlock _ | .goOn _ => inferInstanceAs (Decidable True)

end PoolClock

def poolClock [DecidableEq ι] (p : CMemPool) : StepSystem (PoolClock ι) (PoolStep ι) where
  start := PoolClock.start p
  step := PoolClock.step

/-- As long as no counter has wrapped and the queue has not gone round, the slots differ when there is a
block. -/
theorem slotOf_ne_iff {seen committed : Nat} (hle : seen ≤ committed) (hlt : committed - seen < queueLen)
    (hwrap : committed < uint32Size) : slotOf seen ≠ slotOf committed ↔ seen < committed := by
  constructor
  · intro hne
    exact Nat.lt_of_le_of_ne hle fun heq => hne (congrArg slotOf heq)
  · intro hless heq
    obtain ⟨hcross, _⟩ := (slotOf_eq_iff hless hlt).mp heq
    simp only [Wrapping.Crosses, uint32Size] at hcross hwrap
    omega

namespace PoolClock

open Threads (Carries)

variable {c c' : PoolClock ι} {i : ι}

/-! ## The invariant -/

/-- The counts are those of the indices, and all blocks in the queue are blocks. -/
structure Inv (c : PoolClock ι) : Prop where
  growth : PoolThreads.Inv c.state
  carries : Carries (0 < ·) c.state.threads c.committed
  heapPos : 0 < c.state.pool.heap
  read : c.state.pool.unUsedBlockQueue.readIndex = UInt32.ofNat c.state.taken.length
  seen : ∀ i r, c.state.calls i = .popLoaded r → r = UInt32.ofNat (c.seen i)

theorem atTest_iff {s : PoolThreads ι} :
    AtTest s i ↔ s.stage i = .popping ∧ ∃ r, s.calls i = .popLoaded r := by
  constructor
  · intro h
    rw [AtTest] at h
    split at h
    · rename_i r hstage hcall
      exact ⟨hstage, r, hcall⟩
    · cases h
  · rintro ⟨hstage, r, hcall⟩
    simp only [AtTest, hstage, hcall]

/-- `ExtendPool` gives up at the limit only, and what `Pop` takes is a block; what is left is its test. -/
theorem Inv.atLimit_iff (h : Inv c) (a : PoolStep ι) : AtLimit c.state a ↔ FindsBlock c a := by
  cases a with
  | getBlock | freeBlock => exact Iff.rfl
  | goOn i =>
      have htest : ∀ r, c.state.calls i = .popLoaded r →
          (countToIndex r = countToIndex c.state.pool.unUsedBlockQueue.maximumReadIndex ↔
            slotOf (c.seen i) = slotOf c.committed) := by
        intro r hcall
        have hmaximum : c.state.pool.unUsedBlockQueue.maximumReadIndex = UInt32.ofNat c.committed :=
          h.carries.maximum
        rw [h.seen i r hcall, hmaximum, countToIndex_ofNat, countToIndex_ofNat]
      constructor
      · intro hlimit htesting hfew hslot
        obtain ⟨hstage, r, hcall⟩ := atTest_iff.mp htesting
        apply Int.not_le.mpr hfew
        apply hlimit
        have hreturns : c.state.threads.returns i = some (.popped none) :=
          PoolThreads.returns_popped_none_iff.mpr ⟨r, hcall, (htest r hcall).mpr hslot⟩
        left
        simp only [PoolThreads.returnsBlock, hstage, hreturns]
      · intro hfinds hnull
        by_contra hfew
        have hfew : c.state.extensions < growCountMax := Int.not_le.mp hfew
        rcases hnull with hnone | hzero
        · rw [PoolThreads.returnsBlock] at hnone
          split at hnone
          · split at hnone
            · rename_i hgrow
              exact absurd (Int.le_trans hgrow h.growth.growCount) (Int.not_le.mpr hfew)
            · cases hnone
          · rename_i hstage
            split at hnone
            · rename_i ret hreturns
              cases hnone
              obtain ⟨r, hcall, hempty⟩ := PoolThreads.returns_popped_none_iff.mp hreturns
              exact hfinds (atTest_iff.mpr ⟨hstage, r, hcall⟩) hfew ((htest r hcall).mp hempty)
            · cases hnone
          · cases hnone
        · have hstage : c.state.stage i = .popping := by
            by_contra hother
            have hnone := PoolThreads.returnsBlock_other hother
            rw [hzero] at hnone
            cases hnone
          have hreturned : (c.state.calls i).returned = some 0 := by
            rw [← PoolThreads.returnsBlock_popping hstage, hzero]
            rfl
          have hat := h.carries.stages i
          cases hcall : c.state.calls i <;> rw [hcall] at hreturned <;> cases hreturned
          have hpos : Threads.CarriesAt (0 < ·) c.state.pool.unUsedBlockQueue c.committed
              (c.state.calls i) := hat
          rw [hcall] at hpos
          exact absurd hpos (Nat.lt_irrefl 0)

/-! ## A new pool -/

theorem inv_start {junk : Nat → Nat} {heap : Nat} (hheap : 0 < heap) {size count step : Int} {p : CMemPool}
    (hcreat : { CMemPool.new junk with heap }.creatPool size count step = some (p, true)) :
    Inv (start p : PoolClock ι) := by
  obtain ⟨pushed, h⟩ := PoolUse.exclusive_start junk hheap hcreat
  have hcount : p.unUsedBlockQueue.maximumReadIndex.toNat = pushed.length := by
    rw [h.queue.maximum, PoolUsers.toNat_length h.queue]
  have hgrowth : PoolThreads.Inv (PoolThreads.start p : PoolThreads ι) :=
    PoolThreads.inv_start (CMemPool.creatPool_growCount rfl hcreat)
  refine ⟨hgrowth, ⟨?_, ⟨0, Nat.zero_le _, h.queue.read⟩, ?_, fun _ => trivial⟩, h.heapPos, h.queue.read, nofun⟩
  · change p.unUsedBlockQueue.maximumReadIndex = UInt32.ofNat p.unUsedBlockQueue.maximumReadIndex.toNat
    exact UInt32.ofNat_toNat.symm
  · intro k hk
    have hk : k < pushed.length := by
      rw [← hcount]
      exact hk
    have hslot : p.unUsedBlockQueue.slots (slotOf k) = pushed[k] :=
      PoolUsers.slots_of_new h.queue (List.getElem?_eq_getElem hk)
    have hpos := (h.heap pushed[k] (List.mem_append_left _ (List.getElem_mem hk))).1
    rw [← hslot] at hpos
    exact hpos

/-! ## Steps -/

theorem move_popLoaded {t t₁ : Threads ι Nat} {stage : ThreadStage Nat} {r : UInt32}
    (hmove : Threads.Move t stage t₁ (.popLoaded r)) : stage = .popping ∧ r = t.queue.readIndex := by
  cases hmove
  exact ⟨rfl, rfl⟩

theorem read_move {t t₁ : Threads ι Nat} {stage stage' : ThreadStage Nat}
    (h : t.queue.readIndex = UInt32.ofNat t.taken.length) (hmove : Threads.Move t stage t₁ stage') :
    t₁.queue.readIndex = UInt32.ofNat t₁.taken.length := by
  cases hmove with
  | take data =>
      change t.queue.readIndex + 1 = UInt32.ofNat (t.taken ++ [data]).length
      rw [h, ofNat_succ, List.length_append]
      rfl
  | _ => exact h

variable [DecidableEq ι]

theorem see_of_popping (hcall : c.state.calls i = .popping) :
    c.see (.goOn i) i = c.state.taken.length := by
  simp only [see, hcall, Function.update_self]

theorem see_of_popLoaded {j : ι} {r : UInt32} (hcall : c.state.calls j = .popLoaded r) (a : PoolStep ι) :
    c.see a j = c.seen j := by
  cases a with
  | getBlock | freeBlock => rfl
  | goOn i =>
      cases hpopping : c.state.calls i with
      | popping =>
          have hji : j ≠ i := by
            rintro rfl
            cases hcall.symm.trans hpopping
          simp only [see, hpopping, Function.update_of_ne hji]
      | _ => simp only [see, hpopping]

/-- What a step leaves in the queue is all that the invariant is about. -/
theorem Inv.next (h : Inv c) {a : PoolStep ι} {s' : PoolThreads ι} {t : Threads ι Nat}
    (hs : c.state.step a = some s') (hthreads : s'.threads = t)
    (hcarries : Carries (0 < ·) t (c.committed + c.state.threads.commits t))
    (hheap : c.state.pool.heap ≤ s'.pool.heap)
    (hread : t.queue.readIndex = UInt32.ofNat t.taken.length)
    (hseen : ∀ i r, t.stage i = .popLoaded r → r = UInt32.ofNat (c.see a i)) :
    Inv ⟨s', c.committed + c.state.threads.commits s'.threads, c.see a⟩ := by
  subst hthreads
  exact ⟨h.growth.step hs, hcarries, h.heapPos.trans_le hheap, hread, hseen⟩

/-- The thread is in the queue as before. -/
theorem Inv.same (h : Inv c) {a : PoolStep ι} {s' : PoolThreads ι} (hs : c.state.step a = some s')
    (hthreads : s'.threads = c.state.threads) (hheap : s'.pool.heap = c.state.pool.heap) :
    Inv ⟨s', c.committed + c.state.threads.commits s'.threads, c.see a⟩ := by
  have hnone : c.state.threads.commits c.state.threads = 0 := if_pos rfl
  refine h.next hs hthreads ?_ hheap.ge h.read ?_
  · rw [hnone]
    exact h.carries
  · intro j r hj
    rw [see_of_popLoaded hj]
    exact h.seen j r hj

/-- The thread begins a call of the queue. -/
theorem Inv.enter (h : Inv c) {a : PoolStep ι} {s' : PoolThreads ι} (call : Call Nat)
    (hs : c.state.step a = some s') (hthreads : s'.threads = c.state.threads.goto i (Threads.enter call))
    (hheap : c.state.pool.heap ≤ s'.pool.heap) (hcall : ∀ addr, call = .push addr → 0 < addr) :
    Inv ⟨s', c.committed + c.state.threads.commits s'.threads, c.see a⟩ := by
  refine h.next hs hthreads (h.carries.enter hcall) hheap h.read ?_
  intro j r hj
  simp only [Threads.goto, Function.update_apply] at hj
  split at hj
  · cases call <;> cases hj
  · rw [see_of_popLoaded hj]
    exact h.seen j r hj

/-- The thread goes on in the queue. -/
theorem Inv.goOn (h : Inv c) {s' : PoolThreads ι} (hs : c.state.step (.goOn i) = some s')
    (hthreads : c.state.threads.step (.goOn i) = some s'.threads)
    (hheap : s'.pool.heap = c.state.pool.heap) :
    Inv ⟨s', c.committed + c.state.threads.commits s'.threads, c.see (.goOn i)⟩ := by
  rcases Threads.step_cases hthreads with ⟨_, _, heq, _⟩ | ⟨_, t, stage, heq, hmove, hgoto⟩
  · cases heq
  · cases heq
    have hstage := hmove.stage
    have hread : t.queue.readIndex = UInt32.ofNat t.taken.length := read_move h.read hmove
    refine h.next hs hgoto (h.carries.move hmove rfl) hheap.ge hread ?_
    intro j r hj
    simp only [Threads.goto, Function.update_apply, hstage] at hj
    split at hj
    · rename_i hji
      subst hji hj
      obtain ⟨hcall, rfl⟩ := move_popLoaded hmove
      rw [see_of_popping hcall]
      exact h.read
    · rw [see_of_popLoaded hj]
      exact h.seen j r hj

theorem Inv.step (h : Inv c) {a : PoolStep ι} (ha : FreesBlock a) (hs : c.step a = some c') : Inv c' := by
  obtain ⟨s', hstep, rfl⟩ := Option.map_eq_some_iff.mp hs
  cases a with
  | getBlock i =>
      have hgoto := hstep
      rw [PoolThreads.step] at hgoto
      split at hgoto
      · cases hgoto
        exact h.same hstep rfl rfl
      · cases hgoto
  | freeBlock i addr =>
      have hcall := hstep
      rw [PoolThreads.step] at hcall
      split at hcall
      · obtain ⟨hthreads, hheap⟩ := PoolThreads.call_threads hcall
        refine h.enter _ hstep hthreads hheap.ge ?_
        rintro _ ⟨⟩
        exact ha
      · cases hcall
  | goOn i =>
      cases PoolThreads.change_of_act hstep with
      | same _ hthreads hheap => exact h.same hstep hthreads hheap
      | pop _ hthreads hheap => exact h.enter .pop hstep hthreads hheap.ge (by rintro _ ⟨⟩)
      | pushNew _ hthreads hheap =>
          refine h.enter (.push c.state.pool.heap) hstep hthreads (by omega) ?_
          rintro _ ⟨⟩
          exact h.heapPos
      | goOn hthreads hheap => exact h.goOn hstep hthreads hheap

/-! ## Every run -/

/-- The counts change nothing. -/
theorem run_state (p : CMemPool) (c : PoolClock ι) (steps : List (PoolStep ι)) :
    ((poolClock p).run c steps).map PoolClock.state = (poolThreads p).run c.state steps := by
  induction steps generalizing c with
  | nil => rfl
  | cons a steps ih =>
      have hstep : ((poolClock p).step c a).map PoolClock.state = (poolThreads p).step c.state a := by
        change (((c.state.step a).map _).map PoolClock.state) = c.state.step a
        rw [Option.map_map]
        exact congrFun Option.map_id _
      rw [StepSystem.run_cons, StepSystem.run_cons, ← hstep, Option.map_bind, Option.bind_map]
      exact Option.bind_congr fun c' _ => ih c'

/-- In a run in which `NULL` is not freed, `GetBlock` returns `NULL` at the growth limit only, exactly when
before the limit the `Pop` of every `GetBlock` makes its test with a block there. -/
theorem atLimit_iff_meets {junk : Nat → Nat} {heap : Nat} (hheap : 0 < heap) {size count step : Int}
    {p : CMemPool} (hcreat : { CMemPool.new junk with heap }.creatPool size count step = some (p, true))
    {steps : List (PoolStep ι)} (hrun : (poolClock p).run (start p) steps = some c)
    (hfree : ∀ a ∈ steps, FreesBlock a) :
    (∀ before a c₁ c₂, before ++ [a] <+: steps → (poolClock p).run (start p) before = some c₁ →
      (poolClock p).step c₁ a = some c₂ → AtLimit c₁.state a) ↔
      (poolClock p).Meets FindsBlock (start p) steps := by
  have hguard : (poolClock p).Meets (fun _ a => FreesBlock a) (start p) steps :=
    (poolClock p).meets_of_forall_mem hfree _
  have hboth : (∀ before a c₁ c₂, before ++ [a] <+: steps → (poolClock p).run (start p) before = some c₁ →
      (poolClock p).step c₁ a = some c₂ → AtLimit c₁.state a ∧ FreesBlock a) ↔
      (poolClock p).Meets (fun c a => FindsBlock c a ∧ FreesBlock a) (start p) steps :=
    (poolClock p).meets_iff_forall_steps (fun c a _ => AtLimit c.state a ∧ FreesBlock a)
      (fun c a c' hinv hs ⟨hfinds, ha⟩ => ⟨⟨(hinv.atLimit_iff a).mpr hfinds, ha⟩, hinv.step ha hs⟩)
      (fun c a c' hinv _ ⟨hlimit, ha⟩ => ⟨(hinv.atLimit_iff a).mp hlimit, ha⟩)
      (inv_start hheap hcreat) hrun
  rw [(poolClock p).meets_and, and_iff_left hguard] at hboth
  rw [← hboth]
  constructor
  · intro h before a c₁ c₂ hstart hbefore hs
    exact ⟨h before a c₁ c₂ hstart hbefore hs, hfree a (hstart.subset (by simp))⟩
  · intro h before a c₁ c₂ hstart hbefore hs
    exact (h before a c₁ c₂ hstart hbefore hs).1

/-- A pool of one block: one thread gets it, another one extends the pool, and the first one frees its
block. -/
def extended : List (PoolStep Nat) :=
  .getBlock 0 :: List.replicate 6 (.goOn 0) ++ .getBlock 1 :: List.replicate 19 (.goOn 1) ++
    .freeBlock 0 1 :: List.replicate 6 (.goOn 0)

theorem atLimit_iff_meets_extended : ∃ p c,
    { CMemPool.new (fun _ => 0) with heap := 1 }.creatPool 8 1 1 = some (p, true) ∧
    (poolClock p).run (start p) extended = some c ∧ c.state.extensions = 2 ∧
    (poolClock p).Meets FindsBlock (start p) extended ∧
    ∀ before a c₁ c₂, before ++ [a] <+: extended → (poolClock p).run (start p) before = some c₁ →
      (poolClock p).step c₁ a = some c₂ → AtLimit c₁.state a := by
  have hruns : ({ CMemPool.new (fun _ => 0) with heap := 1 }.creatPool 8 1 1).map (fun r : CMemPool × Bool =>
      (r.2, ((poolClock r.1).run (start r.1) extended).map (fun c : PoolClock Nat => c.state.extensions),
        decide ((poolClock r.1).Meets FindsBlock (start r.1) extended))) =
      some (true, some 2, true) := by
    decide +kernel
  obtain ⟨⟨p, done⟩, hcreat, hp⟩ := Option.map_eq_some_iff.mp hruns
  obtain ⟨hdone, hp⟩ := Prod.mk.inj hp
  obtain ⟨hc, hmeets⟩ := Prod.mk.inj hp
  obtain rfl : done = true := hdone
  obtain ⟨c, hrun, hextensions⟩ := Option.map_eq_some_iff.mp hc
  have hmeets := of_decide_eq_true hmeets
  exact ⟨p, c, hcreat, hrun, hextensions, hmeets,
    (atLimit_iff_meets Nat.one_pos hcreat hrun (by decide)).mpr hmeets⟩

/-- A pool of one block, and two threads that have both seen it in `Size()`. -/
def lastBlock : List (PoolStep Nat) :=
  [.getBlock 0, .getBlock 1, .goOn 0, .goOn 1] ++ List.replicate 5 (.goOn 0) ++ [.goOn 1]

/-- The second of them gets `NULL` from a pool that has been extended once. -/
theorem not_atLimit_lastBlock : ∃ p c,
    { CMemPool.new (fun _ => 0) with heap := 1 }.creatPool 8 1 1 = some (p, true) ∧
    (poolClock p).run (start p) lastBlock = some c ∧
    c.state.returnsBlock 1 = some none ∧ ((poolClock p).step c (.goOn 1)).isSome ∧
    c.state.extensions = 1 ∧ ¬AtLimit c.state (.goOn 1) := by
  have hlast : ({ CMemPool.new (fun _ => 0) with heap := 1 }.creatPool 8 1 1).map (fun r : CMemPool × Bool =>
      (r.2, ((poolClock r.1).run (start r.1) lastBlock).map fun c : PoolClock Nat =>
        (c.state.returnsBlock 1, ((poolClock r.1).step c (.goOn 1)).isSome, c.state.extensions))) =
      some (true, some (some none, true, 1)) := by
    decide +kernel
  obtain ⟨⟨p, done⟩, hcreat, hp⟩ := Option.map_eq_some_iff.mp hlast
  obtain ⟨hdone, hc⟩ := Prod.mk.inj hp
  obtain rfl : done = true := hdone
  obtain ⟨c, hrun, hc⟩ := Option.map_eq_some_iff.mp hc
  obtain ⟨hnull, hc⟩ := Prod.mk.inj hc
  obtain ⟨hstep, hextensions⟩ := Prod.mk.inj hc
  refine ⟨p, c, hcreat, hrun, hnull, hstep, hextensions, ?_⟩
  intro hlimit
  have hle : growCountMax ≤ c.state.extensions := hlimit (Or.inl hnull)
  rw [hextensions] at hle
  exact absurd hle (by decide)

end PoolClock

end CmdTran
