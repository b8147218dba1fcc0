import CmdTran.Pool.Misuse
import CmdTran.Pool.Threads
import CmdTran.Queue.Elements

/-!
# Who has a block

Any number of threads call `GetBlock` and `FreeBlock` at the same time. They free only what they got, once,
and then a block is never with two of them, however their steps and the steps of the queue interleave.
-/

namespace CmdTran

variable {ι : Type}

/-- `outstanding` has the blocks that calls of `GetBlock` returned and of which no `FreeBlock` has begun. -/
structure PoolUsers (ι : Type) where
  pool : PoolThreads ι
  outstanding : List Nat

namespace PoolUsers

def start (p : CMemPool) : PoolUsers ι := ⟨.start p, []⟩

variable [DecidableEq ι]

/-- Only an outstanding block is freed, by any thread. -/
def step (s : PoolUsers ι) : PoolStep ι → Option (PoolUsers ι)
  | .getBlock i => (s.pool.step (.getBlock i)).map fun pool => { s with pool }
  | .freeBlock i addr =>
      if addr ∈ s.outstanding then
        (s.pool.step (.freeBlock i addr)).map fun pool => ⟨pool, s.outstanding.erase addr⟩
      else none
  | .goOn i =>
      (s.pool.step (.goOn i)).map fun pool =>
        ⟨pool, (s.pool.returnsBlock i).join.toList ++ s.outstanding⟩

/-- The threads that are about to push the block or to return it. -/
def Handles (s : PoolUsers ι) (i : ι) (addr : Nat) : Prop := (s.pool.calls i).inHand = some addr

/-- Each block is free, or a call has it, or a user has it, and never two of them; it is a block that `new`
gave out, and not `NULL`. -/
structure Separate (s : PoolUsers ι) : Prop where
  nodup : (s.pool.threads.waiting ++ s.outstanding).Nodup
  handled : ∀ i addr, s.Handles i addr → addr ∉ s.pool.threads.waiting ++ s.outstanding
  one : ∀ i j addr, s.Handles i addr → s.Handles j addr → i = j
  ours : ∀ addr ∈ s.outstanding, 0 < addr ∧ addr < s.pool.pool.heap
  /-- What the next step hands out nobody has. -/
  next : ∀ i addr, s.pool.returnsBlock i = some (some addr) → addr ∉ s.pool.threads.waiting ++ s.outstanding

end PoolUsers

def poolUsers [DecidableEq ι] (p : CMemPool) : StepSystem (PoolUsers ι) (PoolStep ι) where
  start := PoolUsers.start p
  step := PoolUsers.step

/-! ## What a step does to the queue -/

namespace PoolThreads

variable {s s' : PoolThreads ι} {i : ι}

theorem returned_of_returns {t : Threads ι Nat} {ret : Option Nat} (h : t.returns i = some (.popped ret)) :
    (t.stage i).returned = ret := by
  rw [Threads.returns] at h
  split at h
  · split at h <;> cases h
  · cases h
  · rename_i hstage
    split at h
    · cases h
      rw [hstage]
      rfl
    · cases h
  · rename_i hstage
    cases h
    rw [hstage]
    rfl
  · cases h

theorem returns_of_returned {t : Threads ι Nat} {addr : Nat} (h : (t.stage i).returned = some addr) :
    t.returns i = some (.popped (some addr)) := by
  cases hstage : t.stage i with
  | subtracting data =>
      rw [hstage] at h
      cases h
      rw [Threads.returns, hstage]
  | _ =>
      rw [hstage] at h
      cases h

/-- A `GetBlock` hands out what its `Pop` returns. -/
theorem returnsBlock_popping (h : s.stage i = .popping) :
    (s.returnsBlock i).join = (s.calls i).returned := by
  rw [returnsBlock, h]
  dsimp only
  split
  · rename_i ret hreturns
    exact (returned_of_returns hreturns).symm
  · rename_i hno
    cases hreturned : (s.calls i).returned with
    | none => rfl
    | some addr => exact absurd (returns_of_returned (t := s.threads) hreturned) (hno _)

theorem returnsBlock_other (h : s.stage i ≠ .popping) : (s.returnsBlock i).join = none := by
  rw [returnsBlock]
  split
  · split <;> rfl
  · rename_i hstage
    exact absurd hstage h
  · rfl

variable [DecidableEq ι]

/-- What a step of one thread does to the queue and to the heap. -/
inductive Change (s s' : PoolThreads ι) (i : ι) : Prop where
  | same (hstage : s.stage i ≠ .popping) (hthreads : s'.threads = s.threads)
      (hheap : s'.pool.heap = s.pool.heap)
  | pop (hstage : s.stage i ≠ .popping) (hthreads : s'.threads = s.threads.goto i .popping)
      (hheap : s'.pool.heap = s.pool.heap)
  | pushNew (hstage : s.stage i ≠ .popping)
      (hthreads : s'.threads = s.threads.goto i (.pushing s.pool.heap))
      (hheap : s'.pool.heap = s.pool.heap + 1)
  | goOn (hthreads : s.threads.step (.goOn i) = some s'.threads) (hheap : s'.pool.heap = s.pool.heap)

theorem call_threads {c : Call Nat} {stage : PoolStage} (hs : s.call i c stage = some s') :
    s'.threads = s.threads.goto i (Threads.enter c) ∧ s'.pool.heap = s.pool.heap := by
  obtain ⟨t, ht, rfl⟩ := Option.map_eq_some_iff.mp hs
  rcases Threads.step_cases ht with ⟨i', c', heq, _, rfl⟩ | ⟨_, _, _, heq, _, _⟩
  · cases heq
    exact ⟨rfl, rfl⟩
  · cases heq

theorem goOn_threads {stage : PoolStage} (hs : s.goOn i stage = some s') :
    s.threads.step (.goOn i) = some s'.threads ∧ s'.pool.heap = s.pool.heap := by
  obtain ⟨t, ht, rfl⟩ := Option.map_eq_some_iff.mp hs
  exact ⟨ht, rfl⟩

theorem change_of_act (hs : s.act i (s.stage i) = some s') : Change s s' i := by
  cases hstage : s.stage i with
  | idle =>
      rw [hstage] at hs
      cases hs
  | sizing =>
      rw [hstage, act] at hs
      have hother : s.stage i ≠ .popping := by simp [hstage]
      split at hs
      · cases hs
        exact .same hother rfl rfl
      · obtain ⟨hthreads, hheap⟩ := call_threads hs
        exact .pop hother hthreads hheap
  | testing =>
      rw [hstage, act] at hs
      have hother : s.stage i ≠ .popping := by simp [hstage]
      split at hs <;> cases hs <;> exact .same hother rfl rfl
  | loading | storing | totalLoading =>
      rw [hstage] at hs
      cases hs
      exact .same (by simp [hstage]) rfl rfl
  | filling n =>
      rw [hstage] at hs
      have hother : s.stage i ≠ .popping := by simp [hstage]
      cases n with
      | zero =>
          cases hs
          exact .same hother rfl rfl
      | succ n =>
          obtain ⟨hthreads, hheap⟩ := call_threads hs
          exact .pushNew hother hthreads hheap
  | totalStoring blockTotalCount =>
      rw [hstage] at hs
      obtain ⟨hthreads, hheap⟩ := call_threads hs
      exact .pop (by simp [hstage]) hthreads hheap
  | pushing | popping | freeing =>
      rw [hstage] at hs
      obtain ⟨hthreads, hheap⟩ := goOn_threads hs
      exact .goOn hthreads hheap

/-! ## The stages of the others -/

variable {j : ι}

theorem call_stage {c : Call Nat} {stage : PoolStage} (hs : s.call i c stage = some s') (hj : j ≠ i) :
    s'.stage j = s.stage j := by
  obtain ⟨t, _, rfl⟩ := Option.map_eq_some_iff.mp hs
  exact Function.update_of_ne hj _ _

theorem goOn_stage {stage : PoolStage} (hs : s.goOn i stage = some s') (hj : j ≠ i) :
    s'.stage j = s.stage j := by
  obtain ⟨t, _, rfl⟩ := Option.map_eq_some_iff.mp hs
  exact Function.update_of_ne hj _ _

theorem act_stage {stage : PoolStage} (hs : s.act i stage = some s') (hj : j ≠ i) : s'.stage j = s.stage j := by
  cases stage with
  | idle => cases hs
  | sizing =>
      rw [act] at hs
      split at hs
      · cases hs
        exact Function.update_of_ne hj _ _
      · exact call_stage hs hj
  | testing =>
      rw [act] at hs
      split at hs <;> cases hs <;> exact Function.update_of_ne hj _ _
  | loading | storing | totalLoading =>
      cases hs
      exact Function.update_of_ne hj _ _
  | filling n =>
      cases n with
      | zero =>
          cases hs
          exact Function.update_of_ne hj _ _
      | succ n =>
          have hstage := call_stage hs hj
          exact hstage
  | totalStoring =>
      have hstage := call_stage hs hj
      exact hstage
  | pushing | popping | freeing => exact goOn_stage hs hj

/-- The thread is in `FreeBlock` until the call returns. -/
theorem goOn_freeing (hstage : s.stage i = .freeing) (hs : s.step (.goOn i) = some s') :
    s'.stage i = .freeing ∨ s'.stage i = .idle := by
  rw [step, hstage] at hs
  obtain ⟨t, _, rfl⟩ := Option.map_eq_some_iff.mp hs
  simp only [goto, Function.update_self]
  split
  · exact .inr rfl
  · exact .inl hstage

theorem reserved_le_of_goOn (hs : s.act i (s.stage i) = some s') :
    s.reserved.length ≤ s'.reserved.length := by
  cases change_of_act hs with
  | same _ hthreads | pop _ hthreads | pushNew _ hthreads =>
      exact Nat.le_of_eq (congrArg (fun t => t.reserved.length) hthreads).symm
  | goOn hthreads => exact Threads.reserved_le_of_step hthreads

end PoolThreads

/-! ## The invariant -/

namespace PoolUsers

open Threads (Apart)

/-- `new` gave it out. -/
def Ours (p : CMemPool) (addr : Nat) : Prop := 0 < addr ∧ addr < p.heap

structure Inv (s : PoolUsers ι) : Prop where
  queue : Threads.Inv s.pool.threads
  apart : Apart (Ours s.pool.pool) s.pool.threads s.outstanding
  heapPos : 0 < s.pool.pool.heap

variable {s s' : PoolUsers ι}

theorem Inv.separate (h : Inv s) : s.Separate := by
  refine ⟨h.apart.nodup, fun i addr hi => (h.apart.hand i addr hi).2, h.apart.hands, ?_, ?_⟩
  · intro addr haddr
    exact h.apart.places addr (List.mem_append_right _ haddr)
  · intro i addr hnext
    have hstage : s.pool.stage i = .popping := by
      by_contra hother
      have hnone := PoolThreads.returnsBlock_other hother
      rw [hnext] at hnone
      cases hnone
    have hreturned : (s.pool.calls i).returned = some addr := by
      rw [← PoolThreads.returnsBlock_popping hstage, hnext]
      rfl
    have hhand : s.Handles i addr := by
      rw [Handles]
      cases hcall : s.pool.calls i <;> rw [hcall] at hreturned <;> cases hreturned
      rfl
    exact (h.apart.hand i addr hhand).2

/-! ## A new pool -/

section New

variable {q : CLockFreeQueue Nat} {pushed : List Nat}

open Wrapping

theorem toNat_length (h : Rel q pushed 0) : (UInt32.ofNat pushed.length).toNat = pushed.length := by
  have hbound := h.bound
  rw [UInt32.toNat_ofNat']
  apply Nat.mod_eq_of_lt
  rw [queueLen] at hbound
  omega

/-- No counter has wrapped yet. -/
theorem slots_of_new (h : Rel q pushed 0) {i : Nat} {x : Nat} (hx : pushed[i]? = some x) :
    q.slots (slotOf i) = x := by
  have hbound := h.bound
  obtain ⟨hi, _⟩ := List.getElem?_eq_some_iff.mp hx
  apply h.slots_kept (Nat.zero_le i) hx
  intro hcross
  simp only [Crosses, uint32Size, wrapShift, queueLen] at hcross hbound
  omega

theorem contents_of_new (h : Rel q pushed 0) : q.contents = pushed := by
  have hcount : (q.maximumReadIndex - q.readIndex).toNat = pushed.length := by
    rw [h.maximum, h.read, ← UInt32.ofNat_sub h.le, Nat.sub_zero, toNat_length h]
  rw [CLockFreeQueue.contents, hcount]
  apply List.ext_getElem
  · rw [List.length_map, List.length_range]
  · intro i _ hi
    rw [List.getElem_map, List.getElem_range, h.read, ← UInt32.ofNat_add, countToIndex_ofNat, Nat.zero_add]
    exact slots_of_new h (List.getElem?_eq_getElem hi)

theorem threads_inv_of_new (h : Rel q pushed 0) :
    Threads.Inv (⟨q, fun _ => .idle, pushed, []⟩ : Threads ι Nat) := by
  have hbound := h.bound
  have hlength := toNat_length h
  have hwrite : q.writeIndex.toNat = pushed.length := by rw [h.write, hlength]
  have hmaximum : q.maximumReadIndex.toNat = pushed.length := by rw [h.maximum, hlength]
  have hread : q.readIndex.toNat = 0 := by
    rw [h.read]
    rfl
  refine ⟨?_, hwrite, hread, Nat.zero_le _, Nat.le_of_eq hmaximum, ?_, List.nil_prefix, ?_, fun _ => trivial,
    fun _ _ _ howned => nomatch howned⟩
  · simp only [queueLen] at hbound ⊢
    omega
  · simp only [List.length_nil]
    omega
  · intro c _ hc
    have hc : c.toNat < q.maximumReadIndex.toNat := hc
    rw [hmaximum] at hc
    have hslot := slots_of_new h (List.getElem?_eq_getElem hc)
    rw [← countToIndex_ofNat, UInt32.ofNat_toNat] at hslot
    rw [List.getElem?_eq_getElem hc, hslot]

end New

theorem inv_start {junk : Nat → Nat} {heap : Nat} (hheap : 0 < heap) {size count step : Int} {p : CMemPool}
    (hcreat : { CMemPool.new junk with heap }.creatPool size count step = some (p, true)) :
    Inv (start p : PoolUsers ι) := by
  obtain ⟨pushed, h⟩ := PoolUse.exclusive_start junk hheap hcreat
  have hcontents := contents_of_new h.queue
  have hqueue : Threads.Inv (start p : PoolUsers ι).pool.threads := by
    rw [start, PoolThreads.start, PoolThreads.threads, hcontents]
    exact threads_inv_of_new h.queue
  have hwaiting : (start p : PoolUsers ι).pool.threads.waiting = pushed := hcontents
  refine ⟨hqueue, ⟨?_, ?_, fun _ _ hhand => (nomatch hhand), fun _ _ _ hhand => (nomatch hhand)⟩, h.heapPos⟩
  · rw [hwaiting]
    exact h.nodup
  · rw [hwaiting]
    exact h.heap

/-! ## One step -/

theorem Inv.of_threads (h : Inv s) {pool : PoolThreads ι} (hthreads : pool.threads = s.pool.threads)
    (hheap : pool.pool.heap = s.pool.pool.heap) : Inv ⟨pool, s.outstanding⟩ := by
  refine ⟨?_, ?_, ?_⟩
  · dsimp only
    rw [hthreads]
    exact h.queue
  · dsimp only
    rw [hthreads]
    exact h.apart.imp fun addr haddr => ⟨haddr.1, haddr.2.trans_eq hheap.symm⟩
  · exact h.heapPos.trans_eq hheap.symm

theorem Inv.below_heap (h : Inv s) {addr : Nat} (hge : s.pool.pool.heap ≤ addr) :
    addr ∉ s.pool.threads.waiting ++ s.outstanding ∧ ∀ i, (s.pool.threads.stage i).inHand ≠ some addr := by
  constructor
  · intro hmem
    exact absurd (h.apart.places addr hmem).2 (Nat.not_lt.mpr hge)
  · intro i hhand
    exact absurd (h.apart.hand i addr hhand).1.2 (Nat.not_lt.mpr hge)

variable [DecidableEq ι]

theorem Inv.goOn (h : Inv s) {i : ι} (hs : s.step (.goOn i) = some s')
    (hfew : s'.pool.reserved.length < 0x100000000) : Inv s' := by
  obtain ⟨pool, hpool, rfl⟩ := Option.map_eq_some_iff.mp hs
  dsimp only at hfew
  cases PoolThreads.change_of_act hpool with
  | same hstage hthreads hheap =>
      rw [PoolThreads.returnsBlock_other hstage]
      exact h.of_threads hthreads hheap
  | pop hstage hthreads hheap =>
      rw [PoolThreads.returnsBlock_other hstage]
      refine ⟨?_, ?_, h.heapPos.trans_eq hheap.symm⟩
      · rw [hthreads]
        exact h.queue.leave i .popping trivial rfl
      · rw [hthreads]
        have hstay : Apart (Ours s.pool.pool) (s.pool.threads.goto i .popping) s.outstanding :=
          h.apart.stay (.inr rfl)
        exact hstay.imp fun addr haddr => ⟨haddr.1, haddr.2.trans_eq hheap.symm⟩
  | pushNew hstage hthreads hheap =>
      rw [PoolThreads.returnsBlock_other hstage]
      refine ⟨?_, ?_, ?_⟩
      · rw [hthreads]
        exact h.queue.leave i _ trivial rfl
      · rw [hthreads]
        obtain ⟨hnot, hhands⟩ := h.below_heap (Nat.le_refl _)
        have hnext : Apart (Ours pool.pool) s.pool.threads s.outstanding :=
          h.apart.imp fun addr haddr => ⟨haddr.1, haddr.2.trans_le (hheap ▸ Nat.le_succ _)⟩
        exact (hnext.add ⟨h.heapPos, hheap ▸ Nat.lt_succ_self _⟩ hnot hhands).grab rfl
      · dsimp only
        omega
  | goOn hthreads hheap =>
      have hqueue : Threads.Inv pool.threads := h.queue.step hthreads hfew
      rcases Threads.step_cases hthreads with ⟨_, _, heq, _, _⟩ | ⟨_, s₁, stage, heq, hmove, hnext⟩
      · cases heq
      · cases heq
        have hmoved := h.apart.move h.queue hmove rfl
        rw [← hnext] at hmoved
        have hapart : Apart (Ours pool.pool) pool.threads ((s.pool.calls i).returned.toList ++ s.outstanding) :=
          hmoved.imp fun addr haddr => ⟨haddr.1, haddr.2.trans_eq hheap.symm⟩
        refine ⟨hqueue, ?_, h.heapPos.trans_eq hheap.symm⟩
        by_cases hstage : s.pool.stage i = .popping
        · rw [PoolThreads.returnsBlock_popping hstage]
          exact hapart
        · rw [PoolThreads.returnsBlock_other hstage]
          exact hapart.forgetAll _

theorem Inv.freeBlock (h : Inv s) {i : ι} {addr : Nat} (hs : s.step (.freeBlock i addr) = some s') : Inv s' := by
  rw [step] at hs
  split at hs
  · rename_i haddr
    obtain ⟨pool, hpool, rfl⟩ := Option.map_eq_some_iff.mp hs
    rw [PoolThreads.step] at hpool
    split at hpool
    · obtain ⟨hthreads, hheap⟩ := PoolThreads.call_threads hpool
      refine ⟨?_, ?_, h.heapPos.trans_eq hheap.symm⟩
      · rw [hthreads]
        exact h.queue.leave i _ trivial rfl
      · rw [hthreads]
        have hfirst : Apart (Ours s.pool.pool) s.pool.threads (addr :: s.outstanding.erase addr) :=
          h.apart.perm rfl ((List.perm_cons_erase haddr).symm.append_left _)
        have hgrabbed : Apart (Ours s.pool.pool) (s.pool.threads.goto i (.pushing addr))
            (s.outstanding.erase addr) := hfirst.grab rfl
        exact hgrabbed.imp fun addr haddr => ⟨haddr.1, haddr.2.trans_eq hheap.symm⟩
    · cases hpool
  · cases hs

theorem Inv.step (h : Inv s) {a : PoolStep ι} (hs : s.step a = some s')
    (hfew : s'.pool.reserved.length < 0x100000000) : Inv s' := by
  cases a with
  | getBlock i =>
      obtain ⟨pool, hpool, rfl⟩ := Option.map_eq_some_iff.mp hs
      rw [PoolThreads.step] at hpool
      split at hpool
      · cases hpool
        exact h.of_threads rfl rfl
      · cases hpool
  | freeBlock i addr => exact h.freeBlock hs
  | goOn i => exact h.goOn hs hfew

theorem reserved_le_of_step {a : PoolStep ι} (hs : s.step a = some s') :
    s.pool.reserved.length ≤ s'.pool.reserved.length := by
  cases a with
  | getBlock i =>
      obtain ⟨pool, hpool, rfl⟩ := Option.map_eq_some_iff.mp hs
      rw [PoolThreads.step] at hpool
      split at hpool
      · cases hpool
        exact Nat.le_refl _
      · cases hpool
  | freeBlock i addr =>
      rw [PoolUsers.step] at hs
      split at hs
      · obtain ⟨pool, hpool, rfl⟩ := Option.map_eq_some_iff.mp hs
        rw [PoolThreads.step] at hpool
        split at hpool
        · obtain ⟨hthreads, _⟩ := PoolThreads.call_threads hpool
          exact Nat.le_of_eq (congrArg (fun t => t.reserved.length) hthreads).symm
        · cases hpool
      · cases hs
  | goOn i =>
      obtain ⟨pool, hpool, rfl⟩ := Option.map_eq_some_iff.mp hs
      exact PoolThreads.reserved_le_of_goOn hpool

/-! ## Outstanding blocks -/

theorem outstanding_getBlock {i : ι} (hs : s.step (.getBlock i) = some s') :
    s'.outstanding = s.outstanding := by
  obtain ⟨pool, _, rfl⟩ := Option.map_eq_some_iff.mp hs
  rfl

theorem outstanding_goOn {i : ι} (hs : s.step (.goOn i) = some s') :
    s'.outstanding = (s.pool.returnsBlock i).join.toList ++ s.outstanding := by
  obtain ⟨pool, _, rfl⟩ := Option.map_eq_some_iff.mp hs
  rfl

theorem outstanding_freeBlock {i : ι} {addr : Nat} (hs : s.step (.freeBlock i addr) = some s') :
    s'.outstanding = s.outstanding.erase addr := by
  rw [PoolUsers.step] at hs
  split at hs
  · obtain ⟨pool, _, rfl⟩ := Option.map_eq_some_iff.mp hs
    rfl
  · cases hs

/-! ## Stages -/

/-- The thread that takes the step. -/
def threadOf : PoolStep ι → ι
  | .getBlock i | .freeBlock i _ | .goOn i => i

theorem stage_of_step {a : PoolStep ι} {j : ι} (hs : s.step a = some s') (hj : j ≠ threadOf a) :
    s'.pool.stage j = s.pool.stage j := by
  cases a with
  | getBlock i =>
      obtain ⟨pool, hpool, rfl⟩ := Option.map_eq_some_iff.mp hs
      rw [PoolThreads.step] at hpool
      split at hpool
      · cases hpool
        exact Function.update_of_ne hj _ _
      · cases hpool
  | freeBlock i addr =>
      rw [PoolUsers.step] at hs
      split at hs
      · obtain ⟨pool, hpool, rfl⟩ := Option.map_eq_some_iff.mp hs
        rw [PoolThreads.step] at hpool
        split at hpool
        · exact PoolThreads.call_stage hpool hj
        · cases hpool
      · cases hs
  | goOn i =>
      obtain ⟨pool, hpool, rfl⟩ := Option.map_eq_some_iff.mp hs
      exact PoolThreads.act_stage hpool hj

theorem stage_freeBlock {i : ι} {addr : Nat} (hs : s.step (.freeBlock i addr) = some s') :
    s'.pool.stage i = .freeing := by
  rw [PoolUsers.step] at hs
  split at hs
  · obtain ⟨pool, hpool, rfl⟩ := Option.map_eq_some_iff.mp hs
    rw [PoolThreads.step] at hpool
    split at hpool
    · obtain ⟨t, _, rfl⟩ := Option.map_eq_some_iff.mp hpool
      exact Function.update_self _ _ _
    · cases hpool
  · cases hs

/-! ## Every run -/

theorem inv_of_run {junk : Nat → Nat} {heap : Nat} (hheap : 0 < heap) {size count step : Int} {p : CMemPool}
    (hcreat : { CMemPool.new junk with heap }.creatPool size count step = some (p, true))
    {steps : List (PoolStep ι)} (hrun : (poolUsers p).run (start p) steps = some s)
    (hfew : s.pool.reserved.length < 0x100000000) : Inv s :=
  (poolUsers p).run_invariant_below (fun s => s.pool.reserved.length)
    (fun _ _ _ hs => reserved_le_of_step hs) (fun _ _ _ h hs hfew => h.step hs hfew)
    (fun _ => inv_start hheap hcreat) hrun hfew

/-- However the calls overlap: as long as fewer than `2^32` pushes have reserved a place, no block is in two
places. -/
theorem separate_of_run {junk : Nat → Nat} {heap : Nat} (hheap : 0 < heap) {size count step : Int}
    {p : CMemPool} (hcreat : { CMemPool.new junk with heap }.creatPool size count step = some (p, true))
    {steps : List (PoolStep ι)} (hrun : (poolUsers p).run (start p) steps = some s)
    (hfew : s.pool.reserved.length < 0x100000000) : s.Separate :=
  (inv_of_run hheap hcreat hrun hfew).separate

/-- Two threads read the same block, one of them loses it and takes the next one; then the first one frees
its block, and the other is about to return the one that it got. -/
def sharedRead : List (PoolStep Nat) :=
  [.getBlock 0, .getBlock 1] ++ (List.replicate 4 [.goOn 0, .goOn 1]).flatten ++
    [.goOn 0, .goOn 1, .goOn 0, .freeBlock 0 1] ++ List.replicate 4 (.goOn 1)

theorem separate_of_run_sharedRead : ∃ p s,
    { CMemPool.new (fun _ => 0) with heap := 1 }.creatPool 8 2 1 = some (p, true) ∧
    (poolUsers p).run (start p) sharedRead = some s ∧
    s.pool.returnsBlock 1 = some (some 2) ∧ s.Handles 0 1 ∧ s.Separate := by
  have hlast : ({ CMemPool.new (fun _ => 0) with heap := 1 }.creatPool 8 2 1).map (fun r : CMemPool × Bool =>
      (r.2, ((poolUsers r.1).run (start r.1) sharedRead).map fun s : PoolUsers Nat =>
        (s.pool.returnsBlock 1, (s.pool.calls 0).inHand, s.pool.reserved.length))) =
      some (true, some (some (some 2), some 1, 2)) := by
    decide +kernel
  obtain ⟨⟨p, done⟩, hcreat, hp⟩ := Option.map_eq_some_iff.mp hlast
  obtain ⟨hdone, hs⟩ := Prod.mk.inj hp
  obtain rfl : done = true := hdone
  obtain ⟨s, hrun, hs⟩ := Option.map_eq_some_iff.mp hs
  obtain ⟨hnext, hs⟩ := Prod.mk.inj hs
  obtain ⟨hhand, hlength⟩ := Prod.mk.inj hs
  have hfew : s.pool.reserved.length < 0x100000000 := by
    rw [hlength]
    decide
  exact ⟨p, s, hcreat, hrun, hnext, hhand, separate_of_run (by decide) hcreat hrun hfew⟩

end PoolUsers

end CmdTran
