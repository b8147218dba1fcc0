import CmdTran.Pool.Basic
import CmdTran.Queue.Threads

/-!
# The pool, thread by thread

Any number of threads call `GetBlock` and `FreeBlock` of a created pool. `Size()`, the test and the two
halves of the increment of `GrowCount`, those of the update of `m_BlockTotalCount`, and every step of
`Push` and `Pop` are steps of their own.

`extensions` counts how often `ExtendPool` has got as far as counting itself. No step looks at it.
-/

namespace CmdTran

variable {ι α : Type}

/-- What the call of the thread returns, if its next step is the last one. -/
def Threads.returns (s : Threads ι α) (i : ι) : Option (Reply α) :=
  match s.stage i with
  | .pushLoaded _ currentWriteIndex =>
      if countToIndex (currentWriteIndex + 1) = countToIndex s.queue.readIndex then
        some (.pushed false)
      else none
  | .adding => some (.pushed true)
  | .popLoaded currentReadIndex =>
      if countToIndex currentReadIndex = countToIndex s.queue.maximumReadIndex then
        some (.popped none)
      else none
  | .subtracting data => some (.popped (some data))
  | _ => none

/-- What a thread does next. `GetBlock`: `Size()`; then, in `ExtendPool`, the test of `GrowCount`, its
load and its store, and `n` more blocks to push; the load and the store of `m_BlockTotalCount`; `Pop`.
`FreeBlock`: `Push`. -/
inductive PoolStage where
  | idle
  | sizing
  | testing
  | loading
  | storing (growCount : Int)
  | filling (n : Nat)
  | pushing (n : Nat)
  | totalLoading
  | totalStoring (blockTotalCount : Int)
  | popping
  | freeing
  deriving DecidableEq

/-- `calls` has what each thread does in the queue; `reserved` and `taken` are those of `Threads`. -/
structure PoolThreads (ι : Type) where
  pool : CMemPool
  stage : ι → PoolStage
  calls : ι → ThreadStage Nat
  reserved : List Nat
  taken : List Nat
  extensions : Nat

inductive PoolStep (ι : Type) where
  | getBlock (i : ι)
  | freeBlock (i : ι) (addr : Nat)
  | goOn (i : ι)

namespace PoolThreads

/-- A pool that `CreatPool` has made, with its one `ExtendPool`. -/
def start (p : CMemPool) : PoolThreads ι :=
  ⟨p, fun _ => .idle, fun _ => .idle, p.unUsedBlockQueue.contents, [], 1⟩

def threads (s : PoolThreads ι) : Threads ι Nat :=
  ⟨s.pool.unUsedBlockQueue, s.calls, s.reserved, s.taken⟩

def setThreads (s : PoolThreads ι) (t : Threads ι Nat) : PoolThreads ι :=
  { s with
    pool := { s.pool with unUsedBlockQueue := t.queue }
    calls := t.stage
    reserved := t.reserved
    taken := t.taken }

variable [DecidableEq ι]

def goto (s : PoolThreads ι) (i : ι) (stage : PoolStage) : PoolThreads ι :=
  { s with stage := Function.update s.stage i stage }

/-- The thread begins a call of the queue. -/
def call (s : PoolThreads ι) (i : ι) (c : Call Nat) (stage : PoolStage) : Option (PoolThreads ι) :=
  (s.threads.step (.call i c)).map fun t => (s.setThreads t).goto i stage

/-- The thread goes on in the queue, and is at `stage` when it comes back. -/
def goOn (s : PoolThreads ι) (i : ι) (stage : PoolStage) : Option (PoolThreads ι) :=
  (s.threads.step (.goOn i)).map fun t =>
    (s.setThreads t).goto i (if (s.threads.returns i).isSome then stage else s.stage i)

/-- The thread is at the stage. -/
def act (s : PoolThreads ι) (i : ι) : PoolStage → Option (PoolThreads ι)
  | .idle => none
  | .sizing =>
      if s.pool.unUsedBlockQueue.size ≤ 0 then some (s.goto i .testing) else s.call i .pop .popping
  | .testing =>
      if s.pool.growCount ≥ growCountMax then some (s.goto i .idle) else some (s.goto i .loading)
  | .loading => some (s.goto i (.storing s.pool.growCount))
  | .storing growCount =>
      some ({ s with
        pool := { s.pool with growCount := growCount + 1 }
        extensions := s.extensions + 1 }.goto i (.filling s.pool.growStep.toNat))
  | .filling 0 => some (s.goto i .totalLoading)
  | .filling (n + 1) =>
      { s with pool := { s.pool with heap := s.pool.heap + 1 } }.call i (.push s.pool.heap)
        (.pushing n)
  | .pushing n => s.goOn i (.filling n)
  | .totalLoading => some (s.goto i (.totalStoring s.pool.blockTotalCount))
  | .totalStoring blockTotalCount =>
      { s with
        pool := { s.pool with blockTotalCount := blockTotalCount + s.pool.growStep } }.call i .pop
          .popping
  | .popping => s.goOn i .idle
  | .freeing => s.goOn i .idle

def step (s : PoolThreads ι) : PoolStep ι → Option (PoolThreads ι)
  | .getBlock i => if s.stage i = .idle then some (s.goto i .sizing) else none
  | .freeBlock i addr => if s.stage i = .idle then s.call i (.push addr) .freeing else none
  | .goOn i => s.act i (s.stage i)

/-! ## What a call returns -/

/-- What the `GetBlock` of the thread returns, if its next step is the last one. -/
def returnsBlock (s : PoolThreads ι) (i : ι) : Option (Option Nat) :=
  match s.stage i with
  | .testing => if s.pool.growCount ≥ growCountMax then some none else none
  | .popping =>
      match s.threads.returns i with
      | some (.popped ret) => some ret
      | _ => none
  | _ => none

end PoolThreads

def poolThreads [DecidableEq ι] (p : CMemPool) : StepSystem (PoolThreads ι) (PoolStep ι) where
  start := PoolThreads.start p
  step := PoolThreads.step

/-! ## The growth counter -/

namespace CMemPool

variable {p q : CMemPool}

theorem addBlocks_growCount {n : Nat} (h : p.addBlocks n = some q) : q.growCount = p.growCount := by
  induction n generalizing p with
  | zero =>
      cases h
      rfl
  | succ n ih =>
      obtain ⟨r, _, hrest⟩ := Option.bind_eq_some_iff.mp h
      exact ih (p := { p with unUsedBlockQueue := r.1, heap := p.heap + 1 }) hrest

theorem creatPool_growCount {p₀ : CMemPool} (h0 : p₀.growCount = 0) {size count step : Int}
    (h : p₀.creatPool size count step = some (p, true)) : p.growCount = 1 := by
  unfold creatPool at h
  dsimp only at h
  split at h
  · cases h
  · obtain ⟨⟨q, done⟩, hextend, heq⟩ := Option.map_eq_some_iff.mp h
    unfold extendPool at hextend
    split at hextend
    · cases hextend
      cases heq
    · obtain ⟨r, hadd, hr⟩ := Option.map_eq_some_iff.mp hextend
      cases hr
      cases heq
      have hcount : q.growCount = p₀.growCount + 1 := addBlocks_growCount hadd
      rw [h0] at hcount
      exact hcount

end CMemPool

namespace PoolThreads

/-- `GrowCount` counts some of the extensions: of two threads that increment it at a time, one is lost. -/
structure Inv (s : PoolThreads ι) : Prop where
  growCount : s.pool.growCount ≤ s.extensions
  storing : ∀ i growCount, s.stage i = .storing growCount → growCount ≤ s.extensions

theorem inv_start {p : CMemPool} (h : p.growCount = 1) : Inv (start p : PoolThreads ι) :=
  ⟨Int.le_of_eq h, fun _ _ h => nomatch h⟩

variable {s s' : PoolThreads ι} {i : ι}

/-! ## Giving up -/

theorem returns_popped_none_iff {t : Threads ι α} :
    t.returns i = some (.popped none) ↔ ∃ currentReadIndex,
      t.stage i = .popLoaded currentReadIndex ∧
        countToIndex currentReadIndex = countToIndex t.queue.maximumReadIndex := by
  constructor
  · intro h
    rw [Threads.returns] at h
    split at h
    · split at h <;> cases h
    · cases h
    · rename_i r hstage
      split at h
      · rename_i htest
        exact ⟨r, hstage, htest⟩
      · cases h
    · cases h
    · cases h
  · rintro ⟨r, hstage, htest⟩
    simp only [Threads.returns, hstage, htest, if_true]

/-! ## Steps -/

variable [DecidableEq ι]

theorem Inv.goto (h : Inv s) (i : ι) {stage : PoolStage}
    (hstage : ∀ growCount, stage = .storing growCount → growCount ≤ s.extensions) :
    Inv (s.goto i stage) := by
  refine ⟨h.growCount, ?_⟩
  intro j growCount hj
  by_cases hij : j = i
  · subst hij
    simp only [PoolThreads.goto, Function.update_self] at hj
    exact hstage growCount hj
  · simp only [PoolThreads.goto, Function.update_of_ne hij] at hj
    exact h.storing j growCount hj

theorem Inv.leave (h : Inv s) (i : ι) {stage : PoolStage}
    (hstage : ∀ growCount, stage ≠ .storing growCount) : Inv (s.goto i stage) :=
  h.goto i fun growCount heq => absurd heq (hstage growCount)

theorem Inv.call (h : Inv s) {c : Call Nat} {stage : PoolStage}
    (hstage : ∀ growCount, stage ≠ .storing growCount) (hs : s.call i c stage = some s') :
    Inv s' := by
  obtain ⟨t, _, rfl⟩ := Option.map_eq_some_iff.mp hs
  have hset : Inv (s.setThreads t) := ⟨h.growCount, h.storing⟩
  exact hset.leave i hstage

theorem Inv.goOn (h : Inv s) {stage : PoolStage}
    (hstage : ∀ growCount, stage ≠ .storing growCount) (hs : s.goOn i stage = some s') :
    Inv s' := by
  obtain ⟨t, _, rfl⟩ := Option.map_eq_some_iff.mp hs
  have hset : Inv (s.setThreads t) := ⟨h.growCount, h.storing⟩
  apply hset.goto i
  intro growCount heq
  split at heq
  · exact absurd heq (hstage growCount)
  · exact h.storing i growCount heq

theorem Inv.act (h : Inv s) (hs : s.act i (s.stage i) = some s') : Inv s' := by
  cases hstage : s.stage i with
  | idle =>
      rw [hstage] at hs
      cases hs
  | sizing =>
      rw [hstage, PoolThreads.act] at hs
      split at hs
      · cases hs
        exact h.leave i (by simp)
      · exact h.call (by simp) hs
  | testing =>
      rw [hstage, PoolThreads.act] at hs
      split at hs <;> cases hs <;> exact h.leave i (by simp)
  | loading =>
      rw [hstage] at hs
      cases hs
      apply h.goto i
      intro growCount heq
      cases heq
      exact h.growCount
  | storing growCount =>
      rw [hstage] at hs
      cases hs
      have hle := h.storing i growCount hstage
      have hstored : Inv { s with
          pool := { s.pool with growCount := growCount + 1 }
          extensions := s.extensions + 1 } := by
        refine ⟨?_, ?_⟩
        · dsimp only
          omega
        · intro j growCount' hj
          have hle' := h.storing j growCount' hj
          dsimp only
          omega
      exact hstored.leave i (by simp)
  | filling n =>
      rw [hstage] at hs
      cases n with
      | zero =>
          cases hs
          exact h.leave i (by simp)
      | succ n =>
          have hnew : Inv { s with pool := { s.pool with heap := s.pool.heap + 1 } } :=
            ⟨h.growCount, h.storing⟩
          exact hnew.call (by simp) hs
  | totalLoading =>
      rw [hstage] at hs
      cases hs
      exact h.leave i (by simp)
  | totalStoring blockTotalCount =>
      rw [hstage] at hs
      have htotal : Inv { s with
          pool := { s.pool with blockTotalCount := blockTotalCount + s.pool.growStep } } :=
        ⟨h.growCount, h.storing⟩
      exact htotal.call (by simp) hs
  | pushing | popping | freeing =>
      rw [hstage] at hs
      exact h.goOn (by simp) hs

theorem Inv.step (h : Inv s) {a : PoolStep ι} (hs : s.step a = some s') : Inv s' := by
  cases a with
  | getBlock i =>
      rw [PoolThreads.step] at hs
      split at hs
      · cases hs
        exact h.leave i (by simp)
      · cases hs
  | freeBlock i addr =>
      rw [PoolThreads.step] at hs
      split at hs
      · exact h.call (by simp) hs
      · cases hs
  | goOn i => exact h.act hs

end PoolThreads

end CmdTran
