import CmdTran.Pool.Basic
import CmdTran.Queue.Window

/-!
# How large the blocks are

`CreatPool` writes its arguments into the pool before it checks them. A call that is rejected may therefore
change what `GetBlockSize` says of blocks that have another size.
-/

namespace CmdTran

/-- What a rejected `CreatPool` has to leave as it was. -/
structure CMemPool.Kept (p p' : CMemPool) : Prop where
  blockSize : p'.blockSize = p.blockSize
  blockCount : p'.blockCount = p.blockCount
  growStep : p'.growStep = p.growStep
  growCount : p'.growCount = p.growCount
  unUsedBlockQueue : p'.unUsedBlockQueue = p.unUsedBlockQueue

/-- `CreatPool` will not create the pool. -/
def CMemPool.Rejects (p : CMemPool) (blockSize blockCount : Int) : Prop :=
  blockSize ≤ 0 ∨ blockCount ≤ 0 ∨ p.createdFlag = true ∨ p.growCount ≥ growCountMax

instance (p : CMemPool) (blockSize blockCount : Int) : Decidable (p.Rejects blockSize blockCount) :=
  inferInstanceAs (Decidable (_ ∨ _))

def CMemPool.getBlockSize (p : CMemPool) : Int := p.blockSize

/-- `sizeOf` says with which size an address was allocated. `unused` has the blocks that `GetBlock` has not
given out, or `FreeBlock` has taken back. -/
structure SizedPool where
  pool : CMemPool
  sizeOf : Nat → Option Int
  unused : List Nat
  outstanding : List Nat

inductive SizedCall where
  | creat (blockSize blockCount step : Int)
  | get
  | free (addr : Nat)
  deriving DecidableEq

namespace SizedPool

/-- The constructor leaves the three numbers as they happen to be. -/
def start (junk : Nat → Nat) (blockSize blockCount growStep : Int) : SizedPool :=
  ⟨{ CMemPool.new junk with blockSize, blockCount, growStep }, fun _ => none, [], []⟩

/-- The pool after a call in which `ExtendPool` may have run: `new char[size]` for each new address. A
negative size is an exception. -/
def allocated (s : SizedPool) (p : CMemPool) : Option SizedPool :=
  if s.pool.heap < p.heap ∧ p.blockSize < 0 then none
  else some {
    pool := p
    sizeOf := fun addr => if s.pool.heap ≤ addr ∧ addr < p.heap then some p.blockSize else s.sizeOf addr
    unused := s.unused ++ List.range' s.pool.heap (p.heap - s.pool.heap)
    outstanding := s.outstanding }

def handOut (s : SizedPool) : Option Nat → SizedPool
  | none => s
  | some addr => { s with unused := s.unused.erase addr, outstanding := addr :: s.outstanding }

def takeBack (s : SizedPool) (addr : Nat) (p : CMemPool) : Bool → SizedPool
  | false => { s with pool := p }
  | true =>
      { s with pool := p, unused := s.unused ++ [addr], outstanding := s.outstanding.erase addr }

def step (s : SizedPool) : SizedCall → Option SizedPool
  | .creat blockSize blockCount step =>
      (s.pool.creatPool blockSize blockCount step).bind fun r => s.allocated r.1
  | .get => s.pool.getBlock.bind fun r => (s.allocated r.1).map fun s => s.handOut r.2
  | .free addr => (s.pool.freeBlock addr).map fun r => s.takeBack addr r.1 r.2

/-- Every block that is free or outstanding has the size that the pool says. -/
def Sized (s : SizedPool) : Prop :=
  ∀ addr ∈ s.unused ++ s.outstanding, s.sizeOf addr = some s.pool.getBlockSize

/-- What should hold of a call: `CreatPool` keeps the pool if it returns false, and then all sizes are right. -/
def Intact (s : SizedPool) (c : SizedCall) (s' : SizedPool) : Prop :=
  (∀ blockSize blockCount step p, c = .creat blockSize blockCount step →
    s.pool.creatPool blockSize blockCount step = some (p, false) → s.pool.Kept p) ∧ s'.Sized

/-- A rejected `CreatPool` repeats the numbers of the pool, an accepted one finds no block of another size,
and an address that `FreeBlock` takes was allocated with the size of the pool. -/
def SameSize (s : SizedPool) : SizedCall → Prop
  | .creat blockSize blockCount step =>
      if s.pool.Rejects blockSize blockCount then
        blockSize = s.pool.blockSize ∧ blockCount = s.pool.blockCount ∧ step = s.pool.growStep
      else blockSize = s.pool.blockSize ∨ s.unused = [] ∧ s.outstanding = []
  | .get => True
  | .free addr => ¬s.pool.unUsedBlockQueue.Full → s.sizeOf addr = some s.pool.blockSize

instance decidableSameSize (s : SizedPool) : (c : SizedCall) → Decidable (s.SameSize c)
  | .creat _ _ _ => inferInstanceAs (Decidable (ite _ _ _))
  | .get => isTrue trivial
  | .free _ => inferInstanceAs (Decidable (_ → _))

end SizedPool

def sizedPool (junk : Nat → Nat) (blockSize blockCount growStep : Int) : StepSystem SizedPool SizedCall where
  start := .start junk blockSize blockCount growStep
  step := SizedPool.step

/-! ## What a call does to the pool -/

namespace CMemPool

variable {p p' : CMemPool} {ret : Option Nat} {done : Bool} {Q : Nat → Prop} {popped n : Nat}

theorem addBlocks_some {k : Nat} (hadd : p.addBlocks k = some p') :
    ∃ q, p' = { p with unUsedBlockQueue := q, heap := p.heap + k } := by
  induction k generalizing p with
  | zero =>
      cases hadd
      exact ⟨p'.unUsedBlockQueue, rfl⟩
  | succ k ih =>
      rw [addBlocks, Option.bind_eq_some_iff] at hadd
      obtain ⟨r, _, hadd⟩ := hadd
      obtain ⟨q, rfl⟩ := ih hadd
      exact ⟨q, by simp only [Nat.add_assoc, Nat.add_comm 1 k]⟩

/-- New blocks are pushed, so many as there is room for. -/
theorem addBlocks_window {k : Nat} (hadd : p.addBlocks k = some p') (h : Window Q p.unUsedBlockQueue popped n)
    (hnew : ∀ addr, p.heap ≤ addr → addr < p.heap + k → Q addr) :
    ∃ m ≤ k, Window Q p'.unUsedBlockQueue popped (n + m) := by
  induction k generalizing p n with
  | zero =>
      cases hadd
      exact ⟨0, Nat.le_refl 0, h⟩
  | succ k ih =>
      rw [addBlocks, Option.bind_eq_some_iff] at hadd
      obtain ⟨⟨q, done⟩, hpush, hadd⟩ := hadd
      have hfirst := h.push (hnew p.heap (Nat.le_refl _) (Nat.lt_add_of_pos_right (Nat.succ_pos k))) hpush
      have hrest : ∀ addr, p.heap + 1 ≤ addr → addr < p.heap + 1 + k → Q addr := by
        intro addr hge hlt
        exact hnew addr (by omega) (by omega)
      obtain ⟨m, hm, hwindow⟩ := ih hadd hfirst hrest
      cases done with
      | false => exact ⟨m, Nat.le_succ_of_le hm, hwindow⟩
      | true =>
          rw [if_pos rfl, Nat.add_assoc, Nat.add_comm 1 m] at hwindow
          exact ⟨m + 1, Nat.succ_le_succ hm, hwindow⟩

/-- The pool with the arguments of `CreatPool` in it. -/
def record (p : CMemPool) (blockSize blockCount step : Int) : CMemPool :=
  { p with blockSize, blockCount, growStep := step }

theorem creatPool_cases {blockSize blockCount step : Int}
    (h : p.creatPool blockSize blockCount step = some (p', done)) :
    p.Rejects blockSize blockCount ∧ done = false ∧ p' = p.record blockSize blockCount step ∨
      ¬p.Rejects blockSize blockCount ∧ done = true ∧
        ∃ p₁, { p.record blockSize blockCount step with growCount := p.growCount + 1 }.addBlocks
            blockCount.toNat = some p₁ ∧
          p' = { p₁ with blockTotalCount := p₁.blockTotalCount + p₁.blockCount, createdFlag := true } := by
  unfold creatPool at h
  dsimp only at h
  split at h
  · rename_i hchecks
    cases h
    refine .inl ⟨?_, rfl, rfl⟩
    exact hchecks.imp_right (Or.imp_right .inl)
  · rename_i hchecks
    unfold extendPool at h
    split at h
    · rename_i hgrown
      cases h
      exact .inl ⟨.inr (.inr (.inr hgrown)), rfl, rfl⟩
    · rename_i hgrown
      simp only [Option.map_map, Option.map_eq_some_iff, Function.comp] at h
      obtain ⟨p₁, hadd, heq⟩ := h
      cases heq
      refine .inr ⟨?_, rfl, p₁, hadd, rfl⟩
      rintro (hsize | hcount | hcreated | hmax)
      · exact hchecks (.inl hsize)
      · exact hchecks (.inr (.inl hcount))
      · exact hchecks (.inr (.inr hcreated))
      · exact hgrown hmax

theorem getBlock_cases (h : p.getBlock = some (p', ret)) :
    p' = p ∧ ret = none ∨
      ¬p.unUsedBlockQueue.size ≤ 0 ∧ p' = p.popBlock.1 ∧ ret = p.popBlock.2 ∨
      p.unUsedBlockQueue.size ≤ 0 ∧ ¬p.growCount ≥ growCountMax ∧
        ∃ p₁, { p with growCount := p.growCount + 1 }.addBlocks p.growStep.toNat = some p₁ ∧
          p' = { p₁ with blockTotalCount := p₁.blockTotalCount + p₁.growStep }.popBlock.1 ∧
          ret = p₁.popBlock.2 := by
  unfold getBlock at h
  split at h
  · rename_i hempty
    unfold extendPool at h
    split at h
    · cases h
      exact .inl ⟨rfl, rfl⟩
    · rename_i hgrow
      simp only [Option.map_map, Option.map_eq_some_iff, Function.comp] at h
      obtain ⟨p₁, hadd, heq⟩ := h
      cases heq
      exact .inr (.inr ⟨hempty, hgrow, p₁, hadd, rfl, rfl⟩)
  · rename_i hsome
    cases h
    exact .inr (.inl ⟨hsome, rfl, rfl⟩)

end CMemPool

/-! ## The sizes -/

namespace SizedPool

variable {s s' : SizedPool} {p : CMemPool} {ret : Option Nat} {addr : Nat}

/-- The blocks in the queue have the size of the pool, and there are not more of them than are unused. -/
structure Inv (s : SizedPool) : Prop where
  sized : s.Sized
  below : ∀ addr size, s.sizeOf addr = some size → addr < s.pool.heap
  queue : ∃ popped n, n ≤ s.unused.length ∧
    Window (fun addr => s.sizeOf addr = some s.pool.blockSize) s.pool.unUsedBlockQueue popped n

theorem inv_start (junk : Nat → Nat) (blockSize blockCount growStep : Int) :
    Inv (start junk blockSize blockCount growStep) :=
  ⟨nofun, nofun, 0, 0, Nat.le_refl 0, window_new _ junk⟩

/-- The sizes with `k` new blocks of one size. -/
def sizeWith (s : SizedPool) (k : Nat) (blockSize : Int) (addr : Nat) : Option Int :=
  if s.pool.heap ≤ addr ∧ addr < s.pool.heap + k then some blockSize else s.sizeOf addr

theorem sizeWith_new {k : Nat} {blockSize : Int} (hge : s.pool.heap ≤ addr) (hlt : addr < s.pool.heap + k) :
    s.sizeWith k blockSize addr = some blockSize :=
  if_pos ⟨hge, hlt⟩

theorem Inv.sizeWith_old (h : Inv s) {size : Int} (haddr : s.sizeOf addr = some size) (k : Nat)
    (blockSize : Int) : s.sizeWith k blockSize addr = some size := by
  have hlt := h.below addr size haddr
  rw [sizeWith, if_neg fun hnew => Nat.not_lt.mpr hnew.1 hlt]
  exact haddr

theorem allocated_eq_some (hs : s.allocated p = some s') {k : Nat} (hheap : p.heap = s.pool.heap + k) :
    s' = {
      pool := p
      sizeOf := s.sizeWith k p.blockSize
      unused := s.unused ++ List.range' s.pool.heap k
      outstanding := s.outstanding } := by
  rw [allocated] at hs
  split at hs
  · cases hs
  · cases hs
    simp only [hheap, Nat.add_sub_cancel_left]
    rfl

/-- `ExtendPool` for a size that no block contradicts. -/
theorem Inv.extend (h : Inv s) {blockSize blockCount growStep growCount : Int} {k : Nat}
    (hsize : blockSize = s.pool.blockSize ∨ s.unused = [] ∧ s.outstanding = [])
    (hadd : { s.pool with blockSize, blockCount, growStep, growCount }.addBlocks k = some p)
    (hs : s.allocated p = some s') : Inv s' := by
  obtain ⟨popped, n, hn, hwindow⟩ := h.queue
  have hwindow : Window (fun addr => s.sizeWith k blockSize addr = some blockSize)
      s.pool.unUsedBlockQueue popped n := by
    rcases hsize with rfl | ⟨hunused, _⟩
    · exact hwindow.mono fun addr haddr => h.sizeWith_old haddr k _
    · rw [hunused] at hn
      obtain rfl : n = 0 := Nat.le_zero.mp hn
      exact hwindow.of_empty
  have hold : ∀ addr ∈ s.unused ++ s.outstanding, s.sizeWith k blockSize addr = some blockSize := by
    rcases hsize with rfl | ⟨hunused, houtstanding⟩
    · exact fun addr haddr => h.sizeWith_old (h.sized addr haddr) k _
    · rw [hunused, houtstanding]
      exact nofun
  obtain ⟨m, hm, hwindow⟩ := CMemPool.addBlocks_window hadd hwindow fun addr => sizeWith_new
  obtain ⟨q, rfl⟩ := CMemPool.addBlocks_some hadd
  cases allocated_eq_some hs rfl
  refine ⟨?_, ?_, popped, n + m, ?_, hwindow⟩
  · intro addr haddr
    simp only [List.mem_append, List.mem_range'_1] at haddr hold
    rcases haddr with (hunused | ⟨hge, hlt⟩) | houtstanding
    · exact hold addr (.inl hunused)
    · exact sizeWith_new hge hlt
    · exact hold addr (.inr houtstanding)
  · intro addr size haddr
    simp only [sizeWith] at haddr
    split at haddr
    · rename_i hnew
      exact hnew.2
    · exact Nat.lt_add_right k (h.below addr size haddr)
  · simp only [List.length_append, List.length_range']
    exact Nat.add_le_add hn hm

/-- Nothing but the numbers of blocks and steps changes. -/
theorem Inv.of_pool (h : Inv s) (hblockSize : p.blockSize = s.pool.blockSize)
    (hqueue : p.unUsedBlockQueue = s.pool.unUsedBlockQueue) (hheap : p.heap = s.pool.heap) :
    Inv { s with pool := p } := by
  refine ⟨?_, ?_, ?_⟩
  · intro addr haddr
    simp only [CMemPool.getBlockSize, hblockSize]
    exact h.sized addr haddr
  · simp only [hheap]
    exact h.below
  · simp only [hblockSize, hqueue]
    exact h.queue

theorem allocated_same (hheap : p.heap = s.pool.heap) : s.allocated p = some { s with pool := p } := by
  have hnone : ∀ addr, ¬(s.pool.heap ≤ addr ∧ addr < s.pool.heap) := fun addr hnew =>
    Nat.not_lt.mpr hnew.1 hnew.2
  simp [allocated, hheap, hnone]

/-- `allocated` looks at no more of the pool than these two. -/
theorem allocated_of_same (hs : s.allocated p = some s') (p₁ : CMemPool) (hblockSize : p₁.blockSize = p.blockSize)
    (hheap : p₁.heap = p.heap) :
    ∃ s₁, s.allocated p₁ = some s₁ ∧ s₁.pool = p₁ ∧ s' = { s₁ with pool := p } := by
  unfold allocated at hs ⊢
  rw [hblockSize, hheap]
  split at hs
  · cases hs
  · rename_i hnegative
    cases hs
    rw [if_neg hnegative]
    exact ⟨_, rfl, rfl, rfl⟩

/-- A block is handed out. -/
theorem Inv.popBlock (h : Inv s) : Inv ({ s with pool := s.pool.popBlock.1 }.handOut s.pool.popBlock.2) := by
  obtain ⟨popped, n, hn, hwindow⟩ := h.queue
  rcases hwindow.pop with hnone | ⟨addr, m, hret, haddr, rfl, hrest⟩
  · simp only [CMemPool.popBlock, hnone]
    exact h
  · simp only [CMemPool.popBlock, hret, handOut]
    refine ⟨?_, h.below, popped + 1, m, ?_, hrest⟩
    · intro addr' haddr'
      simp only [List.mem_append, List.mem_cons] at haddr'
      rcases haddr' with hunused | rfl | houtstanding
      · exact h.sized addr' (List.mem_append_left _ (List.mem_of_mem_erase hunused))
      · exact haddr
      · exact h.sized addr' (List.mem_append_right _ houtstanding)
    · exact (Nat.le_sub_of_add_le hn).trans List.le_length_erase

theorem Inv.get (h : Inv s) (hs : s.step .get = some s') : Inv s' := by
  simp only [SizedPool.step, Option.bind_eq_some_iff, Option.map_eq_some_iff] at hs
  obtain ⟨⟨p, ret⟩, hget, s₁, halloc, rfl⟩ := hs
  rcases CMemPool.getBlock_cases hget with ⟨rfl, rfl⟩ | ⟨_, rfl, rfl⟩ | ⟨_, _, p₁, hadd, rfl, rfl⟩
  · cases (allocated_same rfl).symm.trans halloc
    exact h
  · have hsame : s.allocated s.pool.popBlock.1 = some { s with pool := s.pool.popBlock.1 } := allocated_same rfl
    cases hsame.symm.trans halloc
    exact h.popBlock
  · obtain ⟨s₂, hextended, hpool, rfl⟩ := allocated_of_same halloc p₁ rfl rfl
    subst hpool
    have hextend := h.extend (.inl rfl) hadd hextended
    have htotal : Inv { s₂ with
        pool := { s₂.pool with blockTotalCount := s₂.pool.blockTotalCount + s₂.pool.growStep } } :=
      hextend.of_pool rfl rfl rfl
    exact htotal.popBlock

theorem Inv.free (h : Inv s) (hsize : s.SameSize (.free addr)) (hs : s.step (.free addr) = some s') :
    Inv s' := by
  simp only [SizedPool.step, CMemPool.freeBlock, Option.map_map, Option.map_eq_some_iff, Function.comp] at hs
  obtain ⟨⟨q, done⟩, hpush, rfl⟩ := hs
  obtain ⟨popped, n, hn, hwindow⟩ := h.queue
  cases done with
  | false =>
      cases (CLockFreeQueue.push_cases hpush).2 rfl
      exact h
  | true =>
      have haddr := hsize ((CLockFreeQueue.push_cases hpush).1.mp rfl)
      refine ⟨?_, h.below, popped, n + 1, ?_, hwindow.push haddr hpush⟩
      · intro addr' haddr'
        simp only [takeBack, List.mem_append, List.mem_singleton] at haddr'
        rcases haddr' with (hunused | rfl) | houtstanding
        · exact h.sized addr' (List.mem_append_left _ hunused)
        · exact haddr
        · exact h.sized addr' (List.mem_append_right _ (List.mem_of_mem_erase houtstanding))
      · simp only [takeBack, List.length_append, List.length_singleton]
        exact Nat.succ_le_succ hn

theorem Inv.creat (h : Inv s) {blockSize blockCount step : Int}
    (hsize : s.SameSize (.creat blockSize blockCount step))
    (hs : s.step (.creat blockSize blockCount step) = some s') :
    Intact s (.creat blockSize blockCount step) s' ∧ Inv s' := by
  simp only [SizedPool.step, Option.bind_eq_some_iff] at hs
  obtain ⟨⟨p, done⟩, hcreat, halloc⟩ := hs
  rw [SameSize] at hsize
  rcases CMemPool.creatPool_cases hcreat with ⟨hrejects, rfl, rfl⟩ | ⟨haccepts, rfl, p₁, hadd, rfl⟩
  · rw [if_pos hrejects] at hsize
    obtain ⟨rfl, rfl, rfl⟩ := hsize
    cases (allocated_same rfl).symm.trans halloc
    refine ⟨⟨?_, h.sized⟩, h⟩
    rintro _ _ _ p ⟨⟩ hfalse
    cases hcreat.symm.trans hfalse
    exact ⟨rfl, rfl, rfl, rfl, rfl⟩
  · rw [if_neg haccepts] at hsize
    obtain ⟨s₁, hextended, hpool, rfl⟩ := allocated_of_same halloc p₁ rfl rfl
    subst hpool
    have hextend := h.extend hsize hadd hextended
    have hinv := hextend.of_pool (p := { s₁.pool with
      blockTotalCount := s₁.pool.blockTotalCount + s₁.pool.blockCount, createdFlag := true }) rfl rfl rfl
    refine ⟨⟨?_, hinv.sized⟩, hinv⟩
    rintro _ _ _ p ⟨⟩ hfalse
    cases hcreat.symm.trans hfalse

theorem Inv.step {c : SizedCall} (h : Inv s) (hs : s.step c = some s') (hsize : s.SameSize c) :
    Intact s c s' ∧ Inv s' := by
  cases c with
  | creat blockSize blockCount step => exact h.creat hsize hs
  | get =>
      have hinv := h.get hs
      exact ⟨⟨fun _ _ _ _ heq => SizedCall.noConfusion heq, hinv.sized⟩, hinv⟩
  | free addr =>
      have hinv := h.free hsize hs
      exact ⟨⟨fun _ _ _ _ heq => SizedCall.noConfusion heq, hinv.sized⟩, hinv⟩

theorem sameSize_of_intact {c : SizedCall} (h : Inv s) (hs : s.step c = some s') (hgood : Intact s c s') :
    s.SameSize c := by
  cases c with
  | creat blockSize blockCount step =>
      simp only [SizedPool.step, Option.bind_eq_some_iff] at hs
      obtain ⟨⟨p, done⟩, hcreat, halloc⟩ := hs
      rw [SameSize]
      rcases CMemPool.creatPool_cases hcreat with ⟨hrejects, rfl, rfl⟩ | ⟨haccepts, rfl, p₁, hadd, rfl⟩
      · rw [if_pos hrejects]
        have hkept := hgood.1 _ _ _ _ rfl hcreat
        exact ⟨hkept.blockSize, hkept.blockCount, hkept.growStep⟩
      · rw [if_neg haccepts]
        obtain ⟨q, rfl⟩ := CMemPool.addBlocks_some hadd
        cases allocated_eq_some halloc rfl
        by_contra hother
        rw [not_or] at hother
        have hempty : s.unused ++ s.outstanding = [] := by
          refine List.eq_nil_iff_forall_not_mem.mpr fun addr haddr => hother.1 ?_
          have hold := h.sizeWith_old (h.sized addr haddr) blockCount.toNat blockSize
          have hnew := hgood.2 addr (by
            simp only [List.mem_append] at haddr ⊢
            exact haddr.imp_left .inl)
          exact Option.some.inj (hnew.symm.trans hold)
        exact hother.2 (List.append_eq_nil_iff.mp hempty)
  | get => trivial
  | free addr =>
      intro hroom
      simp only [SizedPool.step, CMemPool.freeBlock, Option.map_map, Option.map_eq_some_iff,
        Function.comp] at hs
      obtain ⟨⟨q, done⟩, hpush, rfl⟩ := hs
      obtain rfl : done = true := (CLockFreeQueue.push_cases hpush).1.mpr hroom
      apply hgood.2
      simp [takeBack]

end SizedPool

open SizedPool

/-- `CreatPool` leaves the pool as it was whenever it returns false, and all sizes are right, exactly when the
calls are such that it cannot go wrong. -/
theorem intact_iff (junk : Nat → Nat) (blockSize blockCount growStep : Int) (calls : List SizedCall)
    (s : SizedPool)
    (hr : (sizedPool junk blockSize blockCount growStep).run (.start junk blockSize blockCount growStep) calls =
      some s) :
    (∀ cs c s₁ s₂, cs ++ [c] <+: calls →
      (sizedPool junk blockSize blockCount growStep).run (.start junk blockSize blockCount growStep) cs =
        some s₁ →
      (sizedPool junk blockSize blockCount growStep).step s₁ c = some s₂ → Intact s₁ c s₂) ↔
    (sizedPool junk blockSize blockCount growStep).Meets SameSize (.start junk blockSize blockCount growStep)
      calls := by
  have hstart := inv_start junk blockSize blockCount growStep
  refine StepSystem.meets_iff_forall_steps _ Intact ?_ ?_ hstart hr
  · exact fun s c s' h hs hsize => h.step hs hsize
  · exact fun s c s' h hs hgood => sameSize_of_intact h hs hgood

/-- The pool is created, and created again in the same way. -/
theorem intact_iff_twice :
    ((sizedPool (fun _ => 0) 0 0 0).run (.start (fun _ => 0) 0 0 0)
      [.creat 8 2 1, .get, .creat 8 2 1, .free 0]).map (·.outstanding) = some [] ∧
    ∀ cs c s₁ s₂, cs ++ [c] <+: [.creat 8 2 1, .get, .creat 8 2 1, .free 0] →
      (sizedPool (fun _ => 0) 0 0 0).run (.start (fun _ => 0) 0 0 0) cs = some s₁ →
      (sizedPool (fun _ => 0) 0 0 0).step s₁ c = some s₂ → Intact s₁ c s₂ :=
  ⟨by decide,
    (intact_iff (fun _ => 0) 0 0 0 [.creat 8 2 1, .get, .creat 8 2 1, .free 0] _ rfl).mpr (by decide)⟩

/-- The second `CreatPool` returns false, and a block of 8 bytes is said to have 16. -/
theorem not_intact_rejected :
    ¬ ∀ calls c s₁ s₂, (sizedPool (fun _ => 0) 0 0 0).run (.start (fun _ => 0) 0 0 0) calls = some s₁ →
      (sizedPool (fun _ => 0) 0 0 0).step s₁ c = some s₂ → Intact s₁ c s₂ := by
  intro h
  have hsized := (h [.creat 8 1 1] (.creat 16 1 1) _ _ rfl rfl).2 0 (by decide)
  revert hsized
  decide

end CmdTran
