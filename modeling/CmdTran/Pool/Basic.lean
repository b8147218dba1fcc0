import CmdTran.Lib.System
import CmdTran.Queue.Basic

/-!
# The block pool

`CMemPool` over the lock-free queue, its calls made one after another. A block is known by its address,
and `new` gives out addresses that are not in use; the pool deletes none while it is there.
-/

namespace CmdTran

/-- `GROW_COUNT_MAX` -/
def growCountMax : Int := 20

/-- `heap` is the next address that `new` gives out. -/
structure CMemPool where
  blockTotalCount : Int
  blockSize : Int
  blockCount : Int
  growStep : Int
  growCount : Int
  createdFlag : Bool
  unUsedBlockQueue : CLockFreeQueue Nat
  heap : Nat

namespace CMemPool

/-- The constructor does not set `BlockSize`, `BlockCount` and `GrowStep`; `CreatPool` does. -/
def new (junk : Nat → Nat) : CMemPool := ⟨0, 0, 0, 0, 0, false, CLockFreeQueue.new junk, 0⟩

/-! ## Growing -/

/-- The loop of `ExtendPool`. A block that cannot be pushed is lost. -/
def addBlocks (p : CMemPool) : Nat → Option CMemPool
  | 0 => some p
  | n + 1 =>
      (p.unUsedBlockQueue.push p.heap).bind fun r =>
        addBlocks { p with unUsedBlockQueue := r.1, heap := p.heap + 1 } n

/-- The size of the blocks shows in no result. -/
def extendPool (p : CMemPool) (count : Int) : Option (CMemPool × Bool) :=
  if p.growCount ≥ growCountMax then some (p, false)
  else ({ p with growCount := p.growCount + 1 }.addBlocks count.toNat).map fun p => (p, true)

def creatPool (p : CMemPool) (blockSize blockCount step : Int) : Option (CMemPool × Bool) :=
  let p := { p with blockSize, blockCount, growStep := step }
  if p.blockSize ≤ 0 ∨ p.blockCount ≤ 0 ∨ p.createdFlag = true then some (p, false)
  else
    (p.extendPool p.blockCount).map fun
      | (p, false) => (p, false)
      | (p, true) =>
          ({ p with blockTotalCount := p.blockTotalCount + p.blockCount, createdFlag := true }, true)

/-! ## Blocks -/

def popBlock (p : CMemPool) : CMemPool × Option Nat :=
  ({ p with unUsedBlockQueue := p.unUsedBlockQueue.pop.1 }, p.unUsedBlockQueue.pop.2)

def getBlock (p : CMemPool) : Option (CMemPool × Option Nat) :=
  if p.unUsedBlockQueue.size ≤ 0 then
    (p.extendPool p.growStep).map fun
      | (p, false) => (p, none)
      | (p, true) => { p with blockTotalCount := p.blockTotalCount + p.growStep }.popBlock
  else some p.popBlock

def freeBlock (p : CMemPool) (addr : Nat) : Option (CMemPool × Bool) :=
  (p.unUsedBlockQueue.push addr).map fun r => ({ p with unUsedBlockQueue := r.1 }, r.2)

def getBlockFreeCount (p : CMemPool) : Int := p.unUsedBlockQueue.size.toNat

end CMemPool

/-! ## The pool in use -/

/-- A pool and the blocks that it has given out and not got back. -/
structure PoolUse where
  pool : CMemPool
  outstanding : List Nat

inductive PoolCall where
  | get
  | free (addr : Nat)
  deriving DecidableEq

namespace PoolUse

/-- Only an outstanding block is freed. -/
def step (s : PoolUse) : PoolCall → Option PoolUse
  | .get => s.pool.getBlock.map fun r => ⟨r.1, r.2.toList ++ s.outstanding⟩
  | .free addr =>
      if addr ∈ s.outstanding then
        (s.pool.freeBlock addr).map fun r => ⟨r.1, s.outstanding.erase addr⟩
      else none

/-- The blocks that are free. -/
def unused (s : PoolUse) : List Nat := s.pool.unUsedBlockQueue.contents

/-- No block is in two places, none is lost, `FreeBlock` succeeds, and `GetBlock` fails only at the
end of what the pool may grow to. -/
structure Conserved (s : PoolUse) : Prop where
  exclusive : (s.unused ++ s.outstanding).Nodup
  total : (s.unused.length : Int) + s.outstanding.length = s.pool.blockTotalCount
  freeCount : s.pool.getBlockFreeCount = s.unused.length
  free : ∀ addr ∈ s.outstanding, ∃ p, s.pool.freeBlock addr = some (p, true)
  get : ∃ p ret, s.pool.getBlock = some (p, ret) ∧
    (ret = none ↔ s.unused = [] ∧ s.pool.growCount = growCountMax)

end PoolUse

def poolUse (p : CMemPool) : StepSystem PoolUse PoolCall where
  start := ⟨p, []⟩
  step := PoolUse.step

end CmdTran
