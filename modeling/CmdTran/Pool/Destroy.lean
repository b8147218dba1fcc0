import Mathlib.Data.List.Perm.Subperm
import CmdTran.Pool.Sizes
import CmdTran.Pool.Theorems

/-!
# The end of a pool

The destructor deletes what is in the queue. `FreeMem` goes by `Size()`, which `Pop` counts down, and not by
what the queue holds.
-/

namespace CmdTran

namespace CMemPool

/-- `FreeMem` with at most `fuel` rounds of its loop; the blocks that it deletes, in order. -/
def freeMem (p : CMemPool) : Nat → Option (CMemPool × List Nat)
  | 0 => none
  | fuel + 1 =>
      if p.unUsedBlockQueue.size > 0 then
        match p.popBlock with
        | (p, some buff) => (freeMem p fuel).map fun r => (r.1, buff :: r.2)
        | (p, none) => freeMem p fuel
      else some (p, [])

variable {p p' : CMemPool} {pushed : List Nat} {popped : Nat}

/-- The loop ends, and has then deleted all blocks of the queue. -/
theorem freeMem_eq (h : Rel p.unUsedBlockQueue pushed popped) (hlt : pushed.length - popped < wrapShift)
    {fuel : Nat} (hfuel : pushed.length - popped < fuel) :
    ∃ q, p.freeMem fuel = some ({ p with unUsedBlockQueue := q }, pushed.drop popped) ∧
      Rel q pushed pushed.length := by
  induction fuel generalizing p popped with
  | zero => exact absurd hfuel (Nat.not_lt_zero _)
  | succ fuel ih =>
      have hle := h.le
      have hsize := h.size_toNat
      rw [freeMem]
      rcases Nat.lt_or_eq_of_le hle with hfree | heq
      · have hpos : p.unUsedBlockQueue.size > 0 := by
          change (0 : UInt32).toNat < p.unUsedBlockQueue.size.toNat
          rw [hsize]
          exact Nat.sub_pos_of_lt hfree
        obtain ⟨hpop, hrel⟩ := h.pop_of_lt (List.getElem?_eq_getElem hfree) hlt
        obtain ⟨q, hrest, hend⟩ :=
          ih (p := { p with unUsedBlockQueue := p.unUsedBlockQueue.pop.1 }) hrel (by omega) (by omega)
        refine ⟨q, ?_, hend⟩
        rw [if_pos hpos, popBlock, hpop]
        dsimp only
        rw [hrest, List.drop_eq_getElem_cons hfree]
        rfl
      · have hzero : ¬p.unUsedBlockQueue.size > 0 := by
          change ¬(0 : UInt32).toNat < p.unUsedBlockQueue.size.toNat
          rw [hsize, heq, Nat.sub_self]
          exact Nat.lt_irrefl 0
        subst heq
        refine ⟨p.unUsedBlockQueue, ?_, h⟩
        rw [if_neg hzero, List.drop_length]

/-! ## What was allocated -/

theorem extendPool_heap {count : Int} {done : Bool} (h : p.extendPool count = some (p', done)) :
    p'.growStep = p.growStep ∧ p'.blockCount = p.blockCount ∧ p'.blockTotalCount = p.blockTotalCount ∧
      p'.heap = p.heap + if done then count.toNat else 0 := by
  rw [extendPool] at h
  split at h
  · cases h
    exact ⟨rfl, rfl, rfl, rfl⟩
  · obtain ⟨p₁, hadd, heq⟩ := Option.map_eq_some_iff.mp h
    obtain ⟨q, rfl⟩ := addBlocks_some hadd
    cases heq
    exact ⟨rfl, rfl, rfl, rfl⟩

end CMemPool

namespace PoolUse

/-- Every address up to `heap` has been counted. -/
structure CountsHeap (step : Int) (s : PoolUse) : Prop where
  growStep : s.pool.growStep = step
  heap : (s.pool.heap : Int) = s.pool.blockTotalCount

variable {step : Int} {s s' : PoolUse}

theorem CountsHeap.of_pool {p : CMemPool} (h : CountsHeap step s) {outstanding : List Nat}
    (hgrowStep : p.growStep = s.pool.growStep) (hheap : p.heap = s.pool.heap)
    (htotal : p.blockTotalCount = s.pool.blockTotalCount) : CountsHeap step ⟨p, outstanding⟩ := by
  refine ⟨hgrowStep.trans h.growStep, ?_⟩
  dsimp only
  rw [hheap, htotal]
  exact h.heap

theorem CountsHeap.move (h : CountsHeap step s) (hstep : 0 < step) {a : PoolCall} (hs : s.step a = some s') :
    CountsHeap step s' := by
  cases a with
  | get =>
      obtain ⟨⟨p, ret⟩, hget, rfl⟩ := Option.map_eq_some_iff.mp hs
      rw [CMemPool.getBlock] at hget
      split at hget
      · obtain ⟨⟨p₁, done⟩, hextend, heq⟩ := Option.map_eq_some_iff.mp hget
        obtain ⟨hgrowStep, -, htotal, hheap⟩ := CMemPool.extendPool_heap hextend
        cases done with
        | false =>
            cases heq
            exact h.of_pool hgrowStep hheap htotal
        | true =>
            cases heq
            have hcounted := h.heap
            refine ⟨hgrowStep.trans h.growStep, ?_⟩
            dsimp only [CMemPool.popBlock]
            rw [hheap, htotal, hgrowStep, h.growStep, if_pos rfl]
            omega
      · cases hget
        exact h.of_pool rfl rfl rfl
  | free addr =>
      rw [PoolUse.step] at hs
      split at hs
      · obtain ⟨⟨p, done⟩, hfree, rfl⟩ := Option.map_eq_some_iff.mp hs
        obtain ⟨r, _, heq⟩ := Option.map_eq_some_iff.mp hfree
        cases heq
        exact h.of_pool rfl rfl rfl
      · cases hs

theorem CountsHeap.start {junk : Nat → Nat} {size count : Int} {p : CMemPool} (hcount : 0 < count)
    (hcreat : (CMemPool.new junk).creatPool size count step = some (p, true)) : CountsHeap step ⟨p, []⟩ := by
  rw [CMemPool.creatPool] at hcreat
  split at hcreat
  · cases hcreat
  · obtain ⟨⟨p₁, done⟩, hextend, heq⟩ := Option.map_eq_some_iff.mp hcreat
    obtain ⟨hgrowStep, hblockCount, htotal, hheap⟩ := CMemPool.extendPool_heap hextend
    cases done with
    | false => cases heq
    | true =>
        cases heq
        refine ⟨hgrowStep, ?_⟩
        dsimp only [CMemPool.new] at hblockCount hheap htotal ⊢
        rw [hheap, hblockCount, htotal, if_pos rfl]
        omega

end PoolUse

/-! ## Every run -/

open PoolUse

/-- Whatever has been got and given back, the destructor deletes each free block once and then ends; these
blocks and the outstanding ones are all that were ever allocated. -/
theorem destroyed_of_run (junk : Nat → Nat) {size count step : Int} (hsize : 0 < size)
    (hcount : 0 < count) (hstep : 0 < step) (hmax : count + 19 * step ≤ 0xFFFFFF) :
    ∃ p, (CMemPool.new junk).creatPool size count step = some (p, true) ∧
      ∀ calls s, (poolUse p).run ⟨p, []⟩ calls = some s →
        (∀ fuel, s.unused.length < fuel →
          ∃ p', s.pool.freeMem fuel = some (p', s.unused) ∧ p'.unUsedBlockQueue.contents = []) ∧
        (s.unused ++ s.outstanding).Perm (List.range s.pool.heap) := by
  have hsmall : Small count step := ⟨hcount, hstep, hmax⟩
  obtain ⟨p, pushed, hcreat, hinv⟩ := Inv.start hsmall hsize junk
  refine ⟨p, hcreat, ?_⟩
  intro calls s hrun
  have hmove : ∀ s a s', (∃ pushed popped, Inv count step s pushed popped) ∧ CountsHeap step s →
      (poolUse p).step s a = some s' →
      (∃ pushed popped, Inv count step s' pushed popped) ∧ CountsHeap step s' := by
    rintro s a s' ⟨⟨pushed, popped, hs⟩, hcounted⟩ hnext
    exact ⟨hs.move hsmall hnext, hcounted.move hstep hnext⟩
  obtain ⟨⟨pushed', popped', hend⟩, hcounted⟩ :=
    (poolUse p).run_invariant hmove ⟨⟨pushed, 0, hinv⟩, CountsHeap.start hcount hcreat⟩ hrun
  have hunused := hend.unused_eq hsmall
  have hlt := hend.length_lt hsmall
  constructor
  · intro fuel hfuel
    rw [hunused, List.length_drop] at hfuel
    obtain ⟨q, hfree, hrel⟩ := CMemPool.freeMem_eq hend.queue hlt hfuel
    refine ⟨_, hunused ▸ hfree, ?_⟩
    rw [hrel.contents_of_lt (by rw [Nat.sub_self]; decide), List.drop_length]
  · have hsubset : s.unused ++ s.outstanding ⊆ List.range s.pool.heap := by
      intro addr haddr
      rw [hunused] at haddr
      exact List.mem_range.mpr (hend.heap addr haddr)
    have hnodup : (s.unused ++ s.outstanding).Nodup := hunused ▸ hend.exclusive
    have htotal := hend.total
    have hheap := hcounted.heap
    apply (hnodup.subperm hsubset).perm_of_length_le
    rw [List.length_range, List.length_append, hunused]
    omega

/-- The pool of `CRecvDataProc::Init`. -/
theorem destroyed_of_run_initialize :
    ∃ p, (CMemPool.new fun _ => 0).creatPool 1152 307200 10240 = some (p, true) ∧
      ∀ calls s, (poolUse p).run ⟨p, []⟩ calls = some s →
        (∀ fuel, s.unused.length < fuel →
          ∃ p', s.pool.freeMem fuel = some (p', s.unused) ∧ p'.unUsedBlockQueue.contents = []) ∧
        (s.unused ++ s.outstanding).Perm (List.range s.pool.heap) :=
  destroyed_of_run (fun _ => 0) (by decide) (by decide) (by decide) (by decide)

end CmdTran
