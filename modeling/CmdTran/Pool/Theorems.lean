import CmdTran.Queue.Refinement
import CmdTran.Pool.Basic

/-!
# The pool loses and doubles nothing

A pool of fewer than `2^24` blocks never meets what the queue does when its counters wrap: whatever the
length of the run, the queue is a list of the free blocks.
-/

namespace CmdTran

/-! ## Unused and outstanding blocks -/

section Blocks

variable {unused outstanding : List Nat}

/-- A block that is given back changes lists. -/
theorem perm_freed {addr : Nat} (haddr : addr ∈ outstanding) :
    (unused ++ [addr] ++ outstanding.erase addr).Perm (unused ++ outstanding) := by
  rw [List.append_assoc]
  exact (List.perm_cons_erase haddr).symm.append_left _

/-- New blocks are above all others. -/
theorem nodup_added {added : List Nat} {heap n : Nat} (hnodup : (unused ++ outstanding).Nodup)
    (hheap : ∀ addr ∈ unused ++ outstanding, addr < heap) (hsub : added.Sublist (List.range' heap n)) :
    (unused ++ added ++ outstanding).Nodup ∧ ∀ addr ∈ unused ++ added ++ outstanding,
      addr ∈ unused ++ outstanding ∨ heap ≤ addr ∧ addr < heap + n := by
  have hadded : ∀ addr ∈ added, heap ≤ addr ∧ addr < heap + n := fun addr haddr =>
    List.mem_range'_1.mp (hsub.subset haddr)
  have hperm : (unused ++ added ++ outstanding).Perm (added ++ (unused ++ outstanding)) := by
    rw [← List.append_assoc]
    exact List.perm_append_comm.append_right _
  constructor
  · apply hperm.nodup_iff.mpr
    refine List.nodup_append.mpr ⟨hsub.nodup List.nodup_range', hnodup, ?_⟩
    intro addr hnew addr' hold
    have hge := (hadded addr hnew).1
    have hlt := hheap addr' hold
    omega
  · intro addr haddr
    rcases List.mem_append.mp (hperm.mem_iff.mp haddr) with hnew | hold
    · exact .inr (hadded addr hnew)
    · exact .inl hold

end Blocks

/-! ## Growing -/

namespace CMemPool

variable {p : CMemPool} {pushed : List Nat} {popped : Nat}

/-- The new blocks go to the end of the queue. -/
theorem addBlocks_eq (h : Rel p.unUsedBlockQueue pushed popped) (n : Nat)
    (hroom : pushed.length - popped + n < wrapShift) :
    ∃ q, p.addBlocks n = some { p with unUsedBlockQueue := q, heap := p.heap + n } ∧
      Rel q (pushed ++ List.range' p.heap n) popped := by
  induction n generalizing p pushed with
  | zero =>
      refine ⟨p.unUsedBlockQueue, rfl, ?_⟩
      rw [List.range'_zero, List.append_nil]
      exact h
  | succ n ih =>
      have hle := h.le
      obtain ⟨q, hpush, hrel⟩ := h.push_of_lt p.heap (by omega)
      have hlen : (pushed ++ [p.heap]).length = pushed.length + 1 := by simp
      obtain ⟨q', hadd, hrel'⟩ :=
        ih (p := { p with unUsedBlockQueue := q, heap := p.heap + 1 }) hrel (by omega)
      refine ⟨q', ?_, ?_⟩
      · rw [addBlocks, hpush, Option.bind_some, hadd, Nat.add_assoc, Nat.add_comm 1 n]
      · rw [List.range'_succ, List.append_cons]
        exact hrel'

theorem extendPool_eq (h : Rel p.unUsedBlockQueue pushed popped) (count : Int)
    (hgrow : p.growCount < growCountMax)
    (hroom : pushed.length - popped + count.toNat < wrapShift) :
    ∃ q, p.extendPool count = some ({ p with
        growCount := p.growCount + 1
        unUsedBlockQueue := q
        heap := p.heap + count.toNat }, true) ∧
      Rel q (pushed ++ List.range' p.heap count.toNat) popped := by
  obtain ⟨q, hadd, hrel⟩ :=
    addBlocks_eq (p := { p with growCount := p.growCount + 1 }) h count.toNat hroom
  refine ⟨q, ?_, hrel⟩
  rw [extendPool, if_neg (Int.not_le.mpr hgrow), hadd, Option.map_some]

/-- A new pool of `count` blocks. -/
theorem creatPool_eq (junk : Nat → Nat) {size count : Int} (step : Int) (hsize : 0 < size)
    (hcount : 0 < count) (hroom : count < wrapShift) :
    ∃ q, (new junk).creatPool size count step =
        some (⟨count, size, count, step, 1, true, q, count.toNat⟩, true) ∧
      Rel q (List.range' 0 count.toNat) 0 := by
  have hgrow : (0 : Int) < growCountMax := by decide
  obtain ⟨q, hextend, hrel⟩ := extendPool_eq
    (p := ⟨0, size, count, step, 0, false, CLockFreeQueue.new junk, 0⟩) (rel_new junk)
    count hgrow (by
      simp only [wrapShift, List.length_nil] at hroom ⊢
      omega)
  refine ⟨q, ?_, hrel⟩
  have hchecks : ¬(size ≤ 0 ∨ count ≤ 0 ∨ false = true) := by
    rintro (hbad | hbad | hbad)
    · omega
    · omega
    · cases hbad
  rw [creatPool, new]
  dsimp only
  rw [if_neg hchecks, hextend]
  simp only [Option.map_some, Int.zero_add, Nat.zero_add]

end CMemPool

/-! ## The invariant -/

namespace PoolUse

/-- The pool of `CreatPool(size, count, step)`; `pushed` are all blocks that were ever put in the queue,
the first `popped` of them are taken. -/
structure Inv (count step : Int) (s : PoolUse) (pushed : List Nat) (popped : Nat) : Prop where
  queue : Rel s.pool.unUsedBlockQueue pushed popped
  growStep : s.pool.growStep = step
  grown : 1 ≤ s.pool.growCount ∧ s.pool.growCount ≤ growCountMax
  size : s.pool.blockTotalCount = count + (s.pool.growCount - 1) * step
  total : ((pushed.drop popped).length : Int) + s.outstanding.length = s.pool.blockTotalCount
  exclusive : (pushed.drop popped ++ s.outstanding).Nodup
  heap : ∀ addr ∈ pushed.drop popped ++ s.outstanding, addr < s.pool.heap

/-- The pool grows in steps of `step` and stays below `2^24` blocks. -/
structure Small (count step : Int) : Prop where
  countPos : 0 < count
  stepPos : 0 < step
  total : count + 19 * step ≤ 0xFFFFFF

namespace Inv

variable {count step : Int} {s : PoolUse} {pushed : List Nat} {popped : Nat}

theorem total_lt (h : Inv count step s pushed popped) (hsmall : Small count step) :
    s.pool.blockTotalCount < wrapShift := by
  have hgrown := h.grown.2
  have hstep := hsmall.stepPos
  have hmax := hsmall.total
  have hmul : (s.pool.growCount - 1) * step ≤ 19 * step := by
    apply Int.mul_le_mul_of_nonneg_right _ (Int.le_of_lt hstep)
    simp only [growCountMax] at hgrown
    omega
  rw [h.size]
  simp only [wrapShift]
  omega

theorem length_lt (h : Inv count step s pushed popped) (hsmall : Small count step) :
    pushed.length - popped < wrapShift := by
  have hlt := h.total_lt hsmall
  have htotal := h.total
  rw [List.length_drop] at htotal
  omega

theorem unused_eq (h : Inv count step s pushed popped) (hsmall : Small count step) :
    s.unused = pushed.drop popped :=
  h.queue.contents_of_lt (h.length_lt hsmall)

theorem start (hsmall : Small count step) {size : Int} (hsize : 0 < size) (junk : Nat → Nat) :
    ∃ p pushed, (CMemPool.new junk).creatPool size count step = some (p, true) ∧
      Inv count step ⟨p, []⟩ pushed 0 := by
  have hcount := hsmall.countPos
  have htotal := hsmall.total
  have hstep := hsmall.stepPos
  obtain ⟨q, hcreat, hrel⟩ := CMemPool.creatPool_eq junk step hsize hcount (by
    simp only [wrapShift]
    omega)
  have hgrown : (1 : Int) ≤ 1 ∧ (1 : Int) ≤ growCountMax := by decide
  refine ⟨_, _, hcreat, hrel, rfl, hgrown, ?_, ?_, ?_, ?_⟩
  · dsimp only
    omega
  · rw [List.drop_zero, List.length_range']
    dsimp only [List.length_nil]
    omega
  · rw [List.drop_zero, List.append_nil]
    exact List.nodup_range'
  · intro addr haddr
    rw [List.drop_zero, List.append_nil, List.mem_range'_1] at haddr
    dsimp only
    omega

/-! ## `FreeBlock` -/

theorem freeBlock (h : Inv count step s pushed popped) (hsmall : Small count step) {addr : Nat}
    (haddr : addr ∈ s.outstanding) :
    ∃ q, s.pool.freeBlock addr = some ({ s.pool with unUsedBlockQueue := q }, true) ∧
      Inv count step ⟨{ s.pool with unUsedBlockQueue := q }, s.outstanding.erase addr⟩
        (pushed ++ [addr]) popped := by
  have hle := h.queue.le
  have htotal := h.total
  have hlt := h.total_lt hsmall
  have herase := List.length_erase_of_mem haddr
  have hpos := List.length_pos_of_mem haddr
  rw [List.length_drop] at htotal
  obtain ⟨q, hpush, hrel⟩ := h.queue.push_of_lt addr (by omega)
  have hdrop : (pushed ++ [addr]).drop popped = pushed.drop popped ++ [addr] :=
    List.drop_append_of_le_length hle
  have hperm : (pushed.drop popped ++ [addr] ++ s.outstanding.erase addr).Perm
      (pushed.drop popped ++ s.outstanding) := perm_freed haddr
  refine ⟨q, ?_, hrel, h.growStep, h.grown, h.size, ?_, ?_, ?_⟩
  · rw [CMemPool.freeBlock, hpush]
    rfl
  · rw [hdrop, List.length_append, List.length_drop, List.length_singleton, herase]
    dsimp only
    omega
  · rw [hdrop]
    exact hperm.nodup_iff.mpr h.exclusive
  · intro addr' haddr'
    rw [hdrop] at haddr'
    exact h.heap addr' (hperm.mem_iff.mp haddr')

/-! ## `GetBlock` -/

/-- A free block changes hands. -/
theorem popBlock (h : Inv count step s pushed popped) (hsmall : Small count step)
    (hfree : popped < pushed.length) :
    ∃ p addr, s.pool.popBlock = (p, some addr) ∧
      Inv count step ⟨p, addr :: s.outstanding⟩ pushed (popped + 1) := by
  have hx := List.getElem?_eq_getElem hfree
  obtain ⟨hpop, hrel⟩ := h.queue.pop_of_lt hx (h.length_lt hsmall)
  have htotal := h.total
  have hexclusive := h.exclusive
  have hheap := h.heap
  rw [List.drop_eq_getElem_cons hfree] at htotal hexclusive hheap
  have hperm : (pushed.drop (popped + 1) ++ pushed[popped] :: s.outstanding).Perm
      (pushed[popped] :: pushed.drop (popped + 1) ++ s.outstanding) := List.perm_middle
  refine ⟨{ s.pool with unUsedBlockQueue := s.pool.unUsedBlockQueue.pop.1 }, pushed[popped], ?_,
    hrel, h.growStep, h.grown, h.size, ?_, ?_, ?_⟩
  · rw [CMemPool.popBlock, hpop]
  · rw [List.length_cons] at htotal ⊢
    dsimp only
    omega
  · exact hperm.nodup_iff.mpr hexclusive
  · intro addr haddr
    exact hheap addr (hperm.mem_iff.mp haddr)

/-- The pool grows by `step` new blocks. -/
theorem extend (h : Inv count step s pushed popped) (hsmall : Small count step)
    (hgrow : s.pool.growCount < growCountMax) :
    ∃ p pushed', s.pool.extendPool s.pool.growStep = some (p, true) ∧ popped < pushed'.length ∧
      Inv count step ⟨{ p with blockTotalCount := p.blockTotalCount + p.growStep }, s.outstanding⟩
        pushed' popped := by
  have hle := h.queue.le
  have hstep := hsmall.stepPos
  have htotal := h.total
  have hgrown := h.grown
  have hsize : s.pool.blockTotalCount + step = count + (s.pool.growCount + 1 - 1) * step := by
    rw [h.size, Int.sub_mul, Int.add_sub_cancel]
    omega
  have hroom : s.pool.blockTotalCount + step < wrapShift := by
    have hmax := hsmall.total
    have hmul : (s.pool.growCount + 1 - 1) * step ≤ 19 * step := by
      apply Int.mul_le_mul_of_nonneg_right _ (Int.le_of_lt hstep)
      simp only [growCountMax] at hgrow
      omega
    rw [hsize]
    simp only [wrapShift]
    omega
  rw [List.length_drop] at htotal
  obtain ⟨q, hextend, hrel⟩ := CMemPool.extendPool_eq h.queue step hgrow (by omega)
  have hdrop : (pushed ++ List.range' s.pool.heap step.toNat).drop popped =
      pushed.drop popped ++ List.range' s.pool.heap step.toNat :=
    List.drop_append_of_le_length hle
  obtain ⟨hnodup, hadded⟩ := nodup_added h.exclusive h.heap
    (List.Sublist.refl (List.range' s.pool.heap step.toNat))
  rw [← h.growStep] at hextend
  refine ⟨_, _, hextend, ?_, hrel, h.growStep, ⟨?_, ?_⟩, ?_, ?_, ?_, ?_⟩
  · simp only [List.length_append, List.length_range']
    omega
  · dsimp only
    omega
  · dsimp only
    omega
  · dsimp only
    rw [h.growStep]
    exact hsize
  · rw [hdrop, h.growStep, List.length_append, List.length_range', List.length_drop]
    dsimp only
    omega
  · rw [hdrop]
    exact hnodup
  · intro addr haddr
    rw [hdrop] at haddr
    dsimp only
    rw [h.growStep]
    rcases hadded addr haddr with hold | hnew
    · exact Nat.lt_add_right _ (h.heap addr hold)
    · exact hnew.2

theorem getBlock (h : Inv count step s pushed popped) (hsmall : Small count step) :
    ∃ p ret, s.pool.getBlock = some (p, ret) ∧
      (ret = none ↔ s.unused = [] ∧ s.pool.growCount = growCountMax) ∧
      (ret = none → p = s.pool) ∧
      ∃ pushed' popped', Inv count step ⟨p, ret.toList ++ s.outstanding⟩ pushed' popped' := by
  have hle := h.queue.le
  have hgrown := h.grown.2
  have hsize := h.queue.size_toNat
  have hunused := h.unused_eq hsmall
  have hempty : s.unused = [] ↔ pushed.length ≤ popped := by
    rw [hunused]
    exact List.drop_eq_nil_iff
  unfold CMemPool.getBlock
  split
  · rename_i hnone
    have hzero : s.pool.unUsedBlockQueue.size.toNat = 0 := Nat.le_zero.mp hnone
    have hnil : s.unused = [] := hempty.mpr (by omega)
    rcases Int.lt_or_eq_of_le hgrown with hlt | heq
    · obtain ⟨p, pushed', hextend, hfree, hinv⟩ := h.extend hsmall hlt
      obtain ⟨p', addr, hpop, hinv'⟩ := hinv.popBlock hsmall hfree
      rw [hextend]
      refine ⟨p', some addr, congrArg some hpop, ?_, nofun, pushed', popped + 1, hinv'⟩
      exact iff_of_false nofun fun hboth => absurd hboth.2 (Int.ne_of_lt hlt)
    · have hfail : s.pool.extendPool s.pool.growStep = some (s.pool, false) := by
        rw [CMemPool.extendPool, if_pos (Int.le_of_eq heq.symm)]
      rw [hfail]
      exact ⟨s.pool, none, rfl, iff_of_true rfl ⟨hnil, heq⟩, fun _ => rfl, pushed, popped, h⟩
  · rename_i hsome
    have hpos : s.pool.unUsedBlockQueue.size.toNat ≠ 0 := fun hz => hsome (Nat.le_of_eq hz)
    have hfree : popped < pushed.length := by omega
    obtain ⟨p, addr, hpop, hinv⟩ := h.popBlock hsmall hfree
    refine ⟨p, some addr, congrArg some hpop, ?_, nofun, pushed, popped + 1, hinv⟩
    exact iff_of_false nofun fun hboth => absurd (hempty.mp hboth.1) (by omega)

theorem conserved (h : Inv count step s pushed popped) (hsmall : Small count step) :
    s.Conserved := by
  have hunused := h.unused_eq hsmall
  refine ⟨?_, ?_, ?_, ?_, ?_⟩
  · rw [hunused]
    exact h.exclusive
  · rw [hunused]
    exact h.total
  · rw [hunused, List.length_drop, CMemPool.getBlockFreeCount, h.queue.size_toNat]
  · intro addr haddr
    obtain ⟨q, hfree, _⟩ := h.freeBlock hsmall haddr
    exact ⟨_, hfree⟩
  · obtain ⟨p, ret, hget, hret, _⟩ := h.getBlock hsmall
    exact ⟨p, ret, hget, hret⟩

theorem move (h : Inv count step s pushed popped) (hsmall : Small count step) {a : PoolCall}
    {s' : PoolUse} (hs : s.step a = some s') : ∃ pushed' popped', Inv count step s' pushed' popped' := by
  cases a with
  | get =>
      obtain ⟨p, ret, hget, _, _, hnext⟩ := h.getBlock hsmall
      rw [PoolUse.step, hget] at hs
      cases hs
      exact hnext
  | free addr =>
      rw [PoolUse.step] at hs
      split at hs
      · rename_i haddr
        obtain ⟨q, hfree, hinv⟩ := h.freeBlock hsmall haddr
        rw [hfree] at hs
        cases hs
        exact ⟨_, _, hinv⟩
      · cases hs

end Inv

end PoolUse

/-! ## Every run -/

open PoolUse

theorem conserved_of_run (junk : Nat → Nat) {size count step : Int} (hsize : 0 < size)
    (hcount : 0 < count) (hstep : 0 < step) (hmax : count + 19 * step ≤ 0xFFFFFF) :
    ∃ p, (CMemPool.new junk).creatPool size count step = some (p, true) ∧
      ∀ calls s, (poolUse p).run ⟨p, []⟩ calls = some s → s.Conserved := by
  have hsmall : Small count step := ⟨hcount, hstep, hmax⟩
  obtain ⟨p, pushed, hcreat, hinv⟩ := Inv.start hsmall hsize junk
  refine ⟨p, hcreat, ?_⟩
  intro calls s hrun
  have hmove : ∀ s a s', (∃ pushed popped, Inv count step s pushed popped) →
      (poolUse p).step s a = some s' → ∃ pushed popped, Inv count step s' pushed popped := by
    rintro s a s' ⟨pushed, popped, hs⟩ hstep
    exact hs.move hsmall hstep
  obtain ⟨pushed', popped', hend⟩ := (poolUse p).run_invariant hmove ⟨pushed, 0, hinv⟩ hrun
  exact hend.conserved hsmall

/-- The pool of `CRecvDataProc::Initialize`. -/
theorem conserved_of_run_initialize :
    ∃ p, (CMemPool.new fun _ => 0).creatPool 1152 307200 10240 = some (p, true) ∧
      ∀ calls s, (poolUse p).run ⟨p, []⟩ calls = some s → s.Conserved :=
  conserved_of_run (fun _ => 0) (by decide) (by decide) (by decide) (by decide)

end CmdTran
