import CmdTran.Pool.Theorems
import CmdTran.Pool.Sizes

/-!
# `FreeBlock` with any address

`FreeBlock` pushes what it is given. Nothing says which blocks are outstanding, and so it does not matter to
`FreeBlock` whether its argument is one of them; it matters only whether the queue is full.
-/

namespace CmdTran

namespace PoolUse

/-- Any address is freed. `GetBlock` returns `NULL`, which is 0, for a failure; a block that was handed out
is outstanding until some call has freed it. -/
def anyStep (s : PoolUse) : PoolCall → Option PoolUse
  | .get => s.pool.getBlock.map fun r => ⟨r.1, (r.2.filter (· != 0)).toList ++ s.outstanding⟩
  | .free addr =>
      (s.pool.freeBlock addr).map fun r =>
        ⟨r.1, if r.2 then s.outstanding.filter (· != addr) else s.outstanding⟩

/-- `FreeBlock` returns true exactly for the outstanding blocks, and otherwise leaves the pool as it is. -/
def AcceptsOutstanding (s : PoolUse) : PoolCall → Prop
  | .get => True
  | .free addr => ∀ p done, s.pool.freeBlock addr = some (p, done) →
      (done = true ↔ addr ∈ s.outstanding) ∧ (done = false → p = s.pool)

/-- `GetBlock` hands out no block that somebody has. -/
def HandsOutFree (s : PoolUse) : PoolCall → Prop
  | .get => ∀ p addr, s.pool.getBlock = some (p, some addr) → addr ∉ s.outstanding
  | .free _ => True

/-- As long as there is room, outstanding blocks are freed only; when the queue is full, none is. -/
def RoomForOutstanding (s : PoolUse) : PoolCall → Prop
  | .get => True
  | .free addr =>
      if s.pool.unUsedBlockQueue.Full then addr ∉ s.outstanding else addr ∈ s.outstanding

/-- How many blocks are in the queue in the course of the call, at most. -/
def queued (s : PoolUse) : PoolCall → Nat
  | .get =>
      if s.pool.unUsedBlockQueue.size ≤ 0 then
        if s.pool.growCount ≥ growCountMax then 0 else min s.pool.growStep.toNat queueLen
      else s.pool.unUsedBlockQueue.size.toNat
  | .free _ => s.pool.unUsedBlockQueue.size.toNat + 1

/-- The queue does not get into the state where blocks share a slot. -/
def Unwrapped (s : PoolUse) (c : PoolCall) : Prop := ¬s.pool.unUsedBlockQueue.Wraps (s.queued c)

instance decidableRoomForOutstanding (s : PoolUse) : (c : PoolCall) → Decidable (s.RoomForOutstanding c)
  | .get => isTrue trivial
  | .free _ => inferInstanceAs (Decidable (ite _ _ _))

instance (s : PoolUse) (c : PoolCall) : Decidable (s.Unwrapped c) := inferInstanceAs (Decidable (¬_))

end PoolUse

/-- The pool of any user. -/
def anyPoolUse (p : CMemPool) : StepSystem PoolUse PoolCall where
  start := ⟨p, []⟩
  step := PoolUse.anyStep

/-! ## The pool between two wraps -/

namespace CMemPool

variable {p : CMemPool} {pushed : List Nat} {popped : Nat}

/-- The new blocks that there is room for go to the end of the queue. -/
theorem addBlocks_rel (h : Rel p.unUsedBlockQueue pushed popped) (n : Nat)
    (hwraps : ¬p.unUsedBlockQueue.Wraps (min (pushed.length - popped + n) queueLen)) :
    ∃ q added, p.addBlocks n = some { p with unUsedBlockQueue := q, heap := p.heap + n } ∧
      added.Sublist (List.range' p.heap n) ∧ Rel q (pushed ++ added) popped := by
  induction n generalizing p pushed with
  | zero =>
      refine ⟨p.unUsedBlockQueue, [], rfl, List.nil_sublist _, ?_⟩
      rw [List.append_nil]
      exact h
  | succ n ih =>
      have hle := h.le
      have hbound := h.bound
      obtain ⟨q, done, hpush, hrel⟩ := h.push_of_not_wraps p.heap fun hone => hwraps (hone.mono (by omega))
      have hrest : ¬q.Wraps (min ((if done then pushed ++ [p.heap] else pushed).length - popped + n) queueLen) := by
        rw [h.wraps_iff hrel]
        refine fun hrest => hwraps (hrest.mono ?_)
        cases done with
        | false => simp only [Bool.false_eq_true, if_false]; omega
        | true => simp only [if_true, List.length_append, List.length_singleton]; omega
      obtain ⟨q', added, hadd, hsub, hrel'⟩ :=
        ih (p := { p with unUsedBlockQueue := q, heap := p.heap + 1 }) hrel hrest
      have hadd' : p.addBlocks (n + 1) =
          some { p with unUsedBlockQueue := q', heap := p.heap + (n + 1) } := by
        rw [addBlocks, hpush, Option.bind_some, hadd, Nat.add_assoc, Nat.add_comm 1 n]
      rw [List.range'_succ]
      cases done with
      | false => exact ⟨q', added, hadd', hsub.cons p.heap, hrel'⟩
      | true =>
          rw [if_pos rfl, List.append_assoc] at hrel'
          exact ⟨q', p.heap :: added, hadd', hsub.cons_cons p.heap, hrel'⟩

end CMemPool

/-! ## The invariant -/

namespace PoolUse

/-- No address is in two places, and all are of blocks of the pool. -/
structure Exclusive (s : PoolUse) (pushed : List Nat) (popped : Nat) : Prop where
  queue : Rel s.pool.unUsedBlockQueue pushed popped
  nodup : (pushed.drop popped ++ s.outstanding).Nodup
  heapPos : 0 < s.pool.heap
  heap : ∀ addr ∈ pushed.drop popped ++ s.outstanding, 0 < addr ∧ addr < s.pool.heap

variable {s s' : PoolUse} {pushed : List Nat} {popped : Nat} {p : CMemPool}

/-- Only the queue and the heap count. -/
theorem Exclusive.of_pool (h : Exclusive s pushed popped)
    (hqueue : p.unUsedBlockQueue = s.pool.unUsedBlockQueue) (hheap : p.heap = s.pool.heap) :
    Exclusive ⟨p, s.outstanding⟩ pushed popped := by
  refine ⟨?_, h.nodup, ?_, ?_⟩
  · rw [hqueue]
    exact h.queue
  · rw [hheap]
    exact h.heapPos
  · rw [hheap]
    exact h.heap

/-- `ExtendPool` adds new blocks only. -/
theorem Exclusive.extend (h : Exclusive s pushed popped) {growCount : Int} {n : Nat}
    (hwraps : ¬s.pool.unUsedBlockQueue.Wraps (min (pushed.length - popped + n) queueLen))
    (hadd : { s.pool with growCount }.addBlocks n = some p) :
    ∃ added : List Nat, added.length ≤ n ∧ Exclusive ⟨p, s.outstanding⟩ (pushed ++ added) popped := by
  obtain ⟨q, added, heq, hsub, hrel⟩ :=
    CMemPool.addBlocks_rel (p := { s.pool with growCount }) h.queue n hwraps
  cases heq.symm.trans hadd
  have hlen : added.length ≤ n := by
    have hle := hsub.length_le
    rw [List.length_range'] at hle
    exact hle
  have hdrop : (pushed ++ added).drop popped = pushed.drop popped ++ added :=
    List.drop_append_of_le_length h.queue.le
  obtain ⟨hnodup, hadded⟩ := nodup_added h.nodup (fun addr haddr => (h.heap addr haddr).2) hsub
  refine ⟨added, hlen, hrel, ?_, Nat.add_pos_left h.heapPos n, ?_⟩
  · rw [hdrop]
    exact hnodup
  · intro addr haddr
    rw [hdrop] at haddr
    rcases hadded addr haddr with hold | hnew
    · exact ⟨(h.heap addr hold).1, Nat.lt_add_right n (h.heap addr hold).2⟩
    · exact ⟨h.heapPos.trans_le hnew.1, hnew.2⟩

theorem exclusive_start (junk : Nat → Nat) {heap : Nat} (hheap : 0 < heap) {size count step : Int}
    (hcreat : { CMemPool.new junk with heap }.creatPool size count step = some (p, true)) :
    ∃ pushed, Exclusive ⟨p, []⟩ pushed 0 := by
  rcases CMemPool.creatPool_cases hcreat with ⟨_, hfalse, _⟩ | ⟨_, _, p₁, hadd, rfl⟩
  · cases hfalse
  · have hnew : Exclusive ⟨{ CMemPool.new junk with heap }.record size count step, []⟩ [] 0 :=
      ⟨rel_new junk, List.nodup_nil, hheap, nofun⟩
    have hwraps : ¬(CLockFreeQueue.new junk).Wraps (min (0 - 0 + count.toNat) queueLen) := by
      intro hwraps
      have hle := hwraps.2.trans (Nat.add_le_add_left (Nat.min_le_right _ _) _)
      exact absurd hle (by decide : ¬uint32Size ≤ 0 + queueLen)
    obtain ⟨added, _, hextend⟩ := hnew.extend hwraps hadd
    exact ⟨added, hextend.of_pool rfl rfl⟩

/-! ## One call -/

theorem Exclusive.popBlock (h : Exclusive s pushed popped)
    (hwraps : ¬s.pool.unUsedBlockQueue.Wraps (pushed.length - popped)) :
    (∀ addr, s.pool.popBlock.2 = some addr → addr ∉ s.outstanding) ∧
      ∃ popped', Exclusive ⟨s.pool.popBlock.1, (s.pool.popBlock.2.filter (· != 0)).toList ++ s.outstanding⟩
        pushed popped' := by
  rcases Nat.lt_or_ge popped pushed.length with hfree | hnone
  · have hx := List.getElem?_eq_getElem hfree
    obtain ⟨hpop, hrel⟩ := h.queue.pop_of_not_wraps hx hwraps
    have hnodup := h.nodup
    have hheap := h.heap
    rw [List.drop_eq_getElem_cons hfree] at hnodup hheap
    have hperm : (pushed.drop (popped + 1) ++ pushed[popped] :: s.outstanding).Perm
        (pushed[popped] :: pushed.drop (popped + 1) ++ s.outstanding) := List.perm_middle
    have hpos := (hheap pushed[popped] (List.mem_append_left _ List.mem_cons_self)).1
    have hfilter : (some pushed[popped]).filter (· != 0) = some pushed[popped] := by
      simp [Option.filter, Nat.ne_of_gt hpos]
    simp only [CMemPool.popBlock, hpop, hfilter]
    refine ⟨?_, popped + 1, hrel, hperm.nodup_iff.mpr hnodup, h.heapPos, ?_⟩
    · intro addr haddr houtstanding
      cases haddr
      exact (List.nodup_cons.mp hnodup).1 (List.mem_append_right _ houtstanding)
    · exact fun addr haddr => hheap addr (hperm.mem_iff.mp haddr)
  · have heq : popped = pushed.length := Nat.le_antisymm h.queue.le hnone
    simp only [CMemPool.popBlock, (h.queue.pop_nil heq).1]
    refine ⟨fun addr haddr => ?_, popped, h⟩
    cases haddr

/-- A call of a user who frees outstanding blocks only, between two wraps of the queue. -/
theorem Exclusive.get (h : Exclusive s pushed popped) (hunwrapped : s.Unwrapped .get) {ret : Option Nat}
    (hget : s.pool.getBlock = some (p, ret)) :
    (∀ addr, ret = some addr → addr ∉ s.outstanding) ∧
      ∃ pushed' popped', Exclusive ⟨p, (ret.filter (· != 0)).toList ++ s.outstanding⟩ pushed' popped' := by
  have hsize := h.queue.size_toNat
  have hbound := h.queue.bound
  simp only [Unwrapped, queued] at hunwrapped
  rcases CMemPool.getBlock_cases hget with
    ⟨rfl, rfl⟩ | ⟨hsome, rfl, rfl⟩ | ⟨hempty, hgrow, p₁, hadd, rfl, rfl⟩
  · exact ⟨nofun, pushed, popped, h⟩
  · rw [if_neg hsome, hsize] at hunwrapped
    exact (h.popBlock hunwrapped).imp_right fun ⟨popped', hnext⟩ => ⟨pushed, popped', hnext⟩
  · have hzero : pushed.length - popped = 0 := hsize.symm.trans (Nat.le_zero.mp hempty)
    rw [if_pos hempty, if_neg hgrow] at hunwrapped
    obtain ⟨added, hlen, hextend⟩ := h.extend (n := s.pool.growStep.toNat) (by
      rw [hzero, Nat.zero_add]
      exact hunwrapped) hadd
    have hadded := hextend.queue.bound
    have hcount : (pushed ++ added).length - popped ≤ min s.pool.growStep.toNat queueLen := by
      rw [List.length_append] at hadded ⊢
      omega
    have hwraps : ¬p₁.unUsedBlockQueue.Wraps ((pushed ++ added).length - popped) := by
      rw [h.queue.wraps_iff hextend.queue]
      exact fun hwraps => hunwrapped (hwraps.mono hcount)
    have htotal : Exclusive ⟨{ p₁ with blockTotalCount := p₁.blockTotalCount + p₁.growStep }, s.outstanding⟩
        (pushed ++ added) popped := hextend.of_pool rfl rfl
    exact (htotal.popBlock hwraps).imp_right fun ⟨popped', hnext⟩ => ⟨pushed ++ added, popped', hnext⟩

theorem roomForOutstanding_iff {addr : Nat} :
    s.RoomForOutstanding (.free addr) ↔ (¬s.pool.unUsedBlockQueue.Full ↔ addr ∈ s.outstanding) := by
  rw [RoomForOutstanding]
  split
  · rename_i hfull
    simp [hfull]
  · rename_i hroom
    simp [hroom]

theorem Exclusive.free (h : Exclusive s pushed popped) {addr : Nat} {done : Bool}
    (hroom : s.RoomForOutstanding (.free addr)) (hunwrapped : s.Unwrapped (.free addr))
    (hfree : s.pool.freeBlock addr = some (p, done)) :
    ∃ pushed', Exclusive ⟨p, if done then s.outstanding.filter (· != addr) else s.outstanding⟩ pushed' popped := by
  rw [Unwrapped, queued, h.queue.size_toNat] at hunwrapped
  obtain ⟨q, taken, hpush, hrel⟩ := h.queue.push_of_not_wraps addr hunwrapped
  rw [CMemPool.freeBlock, hpush] at hfree
  cases hfree
  have hcases := CLockFreeQueue.push_cases hpush
  cases taken with
  | false => exact ⟨pushed, hrel, h.nodup, h.heapPos, h.heap⟩
  | true =>
      have haddr : addr ∈ s.outstanding := (roomForOutstanding_iff.mp hroom).mp (hcases.1.mp rfl)
      have hdrop : (pushed ++ [addr]).drop popped = pushed.drop popped ++ [addr] :=
        List.drop_append_of_le_length h.queue.le
      have hnodup := (List.nodup_append.mp h.nodup).2.1
      have hperm : (pushed.drop popped ++ [addr] ++ s.outstanding.filter (· != addr)).Perm
          (pushed.drop popped ++ s.outstanding) := by
        rw [← hnodup.erase_eq_filter]
        exact perm_freed haddr
      refine ⟨pushed ++ [addr], hrel, ?_, h.heapPos, ?_⟩
      · rw [hdrop]
        exact hperm.nodup_iff.mpr h.nodup
      · intro addr' haddr'
        rw [hdrop] at haddr'
        exact h.heap addr' (hperm.mem_iff.mp haddr')

theorem Exclusive.anyStep (h : Exclusive s pushed popped) {c : PoolCall} (hs : s.anyStep c = some s')
    (hroom : s.RoomForOutstanding c) (hunwrapped : s.Unwrapped c) :
    s.HandsOutFree c ∧ ∃ pushed' popped', Exclusive s' pushed' popped' := by
  cases c with
  | get =>
      simp only [PoolUse.anyStep, Option.map_eq_some_iff] at hs
      obtain ⟨⟨p, ret⟩, hget, rfl⟩ := hs
      refine ⟨fun p' addr hget' => ?_, (h.get hunwrapped hget).2⟩
      cases hget.symm.trans hget'
      exact (h.get hunwrapped hget).1 addr rfl
  | free addr =>
      simp only [PoolUse.anyStep, Option.map_eq_some_iff] at hs
      obtain ⟨⟨p, done⟩, hfree, rfl⟩ := hs
      obtain ⟨pushed', hnext⟩ := h.free hroom hunwrapped hfree
      exact ⟨trivial, pushed', popped, hnext⟩

/-- `FreeBlock` only looks whether there is room. -/
theorem acceptsOutstanding_iff_room {c : PoolCall} (hs : s.anyStep c = some s') :
    s.AcceptsOutstanding c ↔ s.RoomForOutstanding c := by
  cases c with
  | get => exact Iff.rfl
  | free addr =>
      simp only [PoolUse.anyStep, Option.map_eq_some_iff] at hs
      obtain ⟨⟨p, done⟩, hfree, rfl⟩ := hs
      obtain ⟨⟨q, taken⟩, hpush, heq⟩ := Option.map_eq_some_iff.mp hfree
      cases heq
      have hcases := CLockFreeQueue.push_cases hpush
      constructor
      · intro haccepts
        exact roomForOutstanding_iff.mpr (hcases.1.symm.trans (haccepts _ _ hfree).1)
      · intro hroom p' done' hfree'
        cases hfree.symm.trans hfree'
        refine ⟨hcases.1.trans (roomForOutstanding_iff.mp hroom), fun hrefused => ?_⟩
        rw [hcases.2 hrefused]

end PoolUse

open PoolUse

/-- `FreeBlock` accepts exactly the outstanding blocks when each address is that of one as long as there is room,
and of none when there is not. Between two wraps of the queue no block is then handed out twice. -/
theorem acceptsOutstanding_iff (junk : Nat → Nat) {heap : Nat} (hheap : 0 < heap) {size count step : Int}
    {p : CMemPool} (hcreat : { CMemPool.new junk with heap }.creatPool size count step = some (p, true))
    (calls : List PoolCall) (s : PoolUse) (hr : (anyPoolUse p).run ⟨p, []⟩ calls = some s) :
    ((∀ cs c s₁ s₂, cs ++ [c] <+: calls → (anyPoolUse p).run ⟨p, []⟩ cs = some s₁ →
        (anyPoolUse p).step s₁ c = some s₂ → s₁.AcceptsOutstanding c) ↔
      (anyPoolUse p).Meets RoomForOutstanding ⟨p, []⟩ calls) ∧
    ((anyPoolUse p).Meets (fun s c => s.RoomForOutstanding c ∧ s.Unwrapped c) ⟨p, []⟩ calls →
      ∀ cs c s₁ s₂, cs ++ [c] <+: calls → (anyPoolUse p).run ⟨p, []⟩ cs = some s₁ →
        (anyPoolUse p).step s₁ c = some s₂ → s₁.HandsOutFree c) := by
  constructor
  · have hok : ∀ s c s', True → (anyPoolUse p).step s c = some s' → s.RoomForOutstanding c →
        s.AcceptsOutstanding c ∧ True := fun s c s' _ hs hroom =>
      ⟨(acceptsOutstanding_iff_room hs).mpr hroom, trivial⟩
    exact (anyPoolUse p).meets_iff_forall_steps (fun s c _ => s.AcceptsOutstanding c) hok
      (fun s c s' _ hs haccepts => (acceptsOutstanding_iff_room hs).mp haccepts) trivial hr
  · intro hmeets
    obtain ⟨pushed, hstart⟩ := exclusive_start junk hheap hcreat
    have hok : ∀ s c s', (∃ pushed popped, Exclusive s pushed popped) → (anyPoolUse p).step s c = some s' →
        s.RoomForOutstanding c ∧ s.Unwrapped c →
        s.HandsOutFree c ∧ ∃ pushed popped, Exclusive s' pushed popped := by
      rintro s c s' ⟨pushed, popped, h⟩ hs ⟨hroom, hunwrapped⟩
      exact h.anyStep hs hroom hunwrapped
    exact hmeets.forall_steps _ (fun s c _ => s.HandsOutFree c) hok ⟨pushed, 0, hstart⟩

/-- A pool of two blocks; one is taken, given back and taken again. -/
theorem acceptsOutstanding_iff_again :
    ∃ p, { CMemPool.new (fun _ => 0) with heap := 100 }.creatPool 8 2 1 = some (p, true) ∧
      ∀ cs c s₁ s₂, cs ++ [c] <+: [.get, .free 100, .get, .get] → (anyPoolUse p).run ⟨p, []⟩ cs = some s₁ →
        (anyPoolUse p).step s₁ c = some s₂ → s₁.AcceptsOutstanding c ∧ s₁.HandsOutFree c := by
  have hcreat : { CMemPool.new (fun _ => 0) with heap := 100 }.creatPool 8 2 1 = some (_, true) := rfl
  refine ⟨_, hcreat, fun cs c s₁ s₂ hcs hs₁ hs₂ => ?_⟩
  have hboth := acceptsOutstanding_iff (fun _ => 0) (by decide : 0 < 100) hcreat
    [.get, .free 100, .get, .get] _ rfl
  exact ⟨hboth.1.mpr (by decide) cs c s₁ s₂ hcs hs₁ hs₂, hboth.2 (by decide) cs c s₁ s₂ hcs hs₁ hs₂⟩

/-- A block is freed twice, and then two users have it. -/
theorem not_acceptsOutstanding_twice :
    ∃ p, { CMemPool.new (fun _ => 0) with heap := 100 }.creatPool 8 1 1 = some (p, true) ∧
      (¬ ∀ calls c s₁ s₂, (anyPoolUse p).run ⟨p, []⟩ calls = some s₁ → (anyPoolUse p).step s₁ c = some s₂ →
        s₁.AcceptsOutstanding c) ∧
      ¬ ∀ calls c s₁ s₂, (anyPoolUse p).run ⟨p, []⟩ calls = some s₁ → (anyPoolUse p).step s₁ c = some s₂ →
        s₁.HandsOutFree c := by
  refine ⟨_, rfl, fun h => ?_, fun h => ?_⟩
  · have haccepts := (h [.get, .free 100] (.free 100) _ _ rfl rfl _ _ rfl).1
    revert haccepts
    decide
  · have hfree := h [.get, .free 100, .free 100, .get] .get _ _ rfl rfl _ 100 rfl
    revert hfree
    decide

end CmdTran
