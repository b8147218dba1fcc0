import CmdTran.Custody.Lemmas.Order

/-!
# A frame keeps its block and its place in the order

In every run of the workers, with all their calls of the pool interleaved.
-/

namespace CmdTran

namespace FrameBlocks

open Server (worker)

variable {sockOf : Conn → Nat} {s s' : FrameBlocks}

theorem held_start {junk : Nat → Nat} {heap : Nat} (hheap : 0 < heap) {size count step : Int} {p : CMemPool}
    (hcreat : { CMemPool.new junk with heap }.creatPool size count step = some (p, true))
    (memory : Nat → Block) : Held (start p memory) := by
  have hnone : ∀ place task, ¬(start p memory).At place task := by
    intro place task hat
    cases place <;> cases hat
  refine ⟨PoolUsers.inv_start hheap hcreat, Holding.empty hnone, fun _ => List.nodup_nil, ?_, fun _ => trivial,
    fun _ => .inl rfl⟩
  intro place task hplace
  exact absurd hplace.at (hnone place task)

theorem ordered_start (p : CMemPool) (memory : Nat → Block) : Ordered sockOf (start p memory) := by
  refine ⟨?_, fun _ _ => nofun, fun _ _ => nofun, fun _ _ => nofun, ?_, ?_⟩
  · intro place task hat
    cases place <;> cases hat
  · intro conn
    exact (congrArg Prod.snd frameScanner.scan_nil).symm
  · intro conn
    exact ⟨[], congrArg Prod.fst frameScanner.scan_nil, List.Sublist.refl [], rfl⟩

theorem reserved_le_of_step {a : FrameStep} (hs : s.step sockOf a = some s') :
    s.users.pool.reserved.length ≤ s'.users.pool.reserved.length := by
  cases move_of_step hs with
  | got w conn frame frames users ret hstage husers hreturns =>
      have hle := PoolUsers.reserved_le_of_step husers
      cases ret <;> exact hle
  | ask w conn frame frames users hstage husers => exact PoolUsers.reserved_le_of_step husers
  | wait w conn frame frames users hstage husers => exact PoolUsers.reserved_le_of_step husers
  | free w task users hstage husers => exact PoolUsers.reserved_le_of_step husers
  | freeOn w users stage hstage husers => exact PoolUsers.reserved_le_of_step husers
  | read | finish | copy | queue | take | handle => exact Nat.le_refl _

theorem inv_of_run {junk : Nat → Nat} {heap : Nat} (hheap : 0 < heap) {size count step : Int} {p : CMemPool}
    (hcreat : { CMemPool.new junk with heap }.creatPool size count step = some (p, true))
    {memory : Nat → Block} {steps : List FrameStep}
    (hrun : (frameBlocks sockOf p memory).run (start p memory) steps = some s)
    (hfew : s.users.pool.reserved.length < 0x100000000) : Held s ∧ Ordered sockOf s := by
  apply (frameBlocks sockOf p memory).run_invariant_below (fun s => s.users.pool.reserved.length)
    (fun _ _ _ hs => reserved_le_of_step hs) _
    (fun _ => ⟨held_start hheap hcreat memory, ordered_start p memory⟩) hrun hfew
  rintro s a s' ⟨hheld, hordered⟩ hs hfew
  have hmove := move_of_step hs
  exact ⟨hheld.move hmove hfew, hordered.move hheld hmove⟩

/-- However the workers and their calls of the pool overlap: from its copy to its `FreeBlock` a frame is in its
own block, as long as fewer than `2^32` pushes have reserved a place in the queue of the pool. -/
theorem intact_of_steps {junk : Nat → Nat} {heap : Nat} (hheap : 0 < heap) {size count step : Int} {p : CMemPool}
    (hcreat : { CMemPool.new junk with heap }.creatPool size count step = some (p, true))
    {memory : Nat → Block} {steps : List FrameStep}
    (hrun : (frameBlocks sockOf p memory).run (start p memory) steps = some s)
    (hfew : s.users.pool.reserved.length < 0x100000000) : s.Intact :=
  (inv_of_run hheap hcreat hrun hfew).1.intact

def zeroed : Nat → Block := fun _ => Buffer.fill memPoolBlockSize 0

/-- Two workers get their blocks at the same time; the frame of the first one is handled while the second one
is about to copy its own. -/
def twoFrames : List FrameStep :=
  [.addRecvData 0 ⟨[0x7E, 0, 5, 1, 0xA5], by decide⟩, .addRecvData 1 ⟨[0x7E, 0, 5, 3, 0xA5], by decide⟩] ++
    (List.replicate 7 [.recv 0, .recv 1]).flatten ++
    [.recv 0, .recv 0, .frame 0, .frame 0, .frame 0] ++ List.replicate 5 (.recv 1)

theorem twoFrames_run : ∃ p s,
    { CMemPool.new (fun _ => 0) with heap := 1 }.creatPool 1152 2 1 = some (p, true) ∧
    (frameBlocks id p zeroed).run (start p zeroed) twoFrames = some s ∧
    s.users.outstanding = [2] ∧ s.handled = [(0, [0x7E, 0, 5, 1, 0xA5])] ∧
    s.users.pool.reserved.length = 2 := by
  have hlast : ({ CMemPool.new (fun _ => 0) with heap := 1 }.creatPool 1152 2 1).any (fun r : CMemPool × Bool =>
      r.2 && ((frameBlocks id r.1 zeroed).run (start r.1 zeroed) twoFrames).any fun s : FrameBlocks =>
        decide (s.users.outstanding = [2] ∧ s.handled = [(0, [0x7E, 0, 5, 1, 0xA5])] ∧
          s.users.pool.reserved.length = 2)) = true := by
    decide +kernel
  obtain ⟨⟨p, done⟩, hcreat, hp⟩ := (Option.any_eq_true _ _).mp hlast
  obtain ⟨hdone, hs⟩ := Bool.and_eq_true_iff.mp hp
  obtain rfl : done = true := hdone
  obtain ⟨s, hrun, hs⟩ := (Option.any_eq_true _ _).mp hs
  exact ⟨p, s, hcreat, hrun, of_decide_eq_true hs⟩

theorem intact_of_steps_twoFrames : ∃ p s,
    (frameBlocks id p zeroed).run (start p zeroed) twoFrames = some s ∧ s.users.outstanding = [2] ∧
      s.Intact := by
  obtain ⟨p, s, hcreat, hrun, hout, _, hlength⟩ := twoFrames_run
  refine ⟨p, s, hrun, hout, intact_of_steps (by decide) hcreat hrun ?_⟩
  rw [hlength]
  decide

/-- What the frame workers read of a connection are its frames, in their order. -/
theorem inOrder_of_steps {junk : Nat → Nat} {heap : Nat} (hheap : 0 < heap) {size count step : Int} {p : CMemPool}
    (hcreat : { CMemPool.new junk with heap }.creatPool size count step = some (p, true))
    {memory : Nat → Block} {steps : List FrameStep}
    (hrun : (frameBlocks sockOf p memory).run (start p memory) steps = some s)
    (hfew : s.users.pool.reserved.length < 0x100000000) (conn : Conn) : s.InOrder sockOf conn :=
  (inv_of_run hheap hcreat hrun hfew).2.order conn

theorem inOrder_of_steps_twoFrames : ∃ p s,
    (frameBlocks id p zeroed).run (start p zeroed) twoFrames = some s ∧
      s.handled = [(0, [0x7E, 0, 5, 1, 0xA5])] ∧ s.InOrder id 0 := by
  obtain ⟨p, s, hcreat, hrun, _, hhandled, hlength⟩ := twoFrames_run
  refine ⟨p, s, hrun, hhandled, inOrder_of_steps (by decide) hcreat hrun ?_ 0⟩
  rw [hlength]
  decide

end FrameBlocks

end CmdTran
