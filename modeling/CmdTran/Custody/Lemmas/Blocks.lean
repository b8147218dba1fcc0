import CmdTran.Lib.Holding
import CmdTran.Custody.Lemmas.Moves

/-!
# Who has a block, and what is in it

Every block that is out belongs to one task. So `memcpy` writes to a block that no other task reads.
-/

namespace CmdTran

/-- Each frame that is still to be copied goes into a block. -/
def SaveStage.Fits : SaveStage → Prop
  | .idle => True
  | .saving _ frames => ∀ f ∈ frames, f.length ≤ memPoolBlockSize
  | .getting _ frame frames => ∀ f ∈ frame :: frames, f.length ≤ memPoolBlockSize
  | .copying task frames | .queueing task frames =>
      task.frameLen = task.frame.length ∧ ∀ f ∈ task.frame :: frames, f.length ≤ memPoolBlockSize

namespace FrameBlocks

open Server (worker)

variable {sockOf : Conn → Nat} {s s' : FrameBlocks}

/-- The frame is in the block. -/
def Written (s : FrameBlocks) : Place → BlockTask → Prop
  | .recv w, task => ∃ frames, s.recv w = .queueing task frames
  | .queue w, task => task ∈ s.queues w
  | .work w, task => (s.work w).task = some task

structure Held (s : FrameBlocks) : Prop where
  users : s.users.Inv
  holding : Holding BlockTask.pFrame s.At s.users.outstanding
  queues : ∀ w, (s.queues w).Nodup
  written : ∀ place task, s.Written place task → s.content task = task.frame
  fits : ∀ w, (s.recv w).Fits
  freeing : ∀ w, s.users.pool.stage (.frame w) = .idle ∨ s.users.pool.stage (.frame w) = .freeing

theorem Written.at {place : Place} {task : BlockTask} (h : s.Written place task) : s.At place task := by
  cases place with
  | recv w =>
      obtain ⟨frames, hstage⟩ := h
      rw [At, hstage]
      rfl
  | queue | work => exact h

theorem Held.intact (h : Held s) : s.Intact := by
  refine ⟨?_, h.holding.one, h.queues, h.holding.out, h.users.separate⟩
  rintro w task (hqueue | hwork)
  · exact h.written (.queue w) task hqueue
  · exact h.written (.work w) task hwork

section Places

variable {w : Nat} {place : Place} {task : BlockTask}

theorem at_setRecv (stage : SaveStage) :
    (s.setRecv w stage).At place task ↔ if place = .recv w then stage.task = some task else s.At place task := by
  cases place with
  | recv w' =>
      simp only [At, setRecv, Function.update_apply, Place.recv.injEq]
      split <;> rfl
  | queue | work => simp [At, setRecv]

theorem at_setWork (stage : WorkStage) :
    (s.setWork w stage).At place task ↔ if place = .work w then stage.task = some task else s.At place task := by
  cases place with
  | work w' =>
      simp only [At, setWork, Function.update_apply, Place.work.injEq]
      split <;> rfl
  | queue | recv => simp [At, setWork]

theorem at_setQueue (tasks : List BlockTask) :
    At { s with queues := Function.update s.queues w tasks } place task ↔
      if place = .queue w then task ∈ tasks else s.At place task := by
  cases place with
  | queue w' =>
      simp only [At, Function.update_apply, Place.queue.injEq]
      split <;> rfl
  | work | recv => simp [At]

theorem at_setRecv_same {stage : SaveStage} (hstage : stage.task = (s.recv w).task) :
    (s.setRecv w stage).At place task ↔ s.At place task := by
  rw [at_setRecv]
  split
  · rename_i hplace
    rw [hplace, At, hstage]
  · exact Iff.rfl

theorem at_iff_ne {other : BlockTask} (hnot : ¬s.At place other) :
    s.At place task ↔ s.At place task ∧ task ≠ other := by
  constructor
  · intro htask
    refine ⟨htask, ?_⟩
    rintro rfl
    exact hnot htask
  · exact And.left

theorem at_setWork_same {stage : WorkStage} (hstage : stage.task = (s.work w).task) :
    (s.setWork w stage).At place task ↔ s.At place task := by
  rw [at_setWork]
  split
  · rename_i hplace
    rw [hplace, At, hstage]
  · exact Iff.rfl

end Places

namespace Held

variable {w : Nat}

/-- A task is at one place. -/
theorem elsewhere (h : Held s) {place : Place} {task : BlockTask} (hat : s.At place task) {place' : Place}
    (hne : place' ≠ place) : ¬s.At place' task :=
  fun hplace => hne (h.holding.one place' task place task hplace hat rfl).1

theorem fits_setRecv (h : Held s) {stage : SaveStage} (hfits : stage.Fits) (w' : Nat) :
    ((s.setRecv w stage).recv w').Fits := by
  simp only [FrameBlocks.setRecv, Function.update_apply]
  split
  · exact hfits
  · exact h.fits w'

theorem written_setRecv (h : Held s) {stage : SaveStage}
    (hwritten : ∀ task frames, stage = .queueing task frames → s.content task = task.frame) {w' : Nat}
    {task : BlockTask} (hnext : ∃ frames, (s.setRecv w stage).recv w' = .queueing task frames) :
    s.content task = task.frame := by
  obtain ⟨frames, hnext⟩ := hnext
  simp only [FrameBlocks.setRecv, Function.update_apply] at hnext
  split at hnext
  · exact hwritten task frames hnext
  · exact h.written (.recv w') task ⟨frames, hnext⟩

theorem setRecv (h : Held s) {stage : SaveStage} (hstage : stage.task = (s.recv w).task) (hfits : stage.Fits)
    (hwritten : ∀ task frames, stage = .queueing task frames → s.content task = task.frame) :
    Held (s.setRecv w stage) := by
  refine ⟨h.users, h.holding.congr fun _ _ => at_setRecv_same hstage, h.queues, ?_, h.fits_setRecv hfits,
    h.freeing⟩
  intro place task hplace
  cases place with
  | recv w' => exact h.written_setRecv hwritten hplace
  | queue w' => exact h.written (.queue w') task hplace
  | work w' => exact h.written (.work w') task hplace

theorem setWork (h : Held s) {stage : WorkStage} (hstage : stage.task = (s.work w).task) :
    Held (s.setWork w stage) := by
  refine ⟨h.users, h.holding.congr fun _ _ => at_setWork_same hstage, h.queues, ?_, h.fits, h.freeing⟩
  intro place task hplace
  cases place with
  | recv w' => exact h.written (.recv w') task hplace
  | queue w' => exact h.written (.queue w') task hplace
  | work w' =>
      have hold : (s.setWork w stage).At (.work w') task := hplace
      exact h.written (.work w') task ((at_setWork_same hstage).mp hold)

theorem setUsers (h : Held s) {users : PoolUsers Worker} (husers : users.Inv)
    (hout : users.outstanding = s.users.outstanding)
    (hfreeing : ∀ w, users.pool.stage (.frame w) = .idle ∨ users.pool.stage (.frame w) = .freeing) :
    Held { s with users } := by
  refine ⟨husers, ?_, h.queues, h.written, h.fits, hfreeing⟩
  dsimp only
  rw [hout]
  exact h.holding

/-- `GetBlock` hands out a block that no task has. -/
theorem got (h : Held s) {users : PoolUsers Worker} (husers : users.Inv) {task : BlockTask}
    {frames : List (List UInt8)} (hnew : task.pFrame ∉ s.users.outstanding)
    (hout : users.outstanding = task.pFrame :: s.users.outstanding)
    (hfreeing : ∀ w, users.pool.stage (.frame w) = .idle ∨ users.pool.stage (.frame w) = .freeing)
    (hstage : (s.recv w).task = none) (hfits : (SaveStage.copying task frames).Fits) :
    Held ({ s with users }.setRecv w (.copying task frames)) := by
  have hat : ∀ place t, ({ s with users }.setRecv w (.copying task frames)).At place t ↔
      s.At place t ∨ place = .recv w ∧ t = task := by
    intro place t
    rw [at_setRecv]
    split
    · rename_i hplace
      rw [hplace, At, hstage]
      simp [SaveStage.task, eq_comm]
    · rename_i hplace
      simp only [hplace, false_and, or_false]
      exact Iff.rfl
  refine ⟨husers, ?_, h.queues, ?_, h.fits_setRecv hfits, hfreeing⟩
  · have hout' : ({ s with users }.setRecv w (.copying task frames)).users.outstanding =
        task.pFrame :: s.users.outstanding := hout
    rw [hout']
    exact h.holding.gain hnew hat
  · intro place t hplace
    cases place with
    | recv w' => exact h.written_setRecv (fun _ _ heq => by cases heq) hplace
    | queue w' => exact h.written (.queue w') t hplace
    | work w' => exact h.written (.work w') t hplace

/-- `memcpy` writes to a block that no other task has. -/
theorem copy (h : Held s) {task : BlockTask} {frames : List (List UInt8)}
    (hstage : s.recv w = .copying task frames) : Held ((s.copy task).setRecv w (.queueing task frames)) := by
  have hat : s.At (.recv w) task := by
    rw [At, hstage]
    rfl
  have hfits := h.fits w
  rw [hstage] at hfits
  obtain ⟨hlen, hfits⟩ := hfits
  have hcontent : (s.copy task).content task = task.frame := by
    simp only [content, taskFrame, FrameBlocks.copy, Function.update_self, hlen, Int.toNat_natCast]
    exact Block.take_put _ (hfits task.frame List.mem_cons_self)
  have hcopied : Held (s.copy task) := by
    refine ⟨h.users, h.holding, h.queues, ?_, h.fits, h.freeing⟩
    intro place t hplace
    by_cases hsame : t.pFrame = task.pFrame
    · obtain ⟨_, rfl⟩ := h.holding.one place t (.recv w) task (Written.at hplace) hat hsame
      exact hcontent
    · simp only [content, FrameBlocks.copy, Function.update_of_ne hsame]
      exact h.written place t hplace
  apply hcopied.setRecv
  · have hold : (s.copy task).recv w = .copying task frames := hstage
    rw [hold]
    rfl
  · exact ⟨hlen, hfits⟩
  · intro t frames' heq
    cases heq
    exact hcontent

/-- `AddToList` -/
theorem queue (h : Held s) {task : BlockTask} {frames : List (List UInt8)}
    (hstage : s.recv w = .queueing task frames) :
    Held ({ s with queues := Server.addTask s.queues task.sock task }.setRecv w (.saving task.conn frames)) := by
  have hold : s.At (.recv w) task := by
    rw [At, hstage]
    rfl
  have hat : ∀ place t,
      ({ s with queues := Server.addTask s.queues task.sock task }.setRecv w (.saving task.conn frames)).At
        place t ↔ s.At place t ∧ t ≠ task ∨ place = .queue (worker task.sock) ∧ t = task := by
    intro place t
    rw [at_setRecv]
    by_cases hplace : place = .recv w
    · subst hplace
      have hrecv : s.At (.recv w) t ↔ task = t := by
        rw [At, hstage]
        simp [SaveStage.task]
      rw [hrecv]
      simp [SaveStage.task, eq_comm]
    · rw [if_neg hplace, Server.addTask, at_setQueue]
      by_cases hqueue : place = .queue (worker task.sock)
      · subst hqueue
        have hne : t ∈ s.queues (worker task.sock) → t ≠ task := by
          rintro ht rfl
          exact h.elsewhere hold hplace ht
        simp only [if_true, List.mem_append, List.mem_singleton, true_and, At]
        constructor
        · rintro (hin | heq)
          · exact .inl ⟨hin, hne hin⟩
          · exact .inr heq
        · rintro (⟨hin, _⟩ | heq)
          · exact .inl hin
          · exact .inr heq
      · rw [if_neg hqueue]
        simp only [hqueue, false_and, or_false]
        exact at_iff_ne (h.elsewhere hold hplace)
  refine ⟨h.users, h.holding.move hold hat, ?_, ?_, ?_, h.freeing⟩
  · intro w'
    simp only [FrameBlocks.setRecv, Server.addTask, Function.update_apply]
    split
    · refine List.nodup_append.mpr ⟨h.queues _, List.nodup_singleton _, ?_⟩
      intro t ht t' ht' heq
      rw [List.mem_singleton.mp ht'] at heq
      rw [heq] at ht
      exact @elsewhere _ h _ _ hold (.queue (worker task.sock)) nofun ht
    · exact h.queues w'
  · intro place t hplace
    cases place with
    | recv w' => exact h.written_setRecv (fun _ _ heq => by cases heq) hplace
    | queue w' =>
        simp only [Written, FrameBlocks.setRecv, Server.addTask, Function.update_apply] at hplace
        split at hplace
        · rcases List.mem_append.mp hplace with hin | heq
          · exact h.written (.queue _) t hin
          · rw [List.mem_singleton.mp heq]
            exact h.written (.recv w) task ⟨frames, hstage⟩
        · exact h.written (.queue w') t hplace
    | work w' => exact h.written (.work w') t hplace
  · have hfits := h.fits w
    rw [hstage] at hfits
    exact h.fits_setRecv fun f hf => hfits.2 f (List.mem_cons_of_mem _ hf)

/-- The worker takes the first task of its queue. -/
theorem take (h : Held s) {task : BlockTask} {tasks : List BlockTask} (hstage : s.work w = .idle)
    (hqueue : s.queues w = task :: tasks) :
    Held ({ s with queues := Function.update s.queues w tasks }.setWork w (.handling task)) := by
  have hold : s.At (.queue w) task := by
    rw [At, hqueue]
    exact List.mem_cons_self
  have hnodup := h.queues w
  rw [hqueue] at hnodup
  obtain ⟨hnot, hrest⟩ := List.nodup_cons.mp hnodup
  have hat : ∀ place t,
      ({ s with queues := Function.update s.queues w tasks }.setWork w (.handling task)).At place t ↔
        s.At place t ∧ t ≠ task ∨ place = .work w ∧ t = task := by
    intro place t
    rw [at_setWork]
    by_cases hplace : place = .work w
    · subst hplace
      have hwork : ¬s.At (.work w) t := by
        rw [At, hstage]
        exact Option.some_ne_none t ∘ Eq.symm
      simp [hwork, WorkStage.task, eq_comm]
    · rw [if_neg hplace, at_setQueue]
      simp only [hplace, false_and, or_false]
      by_cases hin : place = .queue w
      · subst hin
        rw [if_pos rfl, At, hqueue, List.mem_cons]
        constructor
        · intro ht
          refine ⟨.inr ht, ?_⟩
          rintro rfl
          exact hnot ht
        · rintro ⟨heq | ht, hne⟩
          · exact absurd heq hne
          · exact ht
      · rw [if_neg hin]
        exact at_iff_ne (h.elsewhere hold hin)
  refine ⟨h.users, h.holding.move hold hat, ?_, ?_, h.fits, h.freeing⟩
  · intro w'
    simp only [FrameBlocks.setWork, Function.update_apply]
    split
    · exact hrest
    · exact h.queues w'
  · intro place t hplace
    have hold' := (hat place t).mp (Written.at hplace)
    cases place with
    | recv w' => exact h.written (.recv w') t hplace
    | queue w' =>
        rcases hold' with ⟨hin, _⟩ | ⟨heq, _⟩
        · exact h.written (.queue w') t hin
        · cases heq
    | work w' =>
        rcases hold' with ⟨hwork, _⟩ | ⟨_, rfl⟩
        · exact h.written (.work w') t hwork
        · exact h.written (.queue w) t hold

/-- The block is not the task's any more when `FreeBlock` begins. -/
theorem free (h : Held s) {users : PoolUsers Worker} (husers : users.Inv) {task : BlockTask}
    (hstage : s.work w = .handled task) (hout : users.outstanding = s.users.outstanding.erase task.pFrame)
    (hfreeing : ∀ w, users.pool.stage (.frame w) = .idle ∨ users.pool.stage (.frame w) = .freeing) :
    Held ({ s with users }.setWork w .freeing) := by
  have hold : s.At (.work w) task := by
    rw [At, hstage]
    rfl
  have hat : ∀ place t, ({ s with users }.setWork w .freeing).At place t ↔ s.At place t ∧ t ≠ task := by
    intro place t
    rw [at_setWork]
    by_cases hplace : place = .work w
    · subst hplace
      have hwork : s.At (.work w) t ↔ task = t := by
        rw [At, hstage]
        simp [WorkStage.task]
      rw [hwork]
      simp [WorkStage.task, eq_comm]
    · rw [if_neg hplace]
      exact at_iff_ne (h.elsewhere hold hplace)
  have hnodup : s.users.outstanding.Nodup := (List.nodup_append.mp h.users.separate.nodup).2.1
  refine ⟨husers, ?_, h.queues, ?_, h.fits, hfreeing⟩
  · have hout' : ({ s with users }.setWork w .freeing).users.outstanding =
        s.users.outstanding.erase task.pFrame := hout
    rw [hout']
    exact h.holding.lose hnodup hold hat
  · intro place t hplace
    cases place with
    | recv w' => exact h.written (.recv w') t hplace
    | queue w' => exact h.written (.queue w') t hplace
    | work w' => exact h.written (.work w') t ((hat (.work w') t).mp (Written.at hplace)).1

/-! ## One step -/

theorem freeing_of_recv (h : Held s) {users : PoolUsers Worker} {a : PoolStep Worker}
    (husers : s.users.step a = some users) (ha : PoolUsers.threadOf a = .recv w) (w' : Nat) :
    users.pool.stage (.frame w') = .idle ∨ users.pool.stage (.frame w') = .freeing := by
  have hne : Worker.frame w' ≠ PoolUsers.threadOf a := by
    rw [ha]
    exact nofun
  rw [PoolUsers.stage_of_step husers hne]
  exact h.freeing w'

theorem freeing_of_frame (h : Held s) {w : Nat} {users : PoolUsers Worker} {a : PoolStep Worker}
    (husers : s.users.step a = some users) (ha : PoolUsers.threadOf a = .frame w)
    (hself : users.pool.stage (.frame w) = .idle ∨ users.pool.stage (.frame w) = .freeing) (w' : Nat) :
    users.pool.stage (.frame w') = .idle ∨ users.pool.stage (.frame w') = .freeing := by
  by_cases hw : w' = w
  · rw [hw]
    exact hself
  · have hne : Worker.frame w' ≠ PoolUsers.threadOf a := by
      rw [ha]
      exact fun heq => hw (Worker.frame.inj heq)
    rw [PoolUsers.stage_of_step husers hne]
    exact h.freeing w'

/-- A call of `FreeBlock` hands out nothing. -/
theorem returns_frame (h : Held s) (w : Nat) : (s.users.pool.returnsBlock (.frame w)).join = none := by
  apply PoolThreads.returnsBlock_other
  rcases h.freeing w with hstage | hstage <;> rw [hstage] <;> exact nofun

theorem move (h : Held s) (hmove : Move sockOf s s') (hfew : s'.users.pool.reserved.length < 0x100000000) :
    Held s' := by
  cases hmove with
  | read conn buff hidle =>
      have hread : Held { s with
          parsers := Function.update s.parsers conn ((s.parsers conn).next cleanPool () buff)
          received := Function.update s.received conn (s.received conn ++ buff.bytes) } :=
        ⟨h.users, h.holding, h.queues, h.written, h.fits, h.freeing⟩
      apply hread.setRecv
      · dsimp only
        rw [hidle]
        rfl
      · intro f hf
        obtain ⟨t, _, rfl⟩ := List.mem_map.mp hf
        rw [taskFrame, List.length_take, t.1.length_eq]
        exact Nat.min_le_right _ _
      · intro t frames heq
        cases heq
  | finish w conn hstage => exact h.setRecv (by rw [hstage]; rfl) trivial fun _ _ heq => by cases heq
  | ask w conn frame frames users hstage husers =>
      have hfits := h.fits w
      rw [hstage] at hfits
      have hnext := h.setUsers (h.users.step husers hfew) (PoolUsers.outstanding_getBlock husers)
        (h.freeing_of_recv husers rfl)
      refine hnext.setRecv ?_ hfits fun _ _ heq => by cases heq
      dsimp only
      rw [hstage]
      rfl
  | wait w conn frame frames users hstage husers hreturns =>
      have hout := PoolUsers.outstanding_goOn husers
      rw [hreturns] at hout
      exact h.setUsers (h.users.step husers hfew) hout (h.freeing_of_recv husers rfl)
  | got w conn frame frames users ret hstage husers hreturns =>
      have hfits := h.fits w
      rw [hstage] at hfits
      have hout := PoolUsers.outstanding_goOn husers
      rw [hreturns] at hout
      cases ret with
      | none =>
          have hnext := h.setUsers (h.users.step husers hfew) hout (h.freeing_of_recv husers rfl)
          have hlost : Held { { s with users } with lost := Function.update s.lost conn (s.lost conn + 1) } :=
            ⟨hnext.users, hnext.holding, hnext.queues, hnext.written, hnext.fits, hnext.freeing⟩
          refine hlost.setRecv ?_ (fun f hf => hfits f (List.mem_cons_of_mem _ hf)) fun _ _ heq => by cases heq
          dsimp only
          rw [hstage]
          rfl
      | some addr =>
          have hnew := h.users.separate.next _ _ hreturns
          refine h.got (h.users.step husers hfew) (fun hmem => hnew (List.mem_append_right _ hmem)) hout
            (h.freeing_of_recv husers rfl) ?_ ⟨rfl, hfits⟩
          rw [hstage]
          rfl
  | copy w task frames hstage => exact h.copy hstage
  | queue w task frames hstage => exact h.queue hstage
  | take w task tasks hstage hqueue => exact h.take hstage hqueue
  | handle w task hstage =>
      have hread : Held { s with handled := s.handled ++ [(task.conn, s.content task)] } :=
        ⟨h.users, h.holding, h.queues, h.written, h.fits, h.freeing⟩
      apply hread.setWork
      dsimp only
      rw [hstage]
      rfl
  | free w task users hstage husers =>
      exact h.free (h.users.step husers hfew) hstage (PoolUsers.outstanding_freeBlock husers)
        (h.freeing_of_frame husers rfl (.inr (PoolUsers.stage_freeBlock husers)))
  | freeOn w users stage hstage husers hnext =>
      have hout := PoolUsers.outstanding_goOn husers
      rw [h.returns_frame w] at hout
      have hself : users.pool.stage (.frame w) = .idle ∨ users.pool.stage (.frame w) = .freeing := by
        obtain ⟨pool, hpool, rfl⟩ := Option.map_eq_some_iff.mp husers
        rcases h.freeing w with hidle | hfree
        · rw [PoolThreads.step, hidle] at hpool
          cases hpool
        · exact (PoolThreads.goOn_freeing hfree hpool).symm
      have husers' := h.setUsers (h.users.step husers hfew) hout (h.freeing_of_frame husers rfl hself)
      apply husers'.setWork
      dsimp only
      rw [hstage]
      rcases hnext with rfl | rfl <;> rfl

end Held

end FrameBlocks

end CmdTran
