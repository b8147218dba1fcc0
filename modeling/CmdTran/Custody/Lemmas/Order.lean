import CmdTran.Custody.Lemmas.Blocks

/-!
# The order of the frames of a connection

All frames of a connection go through one receive worker and the queue of one frame worker.
-/

namespace CmdTran

/-- The connection whose frames a receive worker saves. -/
def SaveStage.conn : SaveStage → Option Conn
  | .idle => none
  | .saving conn _ | .getting conn _ _ => some conn
  | .copying task _ | .queueing task _ => some task.conn

namespace FrameBlocks

open Server (worker)

variable {sockOf : Conn → Nat} {s s' : FrameBlocks}

structure Ordered (sockOf : Conn → Nat) (s : FrameBlocks) : Prop where
  sock : ∀ place task, s.At place task → task.sock = sockOf task.conn
  home : ∀ w conn, (s.recv w).conn = some conn → worker (sockOf conn) = w
  queued : ∀ w, ∀ task ∈ s.queues w, worker (sockOf task.conn) = w
  working : ∀ w, ∀ task ∈ (s.work w).current, worker (sockOf task.conn) = w
  pending : ∀ conn, (s.parsers conn).state.pending = restOf (s.received conn)
  order : ∀ conn, s.InOrder sockOf conn

section Lines

variable {w : Nat} {conn : Conn}

theorem tasks_setRecv (stage : SaveStage) (w' : Nat) :
    (s.setRecv w stage).tasks w' =
      if w' = w then (s.work w).current ++ s.queues w ++ stage.task.toList else s.tasks w' := by
  simp only [tasks, setRecv, Function.update_apply]
  split
  · rename_i hw
    rw [hw]
  · rfl

theorem tasks_setRecv_same {stage : SaveStage} (hstage : stage.task = (s.recv w).task) (w' : Nat) :
    (s.setRecv w stage).tasks w' = s.tasks w' := by
  rw [tasks_setRecv]
  split
  · rename_i hw
    rw [hw, hstage, tasks]
  · rfl

theorem todo_setRecv {stage : SaveStage} (htodo : stage.todo conn = (s.recv w).todo conn) (w' : Nat) :
    ((s.setRecv w stage).recv w').todo conn = (s.recv w').todo conn := by
  simp only [setRecv, Function.update_apply]
  split
  · rename_i hw
    rw [hw, htodo]
  · rfl

theorem tasks_setWork (stage : WorkStage) (w' : Nat) :
    (s.setWork w stage).tasks w' =
      if w' = w then stage.current ++ s.queues w ++ (s.recv w).task.toList else s.tasks w' := by
  simp only [tasks, setWork, Function.update_apply]
  split
  · rename_i hw
    rw [hw]
  · rfl

theorem InOrder.congr (h : s.InOrder sockOf conn) (hreceived : s'.received conn = s.received conn)
    (htodo : (s'.recv (worker (sockOf conn))).todo conn = (s.recv (worker (sockOf conn))).todo conn)
    (hline : s'.handledOf conn ++ s'.underWay sockOf conn = s.handledOf conn ++ s.underWay sockOf conn)
    (hlost : s'.lost conn = s.lost conn) : s'.InOrder sockOf conn := by
  rw [InOrder, hreceived, htodo, hline, hlost]
  exact h

/-- The tasks and what was handled are as before. -/
theorem line_congr (hhandled : s'.handled = s.handled)
    (htasks : s'.tasks (worker (sockOf conn)) = s.tasks (worker (sockOf conn))) :
    s'.handledOf conn ++ s'.underWay sockOf conn = s.handledOf conn ++ s.underWay sockOf conn := by
  rw [handledOf, handledOf, underWay, underWay, hhandled, htasks]

end Lines

namespace Ordered

variable {w : Nat}

theorem home_setRecv (h : Ordered sockOf s) {stage : SaveStage}
    (hconn : ∀ conn, stage.conn = some conn → worker (sockOf conn) = w) (w' : Nat) (conn : Conn)
    (hw : ((s.setRecv w stage).recv w').conn = some conn) : worker (sockOf conn) = w' := by
  simp only [FrameBlocks.setRecv, Function.update_apply] at hw
  split at hw
  · rename_i heq
    rw [heq]
    exact hconn conn hw
  · exact h.home w' conn hw

/-- A receive worker goes on with the same frames to save. -/
theorem setRecv (h : Ordered sockOf s) {stage : SaveStage} (hstage : stage.task = (s.recv w).task)
    (hconn : ∀ conn, stage.conn = some conn → (s.recv w).conn = some conn)
    (htodo : ∀ conn, stage.todo conn = (s.recv w).todo conn) : Ordered sockOf (s.setRecv w stage) := by
  refine ⟨?_, h.home_setRecv fun conn hw => h.home w conn (hconn conn hw), h.queued, h.working, h.pending, ?_⟩
  · intro place task hat
    exact h.sock place task ((at_setRecv_same hstage).mp hat)
  · intro conn
    exact (h.order conn).congr rfl (todo_setRecv (htodo conn) _) (line_congr rfl (tasks_setRecv_same hstage _)) rfl

/-- A frame worker goes on without a task in `CommandProc`. -/
theorem setWork (h : Ordered sockOf s) {stage : WorkStage}
    (hstage : ∀ task, stage.task = some task → (s.work w).task = some task)
    (hcurrent : stage.current = (s.work w).current) : Ordered sockOf (s.setWork w stage) := by
  refine ⟨?_, h.home, h.queued, ?_, h.pending, ?_⟩
  · intro place task hat
    rw [at_setWork] at hat
    split at hat
    · exact h.sock (.work w) task (hstage task hat)
    · exact h.sock place task hat
  · intro w' task htask
    simp only [FrameBlocks.setWork, Function.update_apply] at htask
    split at htask
    · rename_i heq
      rw [heq]
      rw [hcurrent] at htask
      exact h.working w task htask
    · exact h.working w' task htask
  · intro conn
    refine (h.order conn).congr rfl rfl ?_ rfl
    refine line_congr rfl ?_
    rw [tasks_setWork]
    split
    · rename_i heq
      rw [heq, hcurrent, tasks]
    · rfl

/-- `RestructFrame` finds the frames of what was pending and of what was read. -/
theorem read (h : Ordered sockOf s) (conn : Conn) (buff : ReadBuff)
    (hidle : s.recv (worker (sockOf conn)) = .idle) :
    Ordered sockOf (s.read (worker (sockOf conn)) conn buff) := by
  have hpool : ∀ pool : Unit, (cleanPool pool).1 ≠ none := fun _ => Option.some_ne_none _
  obtain ⟨_, hscan⟩ := (s.parsers conn).call_spec cleanPool () buff
  have hframes : s.restruct conn buff = framesOf (restOf (s.received conn) ++ buff.bytes) := by
    rw [restruct, hscan.frames hpool, h.pending conn]
  have hpending : ((s.parsers conn).next cleanPool () buff).state.pending =
      restOf (restOf (s.received conn) ++ buff.bytes) := by
    rw [← h.pending conn]
    exact hscan.pending
  refine ⟨?_, h.home_setRecv ?_, h.queued, h.working, ?_, ?_⟩
  · intro place task hat
    rw [FrameBlocks.read, at_setRecv] at hat
    split at hat
    · cases hat
    · exact h.sock place task hat
  · rintro _ hconn
    cases hconn
    rfl
  · intro conn'
    simp only [FrameBlocks.read, FrameBlocks.setRecv, Function.update_apply]
    split
    · rw [hpending, ← restOf_append]
    · exact h.pending conn'
  · intro conn'
    have hline : (s.read (worker (sockOf conn)) conn buff).handledOf conn' ++
        (s.read (worker (sockOf conn)) conn buff).underWay sockOf conn' =
          s.handledOf conn' ++ s.underWay sockOf conn' := by
      refine line_congr rfl (tasks_setRecv_same ?_ _)
      dsimp only
      rw [hidle]
      rfl
    by_cases hconn : conn' = conn
    · subst hconn
      obtain ⟨saved, hall, hsub, hlength⟩ := h.order conn'
      rw [hidle, SaveStage.todo, List.append_nil] at hall
      refine ⟨saved, ?_, hline ▸ hsub, hline ▸ hlength⟩
      simp only [FrameBlocks.read, FrameBlocks.setRecv, Function.update_self, SaveStage.todo, if_true]
      rw [framesOf_append, hall, hframes]
    · refine (h.order conn').congr (Function.update_of_ne hconn _ _) (todo_setRecv ?_ _) hline rfl
      dsimp only
      rw [hidle, SaveStage.todo, SaveStage.todo, if_neg (Ne.symm hconn)]

/-- `GetBuffer` returns `NULL`, and the frame is not saved. -/
theorem drop (h : Ordered sockOf s) {conn : Conn} {frame : List UInt8} {frames : List (List UInt8)}
    (hstage : s.recv w = .getting conn frame frames) :
    Ordered sockOf ({ s with lost := Function.update s.lost conn (s.lost conn + 1) }.setRecv w
      (.saving conn frames)) := by
  have hhome : worker (sockOf conn) = w := h.home w conn (by rw [hstage]; rfl)
  refine ⟨?_, h.home_setRecv ?_, h.queued, h.working, h.pending, ?_⟩
  · intro place task hat
    rw [at_setRecv] at hat
    split at hat
    · cases hat
    · exact h.sock place task hat
  · rintro _ hconn
    cases hconn
    exact hhome
  · intro conn'
    have hline : ∀ s', s' = ({ s with lost := Function.update s.lost conn (s.lost conn + 1) }.setRecv w
        (.saving conn frames)) → s'.handledOf conn' ++ s'.underWay sockOf conn' =
          s.handledOf conn' ++ s.underWay sockOf conn' := by
      rintro _ rfl
      refine line_congr rfl (tasks_setRecv_same ?_ _)
      dsimp only
      rw [hstage]
      rfl
    by_cases hconn : conn' = conn
    · subst hconn
      obtain ⟨saved, hall, hsub, hlength⟩ := h.order conn'
      rw [hhome, hstage, SaveStage.todo, if_pos rfl] at hall
      refine ⟨saved ++ [frame], ?_, ?_, ?_⟩
      · rw [List.append_assoc, List.singleton_append]
        simp only [FrameBlocks.setRecv, hhome, Function.update_self, SaveStage.todo, if_true]
        exact hall
      · rw [hline _ rfl]
        exact hsub.trans (List.sublist_append_left _ _)
      · rw [hline _ rfl, List.length_append, hlength]
        simp only [FrameBlocks.setRecv, Function.update_self, List.length_singleton]
        omega
    · refine (h.order conn').congr rfl (todo_setRecv ?_ _) (hline _ rfl) (Function.update_of_ne hconn _ _)
      dsimp only
      rw [hstage, SaveStage.todo, SaveStage.todo, if_neg (Ne.symm hconn), if_neg (Ne.symm hconn)]

/-- The frame gets a block. -/
theorem got (h : Ordered sockOf s) {conn : Conn} {frame : List UInt8} {frames : List (List UInt8)}
    (hstage : s.recv w = .getting conn frame frames) (addr : Nat) :
    Ordered sockOf (s.setRecv w (.copying ⟨sockOf conn, addr, frame.length, conn, frame⟩ frames)) := by
  have hhome : worker (sockOf conn) = w := h.home w conn (by rw [hstage]; rfl)
  refine ⟨?_, h.home_setRecv ?_, h.queued, h.working, h.pending, ?_⟩
  · intro place task hat
    rw [at_setRecv] at hat
    split at hat
    · cases hat
      rfl
    · exact h.sock place task hat
  · rintro _ hconn
    cases hconn
    exact hhome
  · intro conn'
    by_cases hconn : conn' = conn
    · subst hconn
      obtain ⟨saved, hall, hsub, hlength⟩ := h.order conn'
      rw [hhome, hstage, SaveStage.todo, if_pos rfl] at hall
      have hline : ∀ s', s' = s.setRecv w (.copying ⟨sockOf conn', addr, frame.length, conn', frame⟩ frames) →
          s'.handledOf conn' ++ s'.underWay sockOf conn' =
            s.handledOf conn' ++ s.underWay sockOf conn' ++ [frame] := by
        rintro _ rfl
        have hnone : (s.recv w).task.toList = [] := by
          rw [hstage]
          rfl
        rw [underWay, underWay, tasks_setRecv, hhome, if_pos rfl, tasks, hnone]
        simp [handledOf, FrameBlocks.setRecv, SaveStage.task]
      refine ⟨saved ++ [frame], ?_, ?_, ?_⟩
      · rw [List.append_assoc, List.singleton_append]
        simp only [FrameBlocks.setRecv, hhome, Function.update_self, SaveStage.todo, if_true]
        exact hall
      · rw [hline _ rfl]
        exact hsub.append_right [frame]
      · rw [hline _ rfl]
        simp only [List.length_append, List.length_singleton] at hlength ⊢
        simp only [FrameBlocks.setRecv]
        omega
    · refine (h.order conn').congr rfl (todo_setRecv ?_ _) ?_ rfl
      · rw [hstage, SaveStage.todo, SaveStage.todo, if_neg (Ne.symm hconn), if_neg (Ne.symm hconn)]
      · rw [underWay, underWay, tasks_setRecv]
        split
        · rename_i heq
          rw [heq, tasks, hstage]
          simp [SaveStage.task, handledOf, FrameBlocks.setRecv, Ne.symm hconn]
        · rfl

/-- `AddToList` puts the task behind those of its worker. -/
theorem queue (h : Ordered sockOf s) {task : BlockTask} {frames : List (List UInt8)}
    (hstage : s.recv w = .queueing task frames) :
    Ordered sockOf ({ s with queues := Server.addTask s.queues task.sock task }.setRecv w
      (.saving task.conn frames)) := by
  have hhome : worker (sockOf task.conn) = w := h.home w task.conn (by rw [hstage]; rfl)
  have hsock : task.sock = sockOf task.conn := by
    apply h.sock (.recv w)
    rw [At, hstage]
    rfl
  rw [Server.addTask, hsock, hhome]
  refine ⟨?_, h.home_setRecv ?_, ?_, h.working, h.pending, ?_⟩
  · intro place t hat
    rw [at_setRecv] at hat
    split at hat
    · cases hat
    · rw [at_setQueue] at hat
      split at hat
      · rcases List.mem_append.mp hat with hin | heq
        · exact h.sock (.queue w) t hin
        · rw [List.mem_singleton.mp heq]
          exact hsock
      · exact h.sock place t hat
  · rintro _ hconn
    cases hconn
    exact hhome
  · intro w' t ht
    simp only [FrameBlocks.setRecv, Function.update_apply] at ht
    split at ht
    · rename_i heq
      rw [heq]
      rcases List.mem_append.mp ht with hin | heq'
      · exact h.queued w t hin
      · rw [List.mem_singleton.mp heq']
        exact hhome
    · exact h.queued w' t ht
  · intro conn
    refine (h.order conn).congr rfl (todo_setRecv ?_ _) ?_ rfl
    · dsimp only
      rw [hstage, SaveStage.todo, SaveStage.todo]
    · refine line_congr rfl ?_
      rw [tasks_setRecv]
      split
      · rename_i heq
        rw [heq, tasks, hstage]
        simp [SaveStage.task]
      · rename_i hne
        simp only [tasks, Function.update_of_ne hne]

theorem take (h : Ordered sockOf s) {task : BlockTask} {tasks : List BlockTask} (hstage : s.work w = .idle)
    (hqueue : s.queues w = task :: tasks) :
    Ordered sockOf ({ s with queues := Function.update s.queues w tasks }.setWork w (.handling task)) := by
  have hsub : ∀ t ∈ tasks, t ∈ s.queues w := by
    intro t ht
    rw [hqueue]
    exact List.mem_cons_of_mem task ht
  have hmem : task ∈ s.queues w := by
    rw [hqueue]
    exact List.mem_cons_self
  refine ⟨?_, h.home, ?_, ?_, h.pending, ?_⟩
  · intro place t hat
    rw [at_setWork] at hat
    split at hat
    · cases hat
      exact h.sock (.queue w) task hmem
    · rw [at_setQueue] at hat
      split at hat
      · exact h.sock (.queue w) t (hsub t hat)
      · exact h.sock place t hat
  · intro w' t ht
    simp only [FrameBlocks.setWork, Function.update_apply] at ht
    split at ht
    · rename_i heq
      rw [heq]
      exact h.queued w t (hsub t ht)
    · exact h.queued w' t ht
  · intro w' t ht
    simp only [FrameBlocks.setWork, Function.update_apply] at ht
    split at ht
    · rename_i heq
      rw [heq, List.mem_singleton.mp ht]
      exact h.queued w task hmem
    · exact h.working w' t ht
  · intro conn
    refine (h.order conn).congr rfl rfl ?_ rfl
    refine line_congr rfl ?_
    rw [tasks_setWork]
    split
    · rename_i heq
      rw [heq, FrameBlocks.tasks, hstage, hqueue]
      simp [WorkStage.current]
    · rename_i hne
      simp only [FrameBlocks.tasks, Function.update_of_ne hne]

/-- `CommandProc` reads what was copied to the block. -/
theorem handle (h : Ordered sockOf s) {task : BlockTask} (hstage : s.work w = .handling task)
    (hcontent : s.content task = task.frame) :
    Ordered sockOf ({ s with handled := s.handled ++ [(task.conn, s.content task)] }.setWork w
      (.handled task)) := by
  have hhome : worker (sockOf task.conn) = w := by
    apply h.working w
    rw [hstage]
    exact List.mem_singleton_self task
  refine ⟨?_, h.home, h.queued, ?_, h.pending, ?_⟩
  · intro place t hat
    rw [at_setWork] at hat
    split at hat
    · cases hat
      apply h.sock (.work w)
      rw [At, hstage]
      rfl
    · exact h.sock place t hat
  · intro w' t ht
    simp only [FrameBlocks.setWork, Function.update_apply] at ht
    split at ht
    · cases ht
    · exact h.working w' t ht
  · intro conn
    refine (h.order conn).congr rfl rfl ?_ rfl
    rw [underWay, underWay, tasks_setWork, handledOf, handledOf, hcontent]
    by_cases hconn : task.conn = conn
    · subst hconn
      rw [if_pos hhome, hhome, tasks, hstage]
      simp [FrameBlocks.setWork, WorkStage.current]
    · split
      · rename_i heq
        rw [heq, tasks, hstage]
        simp [FrameBlocks.setWork, WorkStage.current, hconn]
      · simp [FrameBlocks.setWork, tasks, hconn]

theorem setUsers (h : Ordered sockOf s) (users : PoolUsers Worker) : Ordered sockOf { s with users } :=
  ⟨h.sock, h.home, h.queued, h.working, h.pending, h.order⟩

theorem move (h : Ordered sockOf s) (hheld : Held s) (hmove : Move sockOf s s') : Ordered sockOf s' := by
  cases hmove with
  | read conn buff hidle => exact h.read conn buff hidle
  | finish w conn hstage =>
      apply h.setRecv
      · rw [hstage]
        rfl
      · intro _ hconn
        cases hconn
      · intro c
        rw [hstage, SaveStage.todo, SaveStage.todo, ite_self]
  | ask w conn frame frames users hstage husers =>
      apply (h.setUsers users).setRecv <;> dsimp only <;> rw [hstage]
      · rfl
      · exact fun _ hconn => hconn
      · exact fun _ => rfl
  | wait w conn frame frames users hstage husers hreturns => exact h.setUsers users
  | got w conn frame frames users ret hstage husers hreturns =>
      have hnext := h.setUsers users
      cases ret with
      | none => exact hnext.drop hstage
      | some addr => exact hnext.got hstage addr
  | copy w task frames hstage =>
      have hcopied : Ordered sockOf (s.copy task) := ⟨h.sock, h.home, h.queued, h.working, h.pending, h.order⟩
      apply hcopied.setRecv <;> dsimp only [FrameBlocks.copy] <;> rw [hstage]
      · rfl
      · exact fun _ hconn => hconn
      · exact fun _ => rfl
  | queue w task frames hstage => exact h.queue hstage
  | take w task tasks hstage hqueue => exact h.take hstage hqueue
  | handle w task hstage =>
      apply h.handle hstage
      apply hheld.written (.work w)
      rw [Written, hstage]
      rfl
  | free w task users hstage husers =>
      apply (h.setUsers users).setWork
      · intro _ htask
        cases htask
      · dsimp only
        rw [hstage]
        rfl
  | freeOn w users stage hstage husers hnext =>
      apply (h.setUsers users).setWork <;> dsimp only
      · intro _ htask
        rcases hnext with rfl | rfl <;> cases htask
      · rw [hstage]
        rcases hnext with rfl | rfl <;> rfl

end Ordered

end FrameBlocks

end CmdTran
