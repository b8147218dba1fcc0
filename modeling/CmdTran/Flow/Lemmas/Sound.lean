import CmdTran.Flow.Lemmas.Moves

/-!
# Connections and descriptors

Every connection that the server still knows, in a table, in a queue or in the hands of a worker, was
accepted under one descriptor and is known under that one.
-/

namespace CmdTran

open Server

/-! ## Parts of a view -/

/-- The connection that a worker has bytes or frames of, and its descriptor. -/
def RecvPhase.work : RecvPhase → Option (Nat × Conn)
  | reading _ => none
  | received fd conn _ => some (fd, conn)
  | queueing fd conn _ _ => some (fd, conn)

namespace FlowView

def tasks (v : FlowView) (w : Fin 4) : List CFrameProcTask :=
  ((v.frame w).map Prod.fst).toList ++ v.queue w

/-- The connection was accepted under the descriptor. -/
def Numbered (v : FlowView) (fd : Nat) (conn : Conn) : Prop :=
  conn < v.accepted ∧ v.number conn = fd

structure Sound (v : FlowView) : Prop where
  opened : ∀ fd c, v.clients fd = some c → v.fds fd = some c.conn
  fds : ∀ fd conn, v.fds fd = some conn → v.Numbered fd conn
  recv : ∀ w phase fd conn, v.recv w = some phase → phase.work = some (fd, conn) →
    v.Numbered fd conn
  tasks : ∀ w, ∀ task ∈ v.tasks w, ∃ conn, task.conn = some conn ∧ v.Numbered task.sock conn
  todo : ∀ w fd conn todo frameCount, v.recv w = some (.queueing fd conn todo frameCount) →
    (todo.length : Int) ≤ frameCount ∧ frameCount ≤ Flow.framesMax

end FlowView

/-! ## Updates -/

theorem update_cases {α β : Type} [DecidableEq α] {f : α → Option β} {a x : α} {p : Option β}
    {y : β} (h : Function.update f a p x = some y) :
    x = a ∧ p = some y ∨ x ≠ a ∧ f x = some y := by
  rw [Function.update_apply] at h
  split at h
  · rename_i hx
    exact Or.inl ⟨hx, h⟩
  · rename_i hx
    exact Or.inr ⟨hx, h⟩

namespace FlowView

theorem tasks_queue (v : FlowView) (fd : Nat) (task : CFrameProcTask) (w : Fin 4) :
    (v.setServer { v.toServerView with queue := addTask v.queue fd task }).tasks w =
      v.tasks w ++ if (w : Nat) = worker fd then [task] else [] := by
  have hqueue : addTask v.queue fd task w = v.queue w ++ if (w : Nat) = worker fd then [task] else [] := by
    rw [addTask, Function.update_apply]
    split
    · rename_i hw
      rw [hw]
    · rw [List.append_nil]
  exact (congrArg (((v.frame w).map Prod.fst).toList ++ ·) hqueue).trans
    (List.append_assoc _ _ _).symm

theorem tasks_take {v : FlowView} {w : Fin 4} {task : CFrameProcTask} {rest : List CFrameProcTask}
    (hidle : v.frame w = none) (htasks : v.queue w = task :: rest) (phase : FramePhase) (w' : Fin 4) :
    ((v.setServer (v.popTask w)).setFrame w (some (task, phase))).tasks w' = v.tasks w' := by
  simp only [tasks, setFrame, setServer, ServerView.popTask, Function.update_apply, Fin.val_inj]
  by_cases hw : w' = w
  · subst hw
    simp [hidle, htasks]
  · simp [hw]

theorem tasks_setFrame {v : FlowView} {w : Fin 4} {task : CFrameProcTask} {phase : FramePhase}
    (hphase : v.frame w = some (task, phase)) (phase' : FramePhase) (w' : Fin 4) :
    (v.setFrame w (some (task, phase'))).tasks w' = v.tasks w' := by
  simp only [tasks, setFrame, Function.update_apply]
  by_cases hw : w' = w
  · subst hw
    simp [hphase]
  · simp [hw]

theorem tasks_finish {v : FlowView} {w : Fin 4} {task : CFrameProcTask} {phase : FramePhase}
    (hphase : v.frame w = some (task, phase)) (w' : Fin 4) :
    v.tasks w' = (if w' = w then [task] else []) ++ (v.setFrame w none).tasks w' := by
  simp only [tasks, setFrame, Function.update_apply]
  by_cases hw : w' = w
  · subst hw
    simp [hphase]
  · simp [hw]

end FlowView

/-- The phase that a move puts its recv worker in. -/
inductive NewPhase (v : FlowView) (w : Fin 4) : FlowStep → RecvPhase → Prop where
  | readable (connfd : Option Nat) (added : Bool) (r : ReadResult) (ev : EpollEvent)
      (rest : List EpollEvent) (hevents : v.events w = ev :: rest) :
      NewPhase v w (.recv w connfd added r) (.reading ev.fd)
  | receive (connfd : Option Nat) (added : Bool) (buff : ReadBuff) (fd : Nat) (conn : Conn)
      (hphase : v.recv w = some (.reading fd)) (hopen : v.fds fd = some conn)
      (hbytes : buff.bytes.length ≠ 0) :
      NewPhase v w (.recv w connfd added (.data buff)) (.received fd conn buff)
  | miss (connfd : Option Nat) (added : Bool) (r : ReadResult) (fd : Nat) (conn : Conn)
      (buff : ReadBuff) (hphase : v.recv w = some (.received fd conn buff)) :
      NewPhase v w (.recv w connfd added r) (.reading fd)
  | restruct (connfd : Option Nat) (added : Bool) (r : ReadResult) (fd : Nat) (conn : Conn)
      (buff : ReadBuff) (todo : List (Block × Int)) (frameCount : Int)
      (hphase : v.recv w = some (.received fd conn buff)) (hcount : frameCount = todo.length)
      (hmax : frameCount ≤ Flow.framesMax) :
      NewPhase v w (.recv w connfd added r) (.queueing fd conn todo frameCount)
  | queue (connfd : Option Nat) (added : Bool) (r : ReadResult) (fd : Nat) (conn : Conn)
      (t : Block × Int) (todo : List (Block × Int)) (frameCount : Int)
      (hphase : v.recv w = some (.queueing fd conn (t :: todo) frameCount)) :
      NewPhase v w (.recv w connfd added r) (.queueing fd conn todo frameCount)
  | count (connfd : Option Nat) (added : Bool) (r : ReadResult) (fd : Nat) (conn : Conn)
      (frameCount : Int) (hphase : v.recv w = some (.queueing fd conn [] frameCount)) :
      NewPhase v w (.recv w connfd added r) (.reading fd)

/-! ## What a move does to each part -/

namespace FlowMove

variable {listenSocket : Nat} {v v' : FlowView} {a : FlowStep}

theorem numbered (h : FlowMove listenSocket v a v') {fd : Nat} {conn : Conn}
    (hn : v.Numbered fd conn) : v'.Numbered fd conn := by
  have hnew : ∀ fd', conn < v.accepted + 1 ∧ Function.update v.number v.accepted fd' conn = fd := by
    intro fd'
    refine ⟨Nat.lt_succ_of_lt hn.1, ?_⟩
    rw [Function.update_of_ne (Nat.ne_of_lt hn.1)]
    exact hn.2
  cases h with
  | accept w fd' => exact hnew fd'
  | refuse w fd' => exact hnew fd'
  | _ => exact hn

theorem fds_cases (h : FlowMove listenSocket v a v') {fd : Nat} {conn : Conn}
    (hfd : v'.fds fd = some conn) : v.fds fd = some conn ∨ v'.Numbered fd conn := by
  have hclosed : ∀ k, Function.update v.fds k none fd = some conn → v.fds fd = some conn := by
    intro k hk
    obtain ⟨_, hno⟩ | ⟨_, hfd⟩ := update_cases hk
    · cases hno
    · exact hfd
  cases h with
  | accept w fd' =>
      obtain ⟨rfl, hconn⟩ | ⟨_, hold⟩ := update_cases hfd
      · cases hconn
        exact Or.inr ⟨Nat.lt_succ_self _, Function.update_self _ _ _⟩
      · exact Or.inl hold
  | refuse w fd' => exact Or.inl (hclosed _ hfd)
  | hangUp => exact Or.inl (hclosed _ hfd)
  | eof => exact Or.inl (hclosed _ hfd)
  | reject => exact Or.inl (hclosed _ hfd)
  | _ => exact Or.inl hfd

/-- A recv worker is where it was, or in the phase that the move puts it in. -/
theorem recv_cases (h : FlowMove listenSocket v a v') {w : Fin 4} {phase : RecvPhase}
    (hphase : v'.recv w = some phase) : v.recv w = some phase ∨ NewPhase v w a phase := by
  cases h with
  | deliver => exact Or.inl hphase
  | take => exact Or.inl hphase
  | command => exact Or.inl hphase
  | reject => exact Or.inl hphase
  | finish => exact Or.inl hphase
  | readable w' connfd added r ev rest hidle hevents =>
      obtain ⟨rfl, hnew⟩ | ⟨_, hold⟩ := update_cases hphase
      · cases hnew
        exact Or.inr (.readable connfd added r ev rest hevents)
      · exact Or.inl hold
  | receive w' connfd added buff fd conn hbefore hopen hbytes =>
      obtain ⟨rfl, hnew⟩ | ⟨_, hold⟩ := update_cases hphase
      · cases hnew
        exact Or.inr (.receive connfd added buff fd conn hbefore hopen hbytes)
      · exact Or.inl hold
  | miss w' connfd added r fd conn buff hbefore =>
      obtain ⟨rfl, hnew⟩ | ⟨_, hold⟩ := update_cases hphase
      · cases hnew
        exact Or.inr (.miss connfd added r fd conn buff hbefore)
      · exact Or.inl hold
  | restruct w' connfd added r fd conn buff todo frameCount hbefore hcount hmax =>
      obtain ⟨rfl, hnew⟩ | ⟨_, hold⟩ := update_cases hphase
      · cases hnew
        exact Or.inr (.restruct connfd added r fd conn buff todo frameCount hbefore hcount hmax)
      · exact Or.inl hold
  | queue w' connfd added r fd conn t todo frameCount hbefore =>
      obtain ⟨rfl, hnew⟩ | ⟨_, hold⟩ := update_cases hphase
      · cases hnew
        exact Or.inr (.queue connfd added r fd conn t todo frameCount hbefore)
      · exact Or.inl hold
  | count w' connfd added r fd conn frameCount hbefore =>
      obtain ⟨rfl, hnew⟩ | ⟨_, hold⟩ := update_cases hphase
      · cases hnew
        exact Or.inr (.count connfd added r fd conn frameCount hbefore)
      · exact Or.inl hold
  | _ =>
      obtain ⟨_, hnone⟩ | ⟨_, hold⟩ := update_cases hphase
      · cases hnone
      · exact Or.inl hold

/-- A recv worker has the work that it had before, or has just read bytes of an open connection. -/
theorem work_cases (h : FlowMove listenSocket v a v') {w : Fin 4} {phase : RecvPhase} {fd : Nat}
    {conn : Conn} (hphase : v'.recv w = some phase) (hwork : phase.work = some (fd, conn)) :
    (∃ phase₀, v.recv w = some phase₀ ∧ phase₀.work = some (fd, conn)) ∨
      ∃ connfd added buff, a = .recv w connfd added (.data buff) ∧ buff.bytes.length ≠ 0 ∧
        v.recv w = some (.reading fd) ∧ v.fds fd = some conn := by
  rcases h.recv_cases hphase with hold | hnew
  · exact Or.inl ⟨phase, hold, hwork⟩
  · cases hnew with
    | readable => cases hwork
    | receive connfd added buff fd' conn' hbefore hopen hbytes =>
        cases hwork
        exact Or.inr ⟨connfd, added, buff, rfl, hbytes, hbefore, hopen⟩
    | miss => cases hwork
    | restruct connfd added r fd' conn' buff todo frameCount hbefore =>
        exact Or.inl ⟨_, hbefore, hwork⟩
    | queue connfd added r fd' conn' t todo frameCount hbefore => exact Or.inl ⟨_, hbefore, hwork⟩
    | count => cases hwork

/-- A task that is there now was there before, or a recv worker has just queued it. -/
theorem task_cases (h : FlowMove listenSocket v a v') {w : Fin 4} {task : CFrameProcTask}
    (htask : task ∈ v'.tasks w) :
    task ∈ v.tasks w ∨ ∃ w' phase conn, v.recv w' = some phase ∧
      phase.work = some (task.sock, conn) ∧ task.conn = some conn := by
  cases h with
  | queue w' connfd added r fd conn t todo frameCount hphase =>
      have hmem : task ∈ v.tasks w ++ if (w : Nat) = worker fd then [⟨fd, t.1, t.2, some conn⟩] else [] :=
        (v.tasks_queue fd _ w) ▸ htask
      rcases List.mem_append.mp hmem with hold | hnew
      · exact Or.inl hold
      · split at hnew
        · cases List.mem_singleton.mp hnew
          exact Or.inr ⟨w', _, conn, hphase, rfl, rfl⟩
        · cases hnew
  | take w' task' rest hidle htasks =>
      exact Or.inl (FlowView.tasks_take hidle htasks .command w ▸ htask)
  | command w' task' hphase => exact Or.inl (FlowView.tasks_setFrame hphase .finish w ▸ htask)
  | reject w' task' hphase =>
      have heq := FlowView.tasks_setFrame hphase .finish w
      exact Or.inl (heq ▸ htask)
  | finish w' task' hphase =>
      rw [FlowView.tasks_finish hphase w]
      exact Or.inl (List.mem_append_right _ htask)
  | _ => exact Or.inl htask

/-- A descriptor that was not open is open because the move accepted it. -/
theorem accepts (h : FlowMove listenSocket v a v') {fd : Nat} {conn : Conn} (hfree : v.fds fd = none)
    (hopen : v'.fds fd = some conn) :
    ∃ w added r ev rest, a = .recv w (some fd) added r ∧ v.recv w = none ∧
      v.events w = ev :: rest ∧ ev.fd = listenSocket := by
  have hclosed : ∀ k, Function.update v.fds k none fd ≠ some conn := by
    intro k hk
    obtain ⟨_, hno⟩ | ⟨_, hold⟩ := update_cases hk
    · cases hno
    · cases hfree.symm.trans hold
  cases h with
  | accept w fd' r ev rest hidle hevents hlisten =>
      obtain ⟨rfl, _⟩ | ⟨_, hold⟩ := update_cases hopen
      · exact ⟨w, true, r, ev, rest, rfl, hidle, hevents, hlisten⟩
      · cases hfree.symm.trans hold
  | refuse w fd' => exact absurd hopen (hclosed fd')
  | hangUp w connfd added r ev => exact absurd hopen (hclosed ev.fd)
  | eof w connfd added r fd' => exact absurd hopen (hclosed fd')
  | reject w task => exact absurd hopen (hclosed task.sock)
  | _ => cases hfree.symm.trans hopen

/-- The frames that are left of a call are at most those that it counts. -/
theorem todo_le (h : FlowMove listenSocket v a v') (hs : v.Sound) {w : Fin 4} {fd : Nat} {conn : Conn}
    {todo : List (Block × Int)} {frameCount : Int}
    (hphase : v'.recv w = some (.queueing fd conn todo frameCount)) :
    (todo.length : Int) ≤ frameCount ∧ frameCount ≤ Flow.framesMax := by
  rcases h.recv_cases hphase with hold | hnew
  · exact hs.todo w fd conn todo frameCount hold
  · cases hnew with
    | restruct connfd added r fd conn buff todo frameCount _ hcount hmax => exact ⟨hcount.ge, hmax⟩
    | queue connfd added r fd conn t todo frameCount hbefore =>
        obtain ⟨hlen, hmax⟩ := hs.todo w fd conn (t :: todo) frameCount hbefore
        rw [List.length_cons] at hlen
        exact ⟨by omega, hmax⟩

end FlowMove

end CmdTran
