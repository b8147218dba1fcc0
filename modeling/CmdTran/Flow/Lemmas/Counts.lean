import Mathlib.Algebra.BigOperators.Group.Finset.Piecewise
import CmdTran.Flow.Lemmas.Sound

/-!
# Counted frames

The frames of a connection that are pending and counted: those that are pending less those that are
not counted yet. Only the end of a call and the end of a task change their number, and both change
the count of the client at the descriptor.
-/

namespace CmdTran

open Server

/-! ## The balance of a connection -/

theorem sum_eq_add {f g : Fin 4 → Nat} {w : Fin 4} {n : Nat} (hw : g w = f w + n)
    (h : ∀ w' ≠ w, g w' = f w') : ∑ i, g i = ∑ i, f i + n := by
  have hrest : ∑ i ∈ Finset.univ.erase w, g i = ∑ i ∈ Finset.univ.erase w, f i :=
    Finset.sum_congr rfl fun i hi => h i (Finset.ne_of_mem_erase hi)
  rw [← Finset.add_sum_erase _ f (Finset.mem_univ w), ← Finset.add_sum_erase _ g (Finset.mem_univ w),
    hrest, hw, Nat.add_right_comm]

namespace FlowView

def pending (v : FlowView) (conn : Conn) : Nat :=
  ∑ w, (v.tasks w).countP fun task => task.conn = some conn

def uncounted (v : FlowView) (conn : Conn) : Nat := ∑ w, Flow.queuedBy (v.recv w) conn

def balance (v : FlowView) (conn : Conn) : Int := (v.pending conn : Int) - v.uncounted conn

variable {v v' : FlowView} {w : Fin 4} {conn : Conn}

theorem pending_congr (h : ∀ w, v'.tasks w = v.tasks w) (conn : Conn) :
    v'.pending conn = v.pending conn :=
  Finset.sum_congr rfl fun w _ => congrArg _ (h w)

theorem balance_congr (htasks : ∀ w, v'.tasks w = v.tasks w)
    (hrecv : ∀ w, Flow.queuedBy (v'.recv w) conn = Flow.queuedBy (v.recv w) conn) :
    v'.balance conn = v.balance conn := by
  have huncounted : v'.uncounted conn = v.uncounted conn :=
    Finset.sum_congr rfl fun w _ => hrecv w
  rw [balance, balance, pending_congr htasks, huncounted]

theorem balance_setRecv {server : ServerView} {phase phase' : Option RecvPhase}
    (hphase : v.recv w = phase) (hqueued : Flow.queuedBy phase' conn = Flow.queuedBy phase conn)
    (hqueue : server.queue = v.queue) :
    ((v.setServer server).setRecv w phase').balance conn = v.balance conn := by
  refine balance_congr (fun w' => ?_) fun w' => ?_
  · exact congrArg (fun queue => ((v.frame w').map Prod.fst).toList ++ queue w') hqueue
  · simp only [setRecv, setServer, Function.update_apply]
    split
    · rename_i hw
      rw [hqueued, hw, hphase]
    · rfl

/-- A queued frame is pending, and not counted yet. -/
theorem balance_queue {fd : Nat} {c : Conn} {t : Block × Int} {todo : List (Block × Int)}
    {frameCount : Int} (hphase : v.recv w = some (.queueing fd c (t :: todo) frameCount))
    (hle : ((t :: todo).length : Int) ≤ frameCount) (conn : Conn) :
    ((v.setServer { v.toServerView with
      queue := addTask v.queue fd ⟨fd, t.1, t.2, some c⟩ }).setRecv w
        (some (.queueing fd c todo frameCount))).balance conn = v.balance conn := by
  generalize hv' : (v.setServer { v.toServerView with
      queue := addTask v.queue fd ⟨fd, t.1, t.2, some c⟩ }).setRecv w
        (some (.queueing fd c todo frameCount)) = v'
  have htasks (w' : Fin 4) : v'.tasks w' =
      v.tasks w' ++ if (w' : Nat) = worker fd then [⟨fd, t.1, t.2, some c⟩] else [] := by
    subst hv'
    exact v.tasks_queue fd _ w'
  have hpending : v'.pending conn = v.pending conn + if c = conn then 1 else 0 := by
    apply sum_eq_add (w := workerOf fd)
    · have heq : (workerOf fd : Nat) = worker fd := rfl
      rw [htasks (workerOf fd), if_pos heq, List.countP_append, List.countP_singleton]
      simp
    · intro w' hw'
      have hne : (w' : Nat) ≠ worker fd := fun h => hw' (Fin.ext h)
      rw [htasks w', if_neg hne, List.append_nil]
  have huncounted : v'.uncounted conn = v.uncounted conn + if c = conn then 1 else 0 := by
    apply sum_eq_add (w := w)
    · subst hv'
      simp only [setRecv, Function.update_self, hphase, Flow.queuedBy]
      split
      · rw [List.length_cons] at hle ⊢
        omega
      · rfl
    · intro w' hw'
      subst hv'
      simp only [setRecv, setServer, Function.update_of_ne hw']
  rw [balance, balance, hpending, huncounted]
  omega

theorem balance_count {fd : Nat} {c : Conn} {frameCount : Int} {server : ServerView}
    (hphase : v.recv w = some (.queueing fd c [] frameCount)) (hle : 0 ≤ frameCount)
    (hqueue : server.queue = v.queue) (conn : Conn) :
    ((v.setServer server).setRecv w (some (.reading fd))).balance conn =
      v.balance conn + if c = conn then frameCount else 0 := by
  generalize hv' : (v.setServer server).setRecv w (some (.reading fd)) = v'
  have htasks (w' : Fin 4) : v'.tasks w' = v.tasks w' := by
    subst hv'
    exact congrArg (fun queue => ((v.frame w').map Prod.fst).toList ++ queue w') hqueue
  have huncounted : v.uncounted conn = v'.uncounted conn + if c = conn then frameCount.toNat else 0 := by
    apply sum_eq_add (w := w)
    · subst hv'
      simp only [setRecv, Function.update_self, hphase, Flow.queuedBy, List.length_nil, Nat.sub_zero,
        Nat.zero_add]
    · intro w' hw'
      subst hv'
      simp only [setRecv, setServer, Function.update_of_ne hw']
  rw [balance, balance, pending_congr htasks, huncounted]
  split
  · omega
  · omega

theorem balance_finish {task : CFrameProcTask} {phase : FramePhase} {server : ServerView}
    (hphase : v.frame w = some (task, phase)) (hqueue : server.queue = v.queue) (conn : Conn) :
    ((v.setServer server).setFrame w none).balance conn =
      v.balance conn - if task.conn = some conn then 1 else 0 := by
  generalize hv' : (v.setServer server).setFrame w none = v'
  have htasks (w' : Fin 4) : v.tasks w' = (if w' = w then [task] else []) ++ v'.tasks w' := by
    have hsame : (v.setFrame w none).tasks w' = v'.tasks w' := by
      subst hv'
      exact congrArg (fun queue => (((v.setFrame w none).frame w').map Prod.fst).toList ++ queue w')
        hqueue.symm
    rw [tasks_finish hphase w', hsame]
  have hpending : v.pending conn = v'.pending conn + if task.conn = some conn then 1 else 0 := by
    apply sum_eq_add (w := w)
    · rw [htasks w, if_pos rfl, List.countP_append, List.countP_singleton, Nat.add_comm]
      simp
    · intro w' hw'
      rw [htasks w', if_neg hw', List.nil_append]
  have huncounted : v'.uncounted conn = v.uncounted conn := by
    subst hv'
    rfl
  rw [balance, balance, hpending, huncounted]
  split
  · omega
  · omega

end FlowView

/-! ## Effects -/

/-- What a move does to the clients and to the balances: nothing, except that clients come and go; or
it is the end of a call, or of a task. -/
inductive FlowEffect (v : FlowView) : FlowStep → FlowView → Prop where
  | quiet {a : FlowStep} {v' : FlowView}
      (hclients : ∀ fd c, v'.clients fd = some c →
        v.clients fd = some c ∧ v'.fds fd = v.fds fd ∨
          c = ⟨v.accepted, 0, true⟩ ∧ v.fds fd = none ∧ v'.fds fd = some v.accepted)
      (hbalance : ∀ conn, v'.balance conn = v.balance conn) : FlowEffect v a v'
  | count {v' : FlowView} (w : Fin 4) (connfd : Option Nat) (added : Bool) (r : ReadResult) (fd : Nat)
      (conn : Conn) (frameCount : Int)
      (hphase : v.recv w = some (.queueing fd conn [] frameCount))
      (hclients : v'.clients =
        Function.update v.clients fd ((v.clients fd).map (·.increase frameCount)))
      (hfds : v'.fds = v.fds)
      (hbalance : ∀ c, v'.balance c = v.balance c + if conn = c then frameCount else 0) :
      FlowEffect v (.recv w connfd added r) v'
  | finish {v' : FlowView} (w : Fin 4) (task : CFrameProcTask)
      (hphase : v.frame w = some (task, .finish))
      (hclients : v'.clients =
        Function.update v.clients task.sock ((v.clients task.sock).map FlowClient.decrease))
      (hfds : v'.fds = v.fds)
      (hbalance : ∀ c, v'.balance c = v.balance c - if task.conn = some c then 1 else 0) :
      FlowEffect v (.frame w) v'

namespace FlowEffect

variable {v v' : FlowView} {a : FlowStep}

theorem of_same (hclients : v'.clients = v.clients) (hfds : v'.fds = v.fds)
    (hbalance : ∀ conn, v'.balance conn = v.balance conn) : FlowEffect v a v' := by
  refine .quiet (fun fd c hc => Or.inl ⟨?_, by rw [hfds]⟩) hbalance
  rwa [hclients] at hc

theorem of_close {fd : Nat} (hclients : v'.clients = Function.update v.clients fd none)
    (hfds : v'.fds = Function.update v.fds fd none)
    (hbalance : ∀ conn, v'.balance conn = v.balance conn) : FlowEffect v a v' := by
  refine .quiet (fun k c hc => ?_) hbalance
  rw [hclients] at hc
  obtain ⟨_, hno⟩ | ⟨hk, hold⟩ := update_cases hc
  · cases hno
  · rw [hfds, Function.update_of_ne hk]
    exact Or.inl ⟨hold, rfl⟩

/-- Where one client counts, a client has just counted or is as it was. -/
theorem counted_cases {clients : Nat → Option FlowClient} {k fd : Nat} {f : FlowClient → FlowClient}
    {c : FlowClient} (hc : Function.update clients k ((clients k).map f) fd = some c) :
    (∃ c₀, fd = k ∧ clients k = some c₀ ∧ c = f c₀) ∨ fd ≠ k ∧ clients fd = some c := by
  obtain ⟨hk, hnew⟩ | hold := update_cases hc
  · obtain ⟨c₀, hc₀, hf⟩ := Option.map_eq_some_iff.mp hnew
    exact Or.inl ⟨c₀, hk, hc₀, hf.symm⟩
  · exact Or.inr hold

/-- A client is there for a connection that had one before, or for one that was just accepted. -/
theorem client_cases (h : FlowEffect v a v') {fd : Nat} {c : FlowClient}
    (hc : v'.clients fd = some c) :
    (∃ c₀, v.clients fd = some c₀ ∧ c₀.conn = c.conn ∧ v'.fds fd = v.fds fd) ∨
      v.fds fd = none ∧ v'.fds fd = some c.conn := by
  cases h with
  | quiet hclients =>
      rcases hclients fd c hc with ⟨hold, hfds⟩ | ⟨rfl, hfree, hfds⟩
      · exact Or.inl ⟨c, hold, rfl, hfds⟩
      · exact Or.inr ⟨hfree, hfds⟩
  | count w connfd added r k conn frameCount hphase hclients hfds =>
      rw [hclients] at hc
      obtain ⟨c₀, rfl, hc₀, rfl⟩ | ⟨_, hold⟩ := counted_cases hc
      · exact Or.inl ⟨c₀, hc₀, rfl, by rw [hfds]⟩
      · exact Or.inl ⟨c, hold, rfl, by rw [hfds]⟩
  | finish w task hphase hclients hfds =>
      rw [hclients] at hc
      obtain ⟨c₀, rfl, hc₀, rfl⟩ | ⟨_, hold⟩ := counted_cases hc
      · exact Or.inl ⟨c₀, hc₀, rfl, by rw [hfds]⟩
      · exact Or.inl ⟨c, hold, rfl, by rw [hfds]⟩

end FlowEffect

namespace FlowMove

variable {listenSocket : Nat} {v v' : FlowView} {a : FlowStep}

theorem effect (h : FlowMove listenSocket v a v') (hs : v.Sound) : FlowEffect v a v' := by
  have hnone {fd : Nat} (hfree : v.fds fd = none) : v.clients fd = none := by
    cases hc : v.clients fd with
    | none => rfl
    | some c =>
        have := hs.opened fd c hc
        rw [hfree] at this
        cases this
  cases h with
  | deliver ev => exact .of_same rfl rfl fun _ => rfl
  | pass w connfd added r ev rest hidle =>
      exact .of_same rfl rfl fun _ => FlowView.balance_setRecv hidle rfl rfl
  | accept w fd r ev rest hidle hevents hlisten hfree =>
      refine .quiet (fun k c hc => ?_) fun _ => FlowView.balance_setRecv hidle rfl rfl
      obtain ⟨rfl, hnew⟩ | ⟨hk, hold⟩ := update_cases hc
      · cases hnew
        have hno : (v.popEvent w).clients k = none := hnone hfree
        rw [hno]
        exact Or.inr ⟨rfl, hfree, Function.update_self _ _ _⟩
      · exact Or.inl ⟨hold, Function.update_of_ne hk _ _⟩
  | refuse w fd r ev rest hidle hevents hlisten hfree =>
      refine .quiet (fun k c hc => Or.inl ⟨hc, ?_⟩) fun _ => FlowView.balance_setRecv hidle rfl rfl
      refine Function.update_of_ne ?_ _ _
      rintro rfl
      have hno := hnone hfree
      cases hno.symm.trans hc
  | readable w connfd added r ev rest hidle =>
      exact .of_same rfl rfl fun _ => FlowView.balance_setRecv hidle rfl rfl
  | hangUp w connfd added r ev rest hidle =>
      exact .of_close rfl rfl fun _ => FlowView.balance_setRecv hidle rfl rfl
  | stop w connfd added r fd hphase =>
      exact .of_same rfl rfl fun _ => FlowView.balance_setRecv hphase rfl rfl
  | eof w connfd added r fd hphase =>
      exact .of_close rfl rfl fun _ => FlowView.balance_setRecv hphase rfl rfl
  | receive w connfd added buff fd conn hphase =>
      exact .of_same rfl rfl fun _ => FlowView.balance_setRecv hphase rfl rfl
  | miss w connfd added r fd conn buff hphase =>
      exact .of_same rfl rfl fun _ => FlowView.balance_setRecv hphase rfl rfl
  | restruct w connfd added r fd conn buff todo frameCount hphase hcount =>
      refine .of_same rfl rfl fun _ => FlowView.balance_setRecv hphase ?_ rfl
      simp only [Flow.queuedBy, hcount, Int.toNat_natCast, Nat.sub_self, ite_self]
  | queue w connfd added r fd conn t todo frameCount hphase =>
      exact .of_same rfl rfl
        (FlowView.balance_queue hphase (hs.todo w fd conn (t :: todo) frameCount hphase).1)
  | count w connfd added r fd conn frameCount hphase =>
      exact .count w connfd added r fd conn frameCount hphase rfl rfl
        (FlowView.balance_count hphase (hs.todo w fd conn [] frameCount hphase).1 rfl)
  | take w task rest hidle htasks =>
      exact .of_same rfl rfl fun conn =>
        FlowView.balance_congr (FlowView.tasks_take hidle htasks .command) fun _ => rfl
  | command w task hphase =>
      exact .of_same rfl rfl fun conn =>
        FlowView.balance_congr (FlowView.tasks_setFrame hphase .finish) fun _ => rfl
  | reject w task hphase =>
      exact .of_close rfl rfl fun conn =>
        FlowView.balance_congr (FlowView.tasks_setFrame hphase .finish) fun _ => rfl
  | finish w task hphase =>
      exact .finish w task hphase rfl rfl (FlowView.balance_finish hphase rfl)

theorem clients_finish {w : Fin 4} {task : CFrameProcTask} (h : FlowMove listenSocket v (.frame w) v')
    (hphase : v.frame w = some (task, .finish)) :
    v'.clients =
      Function.update v.clients task.sock ((v.clients task.sock).map FlowClient.decrease) := by
  cases h with
  | take _ task' rest hidle => cases hphase.symm.trans hidle
  | command _ task' hphase' => cases hphase.symm.trans hphase'
  | reject _ task' hphase' => cases hphase.symm.trans hphase'
  | finish _ task' hphase' =>
      cases hphase.symm.trans hphase'
      rfl

end FlowMove

namespace FlowView

variable {listenSocket : Nat} {v v' : FlowView} {a : FlowStep}

theorem Sound.step (hs : v.Sound) (h : FlowMove listenSocket v a v') : v'.Sound := by
  refine ⟨?_, ?_, ?_, ?_, ?_⟩
  · intro fd c hc
    rcases (h.effect hs).client_cases hc with ⟨c₀, hold, hconn, hfds⟩ | ⟨_, hnew⟩
    · rw [hfds, ← hconn]
      exact hs.opened fd c₀ hold
    · exact hnew
  · intro fd conn hfd
    rcases h.fds_cases hfd with hold | hnew
    · exact h.numbered (hs.fds fd conn hold)
    · exact hnew
  · intro w phase fd conn hphase hwork
    rcases h.work_cases hphase hwork with ⟨phase₀, hold, hwork₀⟩ | ⟨_, _, _, _, _, _, hopen⟩
    · exact h.numbered (hs.recv w phase₀ fd conn hold hwork₀)
    · exact h.numbered (hs.fds fd conn hopen)
  · intro w task htask
    rcases h.task_cases htask with hold | ⟨w', phase, conn, hphase, hwork, hconn⟩
    · obtain ⟨conn, hconn, hn⟩ := hs.tasks w task hold
      exact ⟨conn, hconn, h.numbered hn⟩
    · exact ⟨conn, hconn, h.numbered (hs.recv w' phase _ conn hphase hwork)⟩
  · intro w fd conn todo frameCount hphase
    exact h.todo_le hs hphase

theorem Sound.client_numbered (hs : v.Sound) {fd : Nat} {c : FlowClient}
    (hc : v.clients fd = some c) : v.Numbered fd c.conn :=
  hs.fds fd c.conn (hs.opened fd c hc)

/-- Nothing is known yet of the connection that is accepted next. -/
theorem Sound.balance_accepted (hs : v.Sound) : v.balance v.accepted = 0 := by
  have hpending : v.pending v.accepted = 0 := by
    apply Finset.sum_eq_zero
    intro w _
    rw [List.countP_eq_zero]
    intro task htask hconn
    obtain ⟨conn, hold, hn⟩ := hs.tasks w task htask
    rw [hold] at hconn
    cases of_decide_eq_true hconn
    exact Nat.lt_irrefl _ hn.1
  have huncounted : v.uncounted v.accepted = 0 := by
    apply Finset.sum_eq_zero
    intro w _
    unfold Flow.queuedBy
    split
    · rename_i fd conn todo frameCount hphase
      have hn := (hs.recv w _ fd conn hphase rfl).1
      rw [if_neg (Nat.ne_of_lt hn)]
    · rfl
  rw [balance, hpending, huncounted]
  rfl

/-- The count of the client is the balance of its connection. -/
def Counts (v : FlowView) (fd : Nat) : Prop :=
  ∀ c, v.clients fd = some c → c.frameCount = v.balance c.conn

/-- The work for the descriptor is that of the connection of the client. -/
def Exclusive (v : FlowView) (fd : Nat) : Prop :=
  ∀ c, v.clients fd = some c →
    (∀ w phase conn, v.recv w = some phase → phase.work = some (fd, conn) → conn = c.conn) ∧
      ∀ w, ∀ task ∈ v.tasks w, task.sock = fd → task.conn = some c.conn

/-- Whoever counts at the descriptor next finds the client of the frames. -/
structure Own (v : FlowView) (fd : Nat) (a : FlowStep) : Prop where
  call : ∀ w connfd added r conn frameCount c, a = .recv w connfd added r →
    v.recv w = some (.queueing fd conn [] frameCount) → frameCount ≠ 0 → v.clients fd = some c →
    c.conn = conn
  task : ∀ w task c, a = .frame w → v.frame w = some (task, .finish) → task.sock = fd →
    v.clients fd = some c → some c.conn = task.conn

theorem mem_tasks {w : Fin 4} {task : CFrameProcTask} {phase : FramePhase}
    (hphase : v.frame w = some (task, phase)) : task ∈ v.tasks w := by
  apply List.mem_append_left
  rw [hphase]
  exact List.mem_singleton_self task

theorem Exclusive.own {fd : Nat} (h : v.Exclusive fd) (a : FlowStep) : v.Own fd a := by
  constructor
  · intro w connfd added r conn frameCount c _ hphase _ hc
    exact ((h c hc).1 w _ conn hphase rfl).symm
  · intro w task c _ hphase hsock hc
    exact ((h c hc).2 w task (mem_tasks hphase) hsock).symm

theorem Counts.step {fd : Nat} (h : v.Counts fd) (hs : v.Sound) (hown : v.Own fd a)
    (he : FlowEffect v a v') : v'.Counts fd := by
  intro c hc
  cases he with
  | quiet hclients hbalance =>
      rw [hbalance]
      rcases hclients fd c hc with ⟨hold, _⟩ | ⟨rfl, _⟩
      · exact h c hold
      · exact hs.balance_accepted.symm
  | count w connfd added r k conn frameCount hphase hclients hfds hbalance =>
      rw [hclients] at hc
      rw [hbalance]
      obtain ⟨c₀, rfl, hc₀, rfl⟩ | ⟨hne, hold⟩ := FlowEffect.counted_cases hc
      · have hsum : (if conn = c₀.conn then frameCount else 0) = frameCount := by
          by_cases hzero : frameCount = 0
          · rw [hzero, ite_self]
          · rw [hown.call w connfd added r conn frameCount c₀ rfl hphase hzero hc₀, if_pos rfl]
        simp only [FlowClient.increase, h c₀ hc₀, hsum]
      · -- another connection's frames: a connection has one descriptor
        have hother : conn ≠ c.conn := by
          rintro rfl
          have hk := (hs.recv w _ k c.conn hphase rfl).2
          exact hne ((hs.client_numbered hold).2.symm.trans hk)
        rw [if_neg hother, add_zero]
        exact h c hold
  | finish w task hphase hclients hfds hbalance =>
      rw [hclients] at hc
      rw [hbalance]
      obtain ⟨c₀, rfl, hc₀, rfl⟩ | ⟨hne, hold⟩ := FlowEffect.counted_cases hc
      · have hconn := hown.task w task c₀ rfl hphase rfl hc₀
        simp only [FlowClient.decrease, h c₀ hc₀, if_pos hconn.symm]
      · have hother : task.conn ≠ some c.conn := by
          intro heq
          obtain ⟨conn, hconn, hn⟩ := hs.tasks w task (mem_tasks hphase)
          cases heq.symm.trans hconn
          exact hne ((hs.client_numbered hold).2.symm.trans hn.2)
        rw [if_neg hother, sub_zero]
        exact h c hold

/-- A descriptor that is given out with no work outstanding stays with one connection. -/
theorem Exclusive.step {fd : Nat} (h : v.Exclusive fd) (hs : v.Sound)
    (hm : FlowMove listenSocket v a v')
    (hclear : v.fds fd = none → ∀ conn, v'.fds fd = some conn →
      (∀ w phase conn, v.recv w = some phase → phase.work ≠ some (fd, conn)) ∧
        ∀ w, ∀ task ∈ v.tasks w, task.sock ≠ fd) : v'.Exclusive fd := by
  intro c hc
  rcases (hm.effect hs).client_cases hc with ⟨c₀, hc₀, hconn, _⟩ | ⟨hfree, hopen⟩
  · -- the connection had a client: what is read of the descriptor is its own
    rw [← hconn]
    obtain ⟨hwork₀, htasks₀⟩ := h c₀ hc₀
    refine ⟨fun w phase conn hphase hwork => ?_, fun w task htask hsock => ?_⟩
    · rcases hm.work_cases hphase hwork with ⟨phase₀, hold, hw⟩ | ⟨_, _, _, _, _, _, hfd⟩
      · exact hwork₀ w phase₀ conn hold hw
      · exact Option.some.inj (hfd.symm.trans (hs.opened fd c₀ hc₀))
    · rcases hm.task_cases htask with hold | ⟨w', phase, conn, hphase, hwork, htaskconn⟩
      · exact htasks₀ w task hold hsock
      · rw [hsock] at hwork
        rw [htaskconn, hwork₀ w' phase conn hphase hwork]
  · -- the connection is new: there is no work for the descriptor at all
    obtain ⟨hnowork, hnotasks⟩ := hclear hfree _ hopen
    refine ⟨fun w phase conn hphase hwork => ?_, fun w task htask hsock => ?_⟩
    · rcases hm.work_cases hphase hwork with ⟨phase₀, hold, hw⟩ | ⟨_, _, _, _, _, _, hfd⟩
      · exact absurd hw (hnowork w phase₀ conn hold)
      · cases hfree.symm.trans hfd
    · rcases hm.task_cases htask with hold | ⟨w', phase, conn, hphase, hwork, _⟩
      · exact absurd hsock (hnotasks w task hold)
      · rw [hsock] at hwork
        exact absurd hwork (hnowork w' phase conn hphase)

end FlowView

end CmdTran
