import CmdTran.Server.Theorems
import CmdTran.Workers.Lemmas.Local

/-!
# Frames and connections

A queued frame names a descriptor and not a connection. As long as no accept gives out a descriptor
that a queued frame still has, each frame acts on the connection that sent it, or on none.
-/

namespace CmdTran

open Server

variable {ω : Type} {env : World ω} {listenSocket : Nat}

/-! ## Effects -/

/-- The step changes entries and descriptors of `conn` only, and what it sends is an acknowledgement
to `conn` or a picture of `conn` to those who watch its camera. -/
structure OwnEffect (conn : Conn) (s s' : Server ω) : Prop where
  clients : ∀ k : Nat, s'.clientMap[k]? = s.clientMap[k]? ∨ s.owner k = some conn
  fds : ∀ k, s'.kernel.fds k = s.kernel.fds k ∨ s.kernel.fds k = some conn
  readable : ∀ k, s'.kernel.readable k = s.kernel.readable k ∨ s.kernel.fds k = some conn
  reading : ∀ k : Nat, (s'.socketInfo[k]?).map SocketInformation.enableRead =
    (s.socketInfo[k]?).map SocketInformation.enableRead ∨ s.kernel.fds k = some conn
  log : ∃ events, s'.log = s.log ++ events ∧ ∀ e ∈ events, OwnOutput s conn e

/-- The task of a frame acts on the connection that sent it while that is open, and after that not at
all. -/
def ActsOnOwn (task : CFrameProcTask) (s s' : Server ω) : Prop :=
  ∃ conn, task.conn = some conn ∧
    ((∃ k, s.kernel.fds k = some conn) → OwnEffect conn s s') ∧
    ((∀ k, s.kernel.fds k ≠ some conn) → NoEffect s s')

/-! ## The invariant -/

/-- The descriptor of a task leads to its connection, or nowhere when that is gone. -/
def Leads (s : Server ω) (task : CFrameProcTask) : Prop :=
  ∃ conn, task.conn = some conn ∧ conn < s.kernel.accepted ∧
    (s.kernel.fds task.sock = some conn ∨
      s.kernel.fds task.sock = none ∧ ∀ k, s.kernel.fds k ≠ some conn)

structure Tracked (s : Server ω) : Prop where
  owner : ∀ k, s.owner k = s.kernel.fds k
  accepted : ∀ k conn, s.kernel.fds k = some conn → conn < s.kernel.accepted
  inj : ∀ k k' conn, s.kernel.fds k = some conn → s.kernel.fds k' = some conn → k = k'
  tasks : ∀ w, ∀ task ∈ s.frameTasks w, Leads s task

theorem tracked_start (w : ω) : Tracked (Server.start w) := by
  refine ⟨fun k => ?_, fun k conn h => ?_, fun k k' conn h _ => ?_, fun w task h => ?_⟩
  · simp [Server.owner, Server.start, Kernel.start]
  · cases h
  · cases h
  · cases h

theorem Tracked.quiet {s s' : Server ω} (h : Tracked s) (hquiet : Quiet s s') : Tracked s' := by
  have hleads {task : CFrameProcTask} (ht : Leads s task) : Leads s' task := by
    unfold Leads
    rw [hquiet.fds, hquiet.accepted]
    exact ht
  refine ⟨fun k => ?_, ?_, ?_, fun w task htask => ?_⟩
  · rw [hquiet.owner, hquiet.fds]
    exact h.owner k
  · rw [hquiet.fds, hquiet.accepted]
    exact h.accepted
  · rw [hquiet.fds]
    exact h.inj
  · rcases hquiet.tasks w task htask with hold | ⟨conn, hconn, hopen⟩
    · exact hleads (h.tasks w task hold)
    · exact hleads ⟨conn, hconn, h.accepted _ _ hopen, Or.inl hopen⟩

theorem Tracked.closed {s s' : Server ω} (h : Tracked s) (fd : Nat)
    (hfds : ∀ k, s'.kernel.fds k = if k = fd then none else s.kernel.fds k)
    (hclients : ∀ k : Nat, s'.owner k = if k = fd then none else s.owner k)
    (haccepted : s.kernel.accepted ≤ s'.kernel.accepted) (htasks : s'.frameTasks = s.frameTasks) :
    Tracked s' := by
  have hback {k : Nat} {conn : Conn} (hk : s'.kernel.fds k = some conn) :
      k ≠ fd ∧ s.kernel.fds k = some conn := by
    rw [hfds] at hk
    split at hk
    · cases hk
    · exact ⟨‹_›, hk⟩
  refine ⟨fun k => ?_, fun k conn hk => ?_, fun k k' conn hk hk' => ?_, fun w task htask => ?_⟩
  · rw [hclients, hfds, h.owner]
  · exact Nat.lt_of_lt_of_le (h.accepted k conn (hback hk).2) haccepted
  · exact h.inj k k' conn (hback hk).2 (hback hk').2
  · rw [htasks] at htask
    obtain ⟨conn, hconn, hlt, hcase⟩ := h.tasks w task htask
    refine ⟨conn, hconn, Nat.lt_of_lt_of_le hlt haccepted, ?_⟩
    rcases hcase with hopen | ⟨hnone, hgone⟩
    · by_cases heq : task.sock = fd
      · refine Or.inr ⟨by rw [hfds, if_pos heq], fun k hk => ?_⟩
        obtain ⟨hne, hk⟩ := hback hk
        exact hne ((h.inj _ _ _ hk hopen).trans heq)
      · rw [hfds, if_neg heq]
        exact Or.inl hopen
    · refine Or.inr ⟨?_, fun k hk => hgone k (hback hk).2⟩
      rw [hfds, hnone, ite_self]

theorem Tracked.accept {s : Server ω} (h : Tracked s) {fd : Nat} (hfree : s.kernel.fds fd = none)
    (hkeeps : ∀ w, ∀ task ∈ s.frameTasks w, task.sock ≠ fd) :
    Tracked ((({ s with kernel := s.kernel.accept fd }).insertSocket fd
      s.kernel.accepted).addClient fd s.kernel.accepted) := by
  have hnew {k : Nat} {conn : Conn} (hk : (s.kernel.accept fd).fds k = some conn) :
      (k = fd ∧ conn = s.kernel.accepted) ∨ (k ≠ fd ∧ s.kernel.fds k = some conn) := by
    rw [Kernel.fds_accept] at hk
    split at hk
    · cases hk
      exact Or.inl ⟨‹_›, rfl⟩
    · exact Or.inr ⟨‹_›, hk⟩
  refine ⟨fun k => ?_, fun k conn hk => ?_, fun k k' conn hk hk' => ?_, fun w task htask => ?_⟩
  · have hnone : s.clientMap[fd]? = none := by
      have howner := h.owner fd
      rw [hfree] at howner
      exact Option.map_eq_none_iff.mp howner
    change _ = (s.kernel.accept fd).fds k
    rw [Server.owner, get_addClient, Kernel.fds_accept]
    change Option.map _ (if fd = k then some ((s.clientMap[fd]?).getD _) else s.clientMap[k]?) = _
    by_cases heq : k = fd
    · subst heq
      rw [if_pos rfl, if_pos rfl, hnone]
      rfl
    · rw [if_neg heq, if_neg (Ne.symm heq)]
      exact h.owner k
  · change conn < s.kernel.accepted + 1
    rcases hnew hk with ⟨_, rfl⟩ | ⟨_, hold⟩
    · exact Nat.lt_succ_self _
    · exact Nat.lt_succ_of_lt (h.accepted k conn hold)
  · rcases hnew hk with ⟨rfl, rfl⟩ | ⟨_, hold⟩
    · rcases hnew hk' with ⟨rfl, _⟩ | ⟨_, hold'⟩
      · rfl
      · exact absurd (h.accepted _ _ hold') (Nat.lt_irrefl _)
    · rcases hnew hk' with ⟨_, rfl⟩ | ⟨_, hold'⟩
      · exact absurd (h.accepted _ _ hold) (Nat.lt_irrefl _)
      · exact h.inj _ _ _ hold hold'
  · obtain ⟨conn, hconn, hlt, hcase⟩ := h.tasks w task htask
    have hne := hkeeps w task htask
    refine ⟨conn, hconn, Nat.lt_succ_of_lt hlt, ?_⟩
    change (s.kernel.accept fd).fds task.sock = some conn ∨
      (s.kernel.accept fd).fds task.sock = none ∧ ∀ k, (s.kernel.accept fd).fds k ≠ some conn
    rw [Kernel.fds_accept, if_neg hne]
    rcases hcase with hopen | ⟨hnone, hgone⟩
    · exact Or.inl hopen
    · refine Or.inr ⟨hnone, fun k hk => ?_⟩
      rcases hnew hk with ⟨_, rfl⟩ | ⟨_, hold⟩
      · exact Nat.lt_irrefl _ hlt
      · exact hgone k hold

theorem Tracked.hangUp {s : Server ω} (h : Tracked s) (fd : Nat) : Tracked (s.hangUp fd) :=
  h.closed fd (fun _ => Kernel.fds_close _ _ _) (owner_quitClient _ fd) (Nat.le_refl _) rfl

theorem Tracked.eof {s : Server ω} (h : Tracked s) (fd : Nat) : Tracked (s.eof env fd) := by
  apply h.closed fd
  · intro k
    rw [Server.eof, removeSocket_kernel]
    exact Kernel.fds_close _ _ _
  · intro k
    unfold Server.owner
    rw [Server.eof, removeSocket_clientMap]
    exact owner_quitClient _ fd k
  · rw [Server.eof, removeSocket_kernel]
    exact Nat.le_refl _
  · rw [Server.eof, removeSocket_frameTasks]
    rfl

theorem tracked_handler {s s' : Server ω} {a : Handler} (h : Tracked s)
    (hstep : a.step env listenSocket s = some s')
    (hkeeps : ∀ fd w, a.accepts listenSocket = some fd → ∀ task ∈ s.frameTasks w, task.sock ≠ fd) :
    Tracked s' := by
  cases effect_of_step hstep with
  | quiet hquiet _ _ => exact h.quiet hquiet
  | accepted fd hfree haccepts _ hstate =>
      rw [hstate]
      exact h.accept hfree fun w => hkeeps fd w haccepts
  | refused fd hfree _ _ hstate =>
      rw [hstate]
      apply h.closed fd
      · intro k
        rw [close_kernel, Kernel.fds_close, Kernel.fds_accept]
        split <;> rfl
      · intro k
        split
        · rename_i heq
          rw [heq]
          exact (h.owner fd).trans hfree
        · rfl
      · exact Nat.le_succ _
      · rfl
  | eof fd s₁ hquiet _ _ hstate =>
      rw [hstate]
      exact (h.quiet hquiet).eof fd
  | hangUp fd hquiet _ _ _ => exact (h.hangUp fd).quiet hquiet

/-! ## The jobs -/

theorem quiet_popFrame (s : Server ω) (w : Nat) : Quiet s (s.popFrame w) := by
  refine ⟨rfl, rfl, fun _ => rfl, fun _ => rfl, fun _ info h => ⟨info, h, Grown.refl _ info⟩,
    ⟨[], by simp [popFrame], by simp⟩, fun w' task htask => ?_⟩
  change task ∈ Function.update s.frameTasks w (s.frameTasks w).tail w' at htask
  rw [Function.update_apply] at htask
  split at htask
  · rename_i heq
    rw [heq]
    exact Or.inl (List.mem_of_mem_tail htask)
  · exact Or.inl htask

theorem tracked_job {s s' : Server ω} {job : Job} (h : Tracked s)
    (hstep : job.step env listenSocket s = some s') (hkeeps : KeepsFrames listenSocket s job) :
    Tracked s' := by
  cases job with
  | deliver ev =>
      cases hstep
      exact h.quiet (Quiet.of_eq rfl rfl rfl rfl rfl rfl)
  | recv w answers =>
      obtain ⟨ev, hev, hstep⟩ := Option.bind_eq_some_iff.mp hstep
      have hpop : Tracked (s.popRecv w) := h.quiet (Quiet.of_eq rfl rfl rfl rfl rfl rfl)
      apply tracked_handler hpop hstep
      intro fd w' haccepts
      apply hkeeps fd w'
      rw [Job.accepts, hev]
      exact haccepts
  | frame w =>
      obtain ⟨task, _, hstep⟩ := Option.bind_eq_some_iff.mp hstep
      apply tracked_handler (h.quiet (quiet_popFrame s w)) hstep
      intro fd w' haccepts
      cases haccepts
  | send w results =>
      obtain ⟨sock, _, hstep⟩ := Option.bind_eq_some_iff.mp hstep
      have hpop : Tracked (s.popSend w) := h.quiet (Quiet.of_eq rfl rfl rfl rfl rfl rfl)
      apply tracked_handler hpop hstep
      intro fd w' haccepts
      cases haccepts

theorem Server.Local.ownEffect {s s' : Server ω} {n : Nat} {conn : Conn}
    (h : Local n (OwnOutput s conn) s s') (howner : s.owner n = some conn)
    (hopen : s.kernel.fds n = some conn) : OwnEffect conn s s' := by
  refine ⟨fun k => ?_, fun k => ?_, fun k => ?_, fun k => ?_, h.log⟩
  · by_cases hk : k = n
    · exact Or.inr (hk ▸ howner)
    · exact Or.inl (h.clients k hk)
  · by_cases hk : k = n
    · exact Or.inr (hk ▸ hopen)
    · exact Or.inl (h.fds k hk)
  · by_cases hk : k = n
    · exact Or.inr (hk ▸ hopen)
    · exact Or.inl (h.readable k hk)
  · by_cases hk : k = n
    · exact Or.inr (hk ▸ hopen)
    · exact Or.inl (h.reading k hk)

/-- While tasks lead to their connections, a frame acts on the one that sent it. -/
theorem Tracked.actsOnOwn {s : Server ω} (h : Tracked s) {task : CFrameProcTask}
    (hleads : Leads s task) : ActsOnOwn task s (s.frameTask env task) := by
  obtain ⟨conn, hconn, _, hcase⟩ := hleads
  refine ⟨conn, hconn, fun hex => ?_, fun hall => ?_⟩
  · rcases hcase with hopen | ⟨_, hgone⟩
    · have howner : s.owner task.sock = some conn := (h.owner task.sock).trans hopen
      obtain ⟨phone, hphone, hown⟩ := Option.map_eq_some_iff.mp howner
      exact (local_frameTask hopen hphone hown hconn).ownEffect howner hopen
    · obtain ⟨k, hk⟩ := hex
      exact absurd hk (hgone k)
  · rcases hcase with hopen | ⟨hnone, _⟩
    · exact absurd hopen (hall task.sock)
    · apply noEffect_frameTask hnone
      have howner := (h.owner task.sock).trans hnone
      exact Option.map_eq_none_iff.mp howner

/-- In a run of the workers in which no accept gives out a descriptor that a queued frame still has,
each frame that a worker takes acts on the connection that sent it, or on none when that is gone. -/
theorem actsOnOwn_of_meets (env : World ω) (listenSocket : Nat) (w : ω) {jobs : List Job}
    (hmeets : (workers env listenSocket w).Meets (KeepsFrames listenSocket) (Server.start w) jobs)
    {done : List Job} {n : Nat} {s s' : Server ω} {task : CFrameProcTask}
    (hdone : done ++ [.frame n] <+: jobs)
    (hrun : (workers env listenSocket w).run (Server.start w) done = some s)
    (htask : (s.frameTasks n).head? = some task)
    (hstep : (workers env listenSocket w).step s (.frame n) = some s') :
    ActsOnOwn task (s.popFrame n) s' := by
  have hgood := StepSystem.Meets.forall_steps (workers env listenSocket w)
    (fun s job s' => ∀ n task, job = .frame n → (s.frameTasks n).head? = some task →
      ActsOnOwn task (s.popFrame n) s')
    (fun s job s' h hstep hkeeps => by
      refine ⟨?_, tracked_job h hstep hkeeps⟩
      rintro n task rfl htask
      obtain ⟨task', htask', hstep⟩ := Option.bind_eq_some_iff.mp hstep
      cases htask.symm.trans htask'
      cases hstep
      have hleads := h.tasks n task (List.mem_of_mem_head? htask)
      exact (h.quiet (quiet_popFrame s n)).actsOnOwn hleads)
    hmeets (tracked_start w) done (.frame n) s s' hdone hrun hstep
  exact hgood n task rfl htask

/-- A login of the type 0xA5 comes from the descriptor 5, which is then closed (`closes`) or not. -/
def loginJobs (closes : Bool) : List Job :=
  [.deliver ⟨3, true, false⟩, .recv 3 ⟨some 5, true, []⟩, .deliver ⟨5, true, false⟩,
    .recv 1 ⟨none, false, .data ⟨[0x7E, 0, 5, 0, 0xA5], by decide⟩ ::
      if closes then [.data ⟨[], Nat.zero_le readBuffLen⟩] else []⟩]

def reuseJobs : List Job := [.deliver ⟨3, true, false⟩, .recv 3 ⟨some 5, true, []⟩]

theorem actsOnOwn_of_meets_login :
    ∃ s s' task, (workers plentiful 3 ()).run (Server.start ()) (loginJobs false) = some s ∧
      (s.frameTasks 1).head? = some task ∧
      (workers plentiful 3 ()).step s (.frame 1) = some s' ∧ ActsOnOwn task (s.popFrame 1) s' := by
  have hmeets : (workers plentiful 3 ()).Meets (KeepsFrames 3) (Server.start ())
      (loginJobs false ++ [.frame 1]) := by
    refine ⟨?_, fun _ h₁ => ⟨?_, fun _ h₂ => ⟨?_, fun _ h₃ => ⟨?_, fun _ _ => ⟨?_, ?_⟩⟩⟩⟩⟩
    · intro fd w h
      cases h
    · cases h₁
      intro fd w _ task htask
      cases htask
    · intro fd w h
      cases h
    · cases h₁
      cases h₂
      cases h₃
      intro fd w h
      cases h
    · intro fd w h
      cases h
    · exact fun _ _ => trivial
  have hrun : ((workers plentiful 3 ()).run (Server.start ()) (loginJobs false)).any
      (fun s => (s.frameTasks 1).head?.any fun task =>
        ((workers plentiful 3 ()).step s (.frame 1)).isSome) = true := by
    decide +kernel
  obtain ⟨s, hs, htask⟩ := (Option.any_eq_true _ _).mp hrun
  obtain ⟨task, htask, hstep⟩ := (Option.any_eq_true _ _).mp htask
  obtain ⟨s', hstep⟩ := Option.isSome_iff_exists.mp hstep
  exact ⟨s, s', task, hs, htask, hstep,
    actsOnOwn_of_meets plentiful 3 () hmeets (List.prefix_refl _) hs htask hstep⟩

theorem not_actsOnOwn_of_closed {s s' : Server ω} {task : CFrameProcTask} {conn other : Conn} {k : Nat}
    (htask : task.conn = some conn) (hne : other ≠ conn) (hopen : s.kernel.fds k = some other)
    (hclosed : s'.kernel.fds k = none) : ¬ActsOnOwn task s s' := by
  rintro ⟨c, hc, hown, hnone⟩
  cases htask.symm.trans hc
  by_cases hex : ∃ k, s.kernel.fds k = some conn
  · rcases (hown hex).fds k with hsame | hown
    · rw [hsame, hopen] at hclosed
      cases hclosed
    · cases hopen.symm.trans hown
      exact hne rfl
  · have hkept := (hnone fun k hk => hex ⟨k, hk⟩).kernel
    rw [hkept, hopen] at hclosed
    cases hclosed

/-- The login of the first connection closes the second one. -/
theorem not_actsOnOwn_reuse :
    ∃ s s' task, (workers plentiful 3 ()).run (Server.start ()) (loginJobs true ++ reuseJobs) = some s ∧
      (s.frameTasks 1).head? = some task ∧
      (workers plentiful 3 ()).step s (.frame 1) = some s' ∧ ¬ActsOnOwn task (s.popFrame 1) s' := by
  have hrun : ((workers plentiful 3 ()).run (Server.start ()) (loginJobs true ++ reuseJobs)).any
      (fun s => (s.frameTasks 1).head?.any fun task =>
        ((workers plentiful 3 ()).step s (.frame 1)).any fun s' =>
          task.conn = some 0 ∧ s.kernel.fds 5 = some 1 ∧ s'.kernel.fds 5 = none) = true := by
    decide +kernel
  obtain ⟨s, hs, htask⟩ := (Option.any_eq_true _ _).mp hrun
  obtain ⟨task, htask, hstep⟩ := (Option.any_eq_true _ _).mp htask
  obtain ⟨s', hstep, hfacts⟩ := (Option.any_eq_true _ _).mp hstep
  obtain ⟨hconn, hbefore, hafter⟩ := of_decide_eq_true hfacts
  exact ⟨s, s', task, hs, htask, hstep, not_actsOnOwn_of_closed hconn (by decide) hbefore hafter⟩

end CmdTran
