import CmdTran.Server.System

/-!
# Registration

The two tables agree as long as no handler closes a registered descriptor and leaves its socket
behind, and output stays with its connection as long as no descriptor comes back whose socket was
left behind with something in it.
-/

namespace CmdTran

open Server

variable {ω : Type} {env : World ω} {listenSocket : Nat}

/-! ## The tables -/

/-- Both tables have the same keys, and each key is the descriptor of a connection that was accepted
and has not been closed. -/
structure Agree (s : Server ω) : Prop where
  same : ∀ k : Nat, k ∈ s.clientMap ↔ k ∈ s.socketInfo
  live : ∀ k : Nat, k ∈ s.clientMap → ∃ conn, s.kernel.fds k = some conn

theorem Server.Quiet.agree_iff {s s' : Server ω} (h : Quiet s s') : Agree s' ↔ Agree s := by
  constructor
  · rintro ⟨hsame, hlive⟩
    refine ⟨fun k => ?_, fun k hk => ?_⟩
    · rw [← h.mem_clientMap, ← h.mem_socketInfo]
      exact hsame k
    · rw [← h.fds]
      exact hlive k ((h.mem_clientMap k).mpr hk)
  · rintro ⟨hsame, hlive⟩
    refine ⟨fun k => ?_, fun k hk => ?_⟩
    · rw [h.mem_clientMap, h.mem_socketInfo]
      exact hsame k
    · rw [h.fds]
      exact hlive k ((h.mem_clientMap k).mp hk)

theorem agree_start (w : ω) : Agree (Server.start w) := by
  refine ⟨fun k => ?_, fun k hk => ?_⟩
  · simp [Server.start]
  · simp [Server.start] at hk

theorem Agree.accepted {s : Server ω} (h : Agree s) (fd : Nat) (conn : Conn) :
    Agree ((({ s with kernel := s.kernel.accept fd }).insertSocket fd conn).addClient fd conn) := by
  refine ⟨fun k => ?_, fun k hk => ?_⟩
  · simp only [addClient, insertSocket, Std.TreeMap.mem_insertIfNew, h.same]
  · simp only [addClient, insertSocket, Std.TreeMap.mem_insertIfNew,
      compare_eq_iff_eq] at hk ⊢
    rw [Kernel.fds_accept]
    split
    · exact ⟨_, rfl⟩
    · rename_i hne
      rcases hk with heq | hk
      · exact absurd heq.symm hne
      · exact h.live k hk

theorem Agree.refused {s : Server ω} (h : Agree s) {fd : Nat} (hfree : s.kernel.fds fd = none) :
    Agree (({ s with kernel := s.kernel.accept fd }).close fd) := by
  refine ⟨h.same, fun k hk => ?_⟩
  obtain ⟨conn, hconn⟩ := h.live k hk
  refine ⟨conn, ?_⟩
  rw [close_kernel, Kernel.fds_close, Kernel.fds_accept]
  by_cases heq : k = fd
  · rw [heq, hfree] at hconn
    cases hconn
  · rw [if_neg heq, if_neg heq, hconn]

theorem Agree.eof {s : Server ω} (h : Agree s) (fd : Nat) : Agree (s.eof env fd) := by
  have hclient : ∀ k : Nat, k ∈ (s.eof env fd).clientMap ↔ fd ≠ k ∧ k ∈ s.clientMap := by
    intro k
    simp only [Server.eof, removeSocket_clientMap, quitClient, close, Std.TreeMap.mem_erase, ne_eq,
      compare_eq_iff_eq]
  have hsocket : ∀ k : Nat, k ∈ (s.eof env fd).socketInfo ↔ fd ≠ k ∧ k ∈ s.socketInfo := by
    intro k
    rw [mem_socketInfo, mem_socketInfo, Server.eof, get_removeSocket]
    by_cases heq : fd = k
    · simp [heq]
    · simp [heq, quitClient, close]
  refine ⟨fun k => ?_, fun k hk => ?_⟩
  · rw [hclient, hsocket, h.same]
  · obtain ⟨hne, hk⟩ := (hclient k).mp hk
    obtain ⟨conn, hconn⟩ := h.live k hk
    refine ⟨conn, ?_⟩
    rw [Server.eof, removeSocket_kernel, quitClient_kernel, close_kernel, Kernel.fds_close,
      if_neg (Ne.symm hne)]
    exact hconn

theorem mem_hangUp_clientMap {s : Server ω} {fd k : Nat} :
    k ∈ (s.hangUp fd).clientMap ↔ fd ≠ k ∧ k ∈ s.clientMap := by
  simp only [hangUp, quitClient, close, Std.TreeMap.mem_erase, ne_eq, compare_eq_iff_eq]

theorem Agree.hangUp_iff {s : Server ω} (h : Agree s) (fd : Nat) :
    Agree (s.hangUp fd) ↔ fd ∉ s.socketInfo := by
  constructor
  · rintro ⟨hsame, _⟩ hmem
    have hgone := (hsame fd).mpr hmem
    exact (mem_hangUp_clientMap.mp hgone).1 rfl
  · intro hno
    refine ⟨fun k => ?_, fun k hk => ?_⟩
    · rw [mem_hangUp_clientMap, h.same]
      constructor
      · exact fun hk => hk.2
      · intro hk
        refine ⟨?_, hk⟩
        rintro rfl
        exact hno hk
    · obtain ⟨hne, hk⟩ := mem_hangUp_clientMap.mp hk
      obtain ⟨conn, hconn⟩ := h.live k hk
      refine ⟨conn, ?_⟩
      rw [hangUp, quitClient_kernel, close_kernel, Kernel.fds_close, if_neg (Ne.symm hne)]
      exact hconn

theorem agree_step {s s' : Server ω} {a : Handler} (h : Agree s)
    (hstep : a.step env listenSocket s = some s') :
    ¬a.Forgets listenSocket s ↔ Agree s' := by
  cases effect_of_step hstep with
  | quiet hquiet _ hforgets => exact iff_of_true hforgets (hquiet.agree_iff.mpr h)
  | accepted fd _ _ hforgets hstate =>
      rw [hstate]
      exact iff_of_true hforgets (h.accepted fd _)
  | refused fd hfree _ hforgets hstate =>
      rw [hstate]
      exact iff_of_true hforgets (h.refused hfree)
  | eof fd s₁ hquiet _ hforgets hstate =>
      rw [hstate]
      exact iff_of_true hforgets ((hquiet.agree_iff.mpr h).eof fd)
  | hangUp fd hquiet _ hforgets hkept =>
      rw [hquiet.agree_iff, h.hangUp_iff]
      refine not_congr ⟨hforgets, fun hmem => ?_⟩
      exact hkept ((h.same fd).mpr hmem) hmem

/-- In a run of handlers the tables agree after every handler exactly when none of them forgets a
socket. -/
theorem agree_iff_meets (env : World ω) (listenSocket : Nat) (w : ω) {as : List Handler}
    {s : Server ω} (hrun : (handlers env listenSocket w).run (Server.start w) as = some s) :
    (∀ done s', done <+: as →
        (handlers env listenSocket w).run (Server.start w) done = some s' → Agree s') ↔
      (handlers env listenSocket w).Meets (fun s a => ¬a.Forgets listenSocket s) (Server.start w)
        as :=
  (handlers env listenSocket w).meets_iff_invariant (fun _ _ _ h hstep => agree_step h hstep)
    (agree_start w) hrun

def acceptFive : Handler := .event ⟨3, true, false⟩ ⟨some 5, true, []⟩

/-- The end of the stream at the descriptor 5. -/
def eofFive : Handler := .event ⟨5, true, true⟩ ⟨none, false, [.data ⟨[], Nat.zero_le readBuffLen⟩]⟩

def hangUpFive : Handler := .event ⟨5, false, false⟩ ⟨none, false, []⟩

theorem agree_iff_meets_eof :
    ∃ s, (handlers plentiful 3 ()).run (Server.start ()) [acceptFive, eofFive] = some s ∧
      ((∀ done s', done <+: [acceptFive, eofFive] →
          (handlers plentiful 3 ()).run (Server.start ()) done = some s' → Agree s') ↔
        (handlers plentiful 3 ()).Meets (fun s a => ¬a.Forgets 3 s) (Server.start ())
          [acceptFive, eofFive]) :=
  ⟨_, rfl, agree_iff_meets plentiful 3 () rfl⟩

theorem not_agree_hangUp :
    ∃ s, (handlers plentiful 3 ()).run (Server.start ()) [acceptFive, hangUpFive] = some s ∧
      ¬Agree s :=
  ⟨_, rfl, fun h => absurd ((h.same 5).mpr (by decide)) (by decide)⟩

/-! ## Output -/

structure Idle (info : Socket) : Prop where
  chain : info.outputChain = []
  state : info.currSendState = .allow
  read : info.enableRead = true

/-- What was sent to a connection was handed over after it was accepted. -/
def SentAfterAccept (log : List Event) : Prop :=
  ∀ conn made bytes, Event.sent conn made bytes ∈ log → conn < made

/-- What waits to be sent to a connection was handed over after it was accepted, too. -/
structure Fresh (s : Server ω) : Prop where
  accepted : ∀ fd conn, s.kernel.fds fd = some conn → conn < s.kernel.accepted
  chain : ∀ (fd : Nat) conn info, s.kernel.fds fd = some conn → s.socketInfo[fd]? = some info →
    ∀ node ∈ info.outputChain, conn < node.tag
  log : SentAfterAccept s.log

/-- After an accept that succeeds, the socket at its descriptor is as a new one. -/
def AcceptsIdle (listenSocket : Nat) (a : Handler) (s' : Server ω) : Prop :=
  ∀ fd, a.accepts listenSocket = some fd → ∃ info, s'.socketInfo[fd]? = some info ∧ Idle info

/-- The descriptor of an accept has no socket left behind, or one that is as new. -/
def FindsIdle (listenSocket : Nat) (s : Server ω) (a : Handler) : Prop :=
  ∀ fd info, a.accepts listenSocket = some fd → s.socketInfo[fd]? = some info → Idle info

theorem fresh_start (w : ω) : Fresh (Server.start w) := by
  refine ⟨fun fd conn h => ?_, fun fd conn info h => ?_, fun conn made bytes h => ?_⟩
  · cases h
  · cases h
  · cases h

theorem Fresh.quiet {s s' : Server ω} (h : Fresh s) (hquiet : Quiet s s') : Fresh s' := by
  obtain ⟨events, hlog, hwritten⟩ := hquiet.log
  refine ⟨fun fd conn hfd => ?_, fun fd conn info' hfd hinfo' node hnode => ?_,
    fun conn made bytes hsent => ?_⟩
  · rw [hquiet.accepted]
    rw [hquiet.fds] at hfd
    exact h.accepted fd conn hfd
  · rw [hquiet.fds] at hfd
    obtain ⟨info, hinfo, hgrown⟩ := hquiet.socket fd info' hinfo'
    rcases hgrown node hnode with ⟨old, hold, htag⟩ | hnew
    · rw [← htag]
      exact h.chain fd conn info hfd hinfo old hold
    · rw [hnew]
      exact h.accepted fd conn hfd
  · rw [hlog] at hsent
    rcases List.mem_append.mp hsent with hsent | hsent
    · exact h.log conn made bytes hsent
    · obtain ⟨fd, info, hfd, hinfo, hmade⟩ := hwritten _ hsent
      rcases hmade with ⟨node, hnode, rfl⟩ | hnew
      · exact h.chain fd conn info hfd hinfo node hnode
      · rw [hnew]
        exact h.accepted fd conn hfd

/-- Nothing is opened, and the sockets are those that were there. -/
theorem Fresh.closed {s s' : Server ω} (h : Fresh s)
    (hfds : ∀ fd conn, s'.kernel.fds fd = some conn → s.kernel.fds fd = some conn)
    (haccepted : s.kernel.accepted ≤ s'.kernel.accepted)
    (hsocket : ∀ (fd : Nat) info, s'.socketInfo[fd]? = some info → s.socketInfo[fd]? = some info)
    (hlog : s'.log = s.log) : Fresh s' := by
  refine ⟨fun fd conn hfd => ?_, fun fd conn info hfd hinfo => ?_, ?_⟩
  · exact Nat.lt_of_lt_of_le (h.accepted fd conn (hfds fd conn hfd)) haccepted
  · exact h.chain fd conn info (hfds fd conn hfd) (hsocket fd info hinfo)
  · rw [hlog]
    exact h.log

theorem fds_of_close {k : Kernel} {fd n : Nat} {conn : Conn}
    (h : (k.close fd).fds n = some conn) : k.fds n = some conn := by
  rw [Kernel.fds_close] at h
  split at h
  · cases h
  · exact h

theorem Fresh.eof {s : Server ω} (h : Fresh s) (fd : Nat) : Fresh (s.eof env fd) := by
  refine h.closed (fun n conn hn => ?_) ?_ (fun n info hn => ?_) ?_
  · rw [Server.eof, removeSocket_kernel] at hn
    exact fds_of_close hn
  · rw [Server.eof, removeSocket_kernel]
    exact Nat.le_refl _
  · rw [Server.eof, get_removeSocket] at hn
    split at hn
    · cases hn
    · exact hn
  · rw [Server.eof, removeSocket_log]
    rfl

theorem Fresh.accept {s : Server ω} (h : Fresh s) {fd : Nat}
    (hidle : ∀ info, s.socketInfo[fd]? = some info → Idle info) :
    Fresh ((({ s with kernel := s.kernel.accept fd }).insertSocket fd s.kernel.accepted).addClient
      fd s.kernel.accepted) := by
  refine ⟨fun n conn hn => ?_, fun n conn info hn hinfo => ?_, h.log⟩
  · change (s.kernel.accept fd).fds n = some conn at hn
    change conn < s.kernel.accepted + 1
    rw [Kernel.fds_accept] at hn
    split at hn
    · cases hn
      exact Nat.lt_succ_self _
    · exact Nat.lt_succ_of_lt (h.accepted n conn hn)
  · change (s.kernel.accept fd).fds n = some conn at hn
    change (Server.insertSocket _ fd s.kernel.accepted).socketInfo[n]? = some info at hinfo
    rw [Kernel.fds_accept] at hn
    rw [get_insertSocket] at hinfo
    by_cases heq : n = fd
    · subst heq
      rw [if_pos rfl] at hinfo
      cases hold : s.socketInfo[n]? with
      | none =>
          rw [hold] at hinfo
          cases hinfo
          intro node hnode
          cases hnode
      | some old =>
          rw [hold] at hinfo
          cases hinfo
          intro node hnode
          change node ∈ old.outputChain at hnode
          rw [(hidle old hold).chain] at hnode
          cases hnode
    · rw [if_neg heq] at hn
      rw [if_neg (Ne.symm heq)] at hinfo
      exact h.chain n conn info hn hinfo

theorem fresh_step {s s' : Server ω} {a : Handler} (h : Fresh s)
    (hstep : a.step env listenSocket s = some s') (hok : FindsIdle listenSocket s a) :
    AcceptsIdle listenSocket a s' ∧ Fresh s' := by
  have hother (hnone : a.accepts listenSocket = none) : AcceptsIdle listenSocket a s' := by
    intro fd hfd
    rw [hnone] at hfd
    cases hfd
  cases effect_of_step hstep with
  | quiet hquiet haccepts _ => exact ⟨hother haccepts, h.quiet hquiet⟩
  | accepted fd _ haccepts _ hstate =>
      have hidle := fun info hinfo => hok fd info haccepts hinfo
      rw [hstate]
      refine ⟨fun n hn => ?_, h.accept hidle⟩
      rw [haccepts] at hn
      cases hn
      refine ⟨_, by rw [addClient]; exact (get_insertSocket _ _ _ _).trans (if_pos rfl), ?_⟩
      change Idle (s.socketInfo[fd]?.getD (.new fd s.kernel.accepted))
      cases hold : s.socketInfo[fd]? with
      | none => exact ⟨rfl, rfl, rfl⟩
      | some info => exact hidle info hold
  | refused fd hfree haccepts _ hstate =>
      refine ⟨hother haccepts, ?_⟩
      rw [hstate]
      refine h.closed (fun n conn hn => ?_) (Nat.le_succ _) (fun _ _ hn => hn) rfl
      rw [close_kernel, Kernel.fds_close, Kernel.fds_accept] at hn
      split at hn
      · cases hn
      · exact hn
  | eof fd s₁ hquiet haccepts _ hstate =>
      rw [hstate]
      refine ⟨?_, (h.quiet hquiet).eof fd⟩
      rw [← hstate]
      exact hother haccepts
  | hangUp fd hquiet haccepts _ _ =>
      have hclosed : Fresh (s.hangUp fd) :=
        h.closed (fun _ _ hn => fds_of_close hn) (Nat.le_refl _) (fun _ _ hn => hn) rfl
      exact ⟨hother haccepts, hclosed.quiet hquiet⟩

/-- An accept that finds something left behind keeps it. -/
theorem findsIdle_of_acceptsIdle {s s' : Server ω} {a : Handler}
    (hstep : a.step env listenSocket s = some s') (h : AcceptsIdle listenSocket a s') :
    FindsIdle listenSocket s a := by
  intro fd info haccepts hinfo
  obtain ⟨info', hinfo', hidle⟩ := h fd haccepts
  cases effect_of_step hstep with
  | quiet _ hnone _ => rw [hnone] at haccepts; cases haccepts
  | refused _ _ hnone _ _ => rw [hnone] at haccepts; cases haccepts
  | eof _ _ _ hnone _ _ => rw [hnone] at haccepts; cases haccepts
  | hangUp _ _ hnone _ _ => rw [hnone] at haccepts; cases haccepts
  | accepted n _ hn _ hstate =>
      rw [hn] at haccepts
      cases haccepts
      rw [hstate] at hinfo'
      have hkept := (get_insertSocket { s with kernel := s.kernel.accept fd } fd fd
        s.kernel.accepted).symm.trans hinfo'
      rw [if_pos rfl] at hkept
      change some ((s.socketInfo[fd]?).getD _) = some info' at hkept
      rw [hinfo] at hkept
      cases hkept
      exact hidle

theorem Agree.findsIdle {s s' : Server ω} (h : Agree s) {a : Handler}
    (hstep : a.step env listenSocket s = some s') : FindsIdle listenSocket s a := by
  intro fd info haccepts hinfo
  have hmem : fd ∈ s.clientMap := by
    rw [h.same, mem_socketInfo, hinfo]
    rfl
  obtain ⟨conn, hconn⟩ := h.live fd hmem
  cases effect_of_step hstep with
  | quiet _ hnone _ => rw [hnone] at haccepts; cases haccepts
  | refused _ _ hnone _ _ => rw [hnone] at haccepts; cases haccepts
  | eof _ _ _ hnone _ _ => rw [hnone] at haccepts; cases haccepts
  | hangUp _ _ hnone _ _ => rw [hnone] at haccepts; cases haccepts
  | accepted n hfree hn _ _ =>
      rw [hn] at haccepts
      cases haccepts
      rw [hfree] at hconn
      cases hconn

/-- In a run of handlers, output stays with its connection and every accept finds a socket as new
exactly when no descriptor comes back whose socket was left behind otherwise; in particular when no
handler forgets a socket. -/
theorem sentAfterAccept_iff_meets (env : World ω) (listenSocket : Nat) (w : ω) {as : List Handler}
    {s : Server ω} (hrun : (handlers env listenSocket w).run (Server.start w) as = some s) :
    ((∀ done a s₁ s₂, done ++ [a] <+: as →
        (handlers env listenSocket w).run (Server.start w) done = some s₁ →
        (handlers env listenSocket w).step s₁ a = some s₂ →
        SentAfterAccept s₂.log ∧ AcceptsIdle listenSocket a s₂) ↔
      (handlers env listenSocket w).Meets (FindsIdle listenSocket) (Server.start w) as) ∧
    ((handlers env listenSocket w).Meets (fun s a => ¬a.Forgets listenSocket s) (Server.start w) as →
      (handlers env listenSocket w).Meets (FindsIdle listenSocket) (Server.start w) as) := by
  constructor
  · apply (handlers env listenSocket w).meets_iff_forall_steps
      (fun _ a s' => SentAfterAccept s'.log ∧ AcceptsIdle listenSocket a s') _ _ (fresh_start w) hrun
    · intro s a s' h hstep hok
      obtain ⟨hidle, hfresh⟩ := fresh_step h hstep hok
      exact ⟨⟨hfresh.log, hidle⟩, hfresh⟩
    · intro s a s' _ hstep hgood
      exact findsIdle_of_acceptsIdle hstep hgood.2
  · intro hmeets
    apply hmeets.imp _ _ (agree_start w) hrun
    intro s a s' h hok hstep
    exact ⟨(agree_step h hstep).mp hok, h.findsIdle hstep⟩

/-- Two connections, one after the other, that both have the descriptor 5 and are sent a byte. -/
def reuseFive : List Handler :=
  [acceptFive, .sendData 5 [42] 1 false, .sendTask 5 [.took 1], eofFive,
    acceptFive, .sendData 5 [43] 1 false, .sendTask 5 [.took 1]]

theorem sentAfterAccept_iff_meets_reuse :
    ∃ s, (handlers plentiful 3 ()).run (Server.start ()) reuseFive = some s ∧
      .sent 0 1 [42] ∈ s.log ∧ .sent 1 2 [43] ∈ s.log ∧
      ∀ done a s₁ s₂, done ++ [a] <+: reuseFive →
        (handlers plentiful 3 ()).run (Server.start ()) done = some s₁ →
        (handlers plentiful 3 ()).step s₁ a = some s₂ →
        SentAfterAccept s₂.log ∧ AcceptsIdle 3 a s₂ := by
  have hmeets : (handlers plentiful 3 ()).Meets (fun s a => ¬a.Forgets 3 s) (Server.start ())
      reuseFive := by
    decide +kernel
  have hrun : (handlers plentiful 3 ()).run (Server.start ()) reuseFive = some _ := rfl
  obtain ⟨hiff, hkeeps⟩ := sentAfterAccept_iff_meets plentiful 3 () hrun
  exact ⟨_, rfl, by decide +kernel, by decide +kernel, hiff.mpr (hkeeps hmeets)⟩

/-- The byte 42 is handed over for the first connection at the descriptor 5 and sent to the second. -/
theorem not_sentAfterAccept_hangUp :
    ∃ s, (handlers plentiful 3 ()).run (Server.start ())
        [acceptFive, .sendData 5 [42] 1 false, hangUpFive, acceptFive, .sendTask 5 [.took 1]] = some s ∧
      ¬SentAfterAccept s.log := by
  refine ⟨_, rfl, fun h => ?_⟩
  have hsent := h 1 1 [42] (by decide +kernel)
  exact absurd hsent (by decide)

end CmdTran
