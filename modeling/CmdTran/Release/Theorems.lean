import CmdTran.Release.Basic

/-!
# When a dead connection is released

Only the end of the stream releases a connection. An error that comes with `EPOLLIN` or `EPOLLOUT` leaves
it as it is, and an event with neither bit forgets its socket.
-/

namespace CmdTran

open Server

variable {ω : Type} {env : World ω} {listenSocket fd : Nat}

/-! ## The watched recv task is that of the server -/

section Watched

variable {s : Watched ω}

theorem toServer_processRecvData (s : Watched ω) (reads : List ReadResult) :
    (s.processRecvData env fd reads).toServer = s.toServer.processRecvData env fd reads := by
  induction reads generalizing s with
  | nil => rfl
  | cons r reads ih =>
      simp only [Watched.processRecvData, Server.processRecvData]
      cases s.kernel.fds fd with
      | none => rfl
      | some conn =>
          cases r with
          | failed => rfl
          | data buff =>
              dsimp only
              split
              · rfl
              · exact ih _

theorem toServer_processRecvEnts (hne : fd ≠ listenSocket) (s : Watched ω) (ev : ConnEvent)
    (connfd : Option Nat) (added : Bool) :
    (s.processRecvEnts env fd ev).toServer =
      s.toServer.processRecvEnts env listenSocket ⟨fd, ev.epollin, ev.epollout⟩
        ⟨connfd, added, ev.reads⟩ := by
  unfold Watched.processRecvEnts Server.processRecvEnts
  rw [if_neg hne]
  split
  · exact toServer_processRecvData s ev.reads
  · split <;> rfl

end Watched

/-! ## What leaves a descriptor alone -/

/-- The descriptor is open as before, and registered as before. -/
structure LeavesAlone (fd : Nat) (s s' : Server ω) : Prop where
  fds : s'.kernel.fds fd = s.kernel.fds fd
  client : fd ∈ s'.clientMap ↔ fd ∈ s.clientMap
  socket : fd ∈ s'.socketInfo ↔ fd ∈ s.socketInfo

namespace LeavesAlone

variable {s s' s'' : Server ω}

theorem refl (s : Server ω) : LeavesAlone fd s s := ⟨rfl, Iff.rfl, Iff.rfl⟩

theorem trans (h : LeavesAlone fd s s') (h' : LeavesAlone fd s' s'') : LeavesAlone fd s s'' :=
  ⟨h'.fds.trans h.fds, h'.client.trans h.client, h'.socket.trans h.socket⟩

theorem of_quiet (h : Quiet s s') : LeavesAlone fd s s' :=
  ⟨by rw [h.fds], h.mem_clientMap fd, h.mem_socketInfo fd⟩

theorem of_get (hfds : s'.kernel.fds fd = s.kernel.fds fd)
    (hclient : s'.clientMap[fd]? = s.clientMap[fd]?)
    (hsocket : s'.socketInfo[fd]? = s.socketInfo[fd]?) : LeavesAlone fd s s' := by
  refine ⟨hfds, ?_, ?_⟩
  · rw [Std.TreeMap.mem_iff_isSome_getElem?, Std.TreeMap.mem_iff_isSome_getElem?, hclient]
  · rw [Std.TreeMap.mem_iff_isSome_getElem?, Std.TreeMap.mem_iff_isSome_getElem?, hsocket]

theorem hangUp {k : Nat} (hk : k ≠ fd) (s : Server ω) : LeavesAlone fd s (s.hangUp k) := by
  apply of_get
  · exact (Kernel.fds_close s.kernel k fd).trans (if_neg hk.symm)
  · exact (get_quitClient (s.close k) k fd).trans (if_neg hk)
  · rfl

theorem eof {k : Nat} (hk : k ≠ fd) (s : Server ω) : LeavesAlone fd s (s.eof env k) := by
  refine (hangUp hk s).trans (of_get ?_ ?_ ?_)
  · rw [Server.eof, removeSocket_kernel]
    rfl
  · rw [Server.eof, removeSocket_clientMap]
    rfl
  · exact (get_removeSocket (s.hangUp k) env k fd).trans (if_neg hk)

theorem acceptClient {connfd : Option Nat} (hfd : connfd ≠ some fd) (s : Server ω) (added : Bool) :
    LeavesAlone fd s (s.acceptClient connfd added) := by
  cases connfd with
  | none => exact refl s
  | some k =>
      have hk : k ≠ fd := fun heq => hfd (congrArg some heq)
      have haccept : (s.kernel.accept k).fds fd = s.kernel.fds fd :=
        (Kernel.fds_accept s.kernel k fd).trans (if_neg hk.symm)
      cases added with
      | false =>
          exact of_get (((Kernel.fds_close _ k fd).trans (if_neg hk.symm)).trans haccept) rfl rfl
      | true =>
          exact of_get haccept ((get_insertIfNew _ _ _ _).trans (if_neg hk))
            ((get_insertIfNew _ _ _ _).trans (if_neg hk))

/-- Any handler that is not about the connection leaves it alone. -/
theorem of_step {a : Handler} (hconcerns : ¬a.Concerns listenSocket fd) (hrejects : ¬a.RejectsLogin fd s)
    (h : a.step env listenSocket s = some s') : LeavesAlone fd s s' := by
  cases a with
  | event ev answers =>
      obtain ⟨hfd, haccept⟩ := not_or.mp hconcerns
      simp only [Handler.step] at h
      split at h
      · cases h
      · cases h
        unfold processRecvEnts
        split
        · rename_i hlisten
          exact acceptClient (fun heq => haccept ⟨hlisten, heq⟩) s answers.added
        · split
          · obtain ⟨s₁, hquiet, hgo | ⟨_, heof⟩⟩ := processRecvData_spec env s ev.fd answers.reads
            · rw [hgo]
              exact of_quiet hquiet
            · rw [heof]
              exact (of_quiet hquiet).trans (eof hfd s₁)
          · split
            · exact of_quiet (quiet_writable s ev.fd)
            · exact hangUp hfd s
  | frame task =>
      cases h
      by_cases hrej : s.Rejected task.sock task.frame
      · have hsock : task.sock ≠ fd := fun heq => hrejects ⟨heq, hrej⟩
        exact (hangUp hsock s).trans (of_quiet (frameTask_rejected hrej))
      · exact of_quiet (quiet_frameTask hrej)
  | sendData sock buffer len backfun =>
      cases h
      exact of_quiet (quiet_sendData _ _ _ _ _ _)
  | sendTask sock results =>
      cases h
      exact of_quiet (quiet_sendTask _ _ _)

end LeavesAlone

/-! ## The phases of a connection -/

/-- Open and registered, and never closed. -/
structure Alive (fd : Nat) (s : Watched ω) : Prop where
  live : Live fd s.toServer
  closeCalls : s.closeCalls = 0

/-- Closed, and either its socket is still there or it was closed once more. -/
structure Lost (fd : Nat) (s : Watched ω) : Prop where
  closed : s.kernel.fds fd = none
  late : fd ∈ s.socketInfo ∨ 2 ≤ s.closeCalls

section Events

variable {s : Watched ω}

theorem Lost.not_released (h : Lost fd s) : ¬Released fd s := by
  intro hrel
  rcases h.late with hsock | htwice
  · exact hrel.socket hsock
  · rw [hrel.closed.1] at htwice
    exact absurd htwice (by decide)

theorem Alive.not_released (h : Alive fd s) : ¬Released fd s := fun hrel =>
  h.live.isOpen hrel.closed.2

theorem Alive.of_leavesAlone (h : Alive fd s) {s' : Server ω} (hs : LeavesAlone fd s.toServer s') :
    Alive fd ⟨s', s.closeCalls⟩ :=
  ⟨⟨by rw [hs.fds]; exact h.live.isOpen, hs.client.mpr h.live.client, hs.socket.mpr h.live.socket⟩,
    h.closeCalls⟩

theorem Released.of_leavesAlone (h : Released fd s) {s' : Server ω}
    (hs : LeavesAlone fd s.toServer s') : Released fd ⟨s', s.closeCalls⟩ :=
  ⟨⟨h.closed.1, hs.fds.trans h.closed.2⟩, fun hin => h.client (hs.client.mp hin),
    fun hin => h.socket (hs.socket.mp hin)⟩

theorem Lost.of_leavesAlone (h : Lost fd s) {s' : Server ω} (hs : LeavesAlone fd s.toServer s')
    {n : Nat} (hn : s.closeCalls ≤ n) : Lost fd ⟨s', n⟩ :=
  ⟨hs.fds.trans h.closed, h.late.imp hs.socket.mpr fun htwice => Nat.le_trans htwice hn⟩

theorem processRecvData_closed (h : s.kernel.fds fd = none) (reads : List ReadResult) :
    s.processRecvData env fd reads = s := by
  cases reads with
  | nil => rfl
  | cons r reads =>
      simp only [Watched.processRecvData]
      rw [h]

/-- The reads are quiet up to the end of the stream, and then the connection is released. -/
theorem processRecvData_open (env : World ω) {conn : Conn} (h : s.kernel.fds fd = some conn)
    (reads : List ReadResult) :
    ∃ s₁ : Server ω, Quiet s.toServer s₁ ∧ s.processRecvData env fd reads =
      if endsStream reads then (⟨s₁, s.closeCalls⟩ : Watched ω).eof env fd else ⟨s₁, s.closeCalls⟩ := by
  induction reads generalizing s with
  | nil => exact ⟨s.toServer, Quiet.refl _, rfl⟩
  | cons r reads ih =>
      simp only [Watched.processRecvData, h]
      cases r with
      | failed => exact ⟨s.toServer, Quiet.refl _, rfl⟩
      | data buff =>
          by_cases hempty : buff.bytes.length = 0
          · refine ⟨s.toServer, Quiet.refl _, ?_⟩
            simp only [endsStream, hempty, decide_true, Bool.true_or, if_true]
          · let s₁ : Server ω := { s.toServer with log := s.log ++ [.received conn buff.bytes] }
            have hlog : Quiet s.toServer s₁ := by
              refine ⟨rfl, rfl, fun _ => rfl, fun _ => rfl,
                fun _ info h => ⟨info, h, Grown.refl _ info⟩,
                ⟨[.received conn buff.bytes], rfl, ?_⟩, fun _ _ h => Or.inl h⟩
              intro e he
              rw [List.mem_singleton.mp he]
              exact trivial
            have hread : Quiet s.toServer (s₁.addRecvData env fd buff).1 :=
              hlog.trans (quiet_addRecvData s₁ h buff)
            obtain ⟨s₂, hquiet, heq⟩ := ih
              (s := ⟨(s₁.addRecvData env fd buff).1, s.closeCalls⟩) (by rw [hread.fds]; exact h)
            refine ⟨s₂, hread.trans hquiet, ?_⟩
            simp only [endsStream, hempty, decide_false, Bool.false_or, if_false]
            exact heq

theorem Alive.eof (h : Alive fd s) : Released fd (s.eof env fd) := by
  have hkernel : (s.eof env fd).kernel.fds fd = none := by
    rw [Watched.eof, removeSocket_kernel]
    exact (Kernel.fds_close s.kernel fd fd).trans (if_pos rfl)
  have hclient : (s.eof env fd).clientMap[fd]? = none := by
    rw [Watched.eof, removeSocket_clientMap]
    exact (get_quitClient (s.toServer.close fd) fd fd).trans (if_pos rfl)
  have hsocket : (s.eof env fd).socketInfo[fd]? = none :=
    (get_removeSocket ((s.toServer.close fd).quitClient fd) env fd fd).trans (if_pos rfl)
  refine ⟨⟨congrArg Nat.succ h.closeCalls, hkernel⟩, ?_, ?_⟩
  · rw [Std.TreeMap.mem_iff_isSome_getElem?, hclient]
    exact Bool.false_ne_true
  · rw [Std.TreeMap.mem_iff_isSome_getElem?, hsocket]
    exact Bool.false_ne_true

theorem kernel_hangUp (s : Watched ω) : (s.hangUp fd).kernel.fds fd = none :=
  (Kernel.fds_close s.kernel fd fd).trans (if_pos rfl)

theorem Alive.hangUp (h : Alive fd s) : Lost fd (s.hangUp fd) :=
  ⟨kernel_hangUp s, Or.inl h.live.socket⟩

theorem Released.hangUp (h : Released fd s) : Lost fd (s.hangUp fd) :=
  ⟨kernel_hangUp s, Or.inr (Nat.le_of_eq (congrArg Nat.succ h.closed.1).symm)⟩

theorem Lost.hangUp (h : Lost fd s) : Lost fd (s.hangUp fd) :=
  ⟨kernel_hangUp s, h.late.imp_right Nat.le_succ_of_le⟩

end Events

/-! ## One step -/

section Steps

variable {s s' : Watched ω} {a : ConnStep}

/-- The rejected login closes the descriptor and keeps the socket. -/
theorem rejectsLogin_step {h : Handler} {t t' : Server ω} (hrejects : h.RejectsLogin fd t)
    (hs : h.step env listenSocket t = some t') :
    t'.kernel.fds fd = none ∧ (fd ∈ t'.socketInfo ↔ fd ∈ t.socketInfo) := by
  cases h with
  | frame task =>
      obtain ⟨rfl, hrej⟩ := hrejects
      cases hs
      have halone : LeavesAlone task.sock (t.hangUp task.sock) (t.frameTask env task) :=
        .of_quiet (frameTask_rejected hrej)
      exact ⟨halone.fds.trans ((Kernel.fds_close t.kernel _ _).trans (if_pos rfl)), halone.socket⟩
  | event ev answers => exact hrejects.elim
  | sendData sock buffer len backfun => exact hrejects.elim
  | sendTask sock results => exact hrejects.elim

/-- A handler of the rest of the server, seen from the connection. -/
theorem other_step {h : Handler} (hs : (ConnStep.other h).step env listenSocket fd s = some s') :
    (¬h.RejectsLogin fd s.toServer ∧ LeavesAlone fd s.toServer s'.toServer ∧
        s'.closeCalls = s.closeCalls) ∨
      (h.RejectsLogin fd s.toServer ∧ s'.kernel.fds fd = none ∧
        (fd ∈ s'.socketInfo ↔ fd ∈ s.socketInfo) ∧ s'.closeCalls = s.closeCalls + 1) := by
  simp only [ConnStep.step] at hs
  split at hs
  · cases hs
  · rename_i hconcerns
    obtain ⟨t, ht, rfl⟩ := Option.map_eq_some_iff.mp hs
    by_cases hrejects : h.RejectsLogin fd s.toServer
    · obtain ⟨hfds, hsock⟩ := rejectsLogin_step hrejects ht
      exact Or.inr ⟨hrejects, hfds, hsock, by rw [if_pos hrejects]⟩
    · exact Or.inl ⟨hrejects, LeavesAlone.of_step hconcerns hrejects ht, by rw [if_neg hrejects]; rfl⟩

theorem Lost.step (h : Lost fd s) (hs : a.step env listenSocket fd s = some s') : Lost fd s' := by
  cases a with
  | event ev =>
      cases hs
      unfold Watched.processRecvEnts
      split
      · rw [processRecvData_closed h.closed]
        exact h
      · split
        · exact h.of_leavesAlone (.of_quiet (quiet_writable s.toServer fd)) (Nat.le_refl _)
        · exact h.hangUp
  | other handler =>
      rcases other_step hs with ⟨_, halone, hcalls⟩ | ⟨_, hfds, hsock, hcalls⟩
      · exact h.of_leavesAlone halone (Nat.le_of_eq hcalls.symm)
      · refine ⟨hfds, h.late.imp hsock.mpr ?_⟩
        rw [hcalls]
        exact Nat.le_succ_of_le

theorem Released.step (h : Released fd s) (hs : a.step env listenSocket fd s = some s') :
    (a.Careful fd s ∧ Released fd s') ∨ (¬a.Careful fd s ∧ Lost fd s') := by
  cases a with
  | event ev =>
      cases hs
      unfold Watched.processRecvEnts
      split
      · rename_i hin
        rw [processRecvData_closed h.closed.2]
        exact Or.inl ⟨Or.inl hin, h⟩
      · rename_i hin
        split
        · rename_i hout
          exact Or.inl ⟨Or.inr hout, h.of_leavesAlone (.of_quiet (quiet_writable s.toServer fd))⟩
        · rename_i hout
          exact Or.inr ⟨not_or.mpr ⟨hin, hout⟩, h.hangUp⟩
  | other handler =>
      rcases other_step hs with ⟨hok, halone, hcalls⟩ | ⟨hrejects, hfds, _, hcalls⟩
      · have hrel := h.of_leavesAlone halone
        rw [← hcalls] at hrel
        exact Or.inl ⟨hok, hrel⟩
      · refine Or.inr ⟨fun hok => hok hrejects, hfds, Or.inr ?_⟩
        rw [hcalls, h.closed.1]

theorem Alive.step (h : Alive fd s) (hs : a.step env listenSocket fd s = some s') :
    (a.Careful fd s ∧ ¬a.EndsStream ∧ Alive fd s') ∨ (a.Careful fd s ∧ a.EndsStream ∧ Released fd s') ∨
      (¬a.Careful fd s ∧ Lost fd s') := by
  cases a with
  | event ev =>
      cases hs
      unfold Watched.processRecvEnts
      split
      · rename_i hin
        obtain ⟨conn, hconn⟩ := Option.ne_none_iff_exists'.mp h.live.isOpen
        obtain ⟨s₁, hquiet, heq⟩ := processRecvData_open env hconn ev.reads
        have halive := h.of_leavesAlone (.of_quiet hquiet)
        rw [heq]
        split
        · rename_i hends
          exact Or.inr (Or.inl ⟨Or.inl hin, ⟨hin, hends⟩, halive.eof⟩)
        · rename_i hends
          exact Or.inl ⟨Or.inl hin, fun hboth => hends hboth.2, halive⟩
      · rename_i hin
        have hends : ¬(ConnStep.event ev).EndsStream := fun hboth => hin hboth.1
        split
        · rename_i hout
          exact Or.inl ⟨Or.inr hout, hends,
            h.of_leavesAlone (.of_quiet (quiet_writable s.toServer fd))⟩
        · rename_i hout
          exact Or.inr (Or.inr ⟨not_or.mpr ⟨hin, hout⟩, h.hangUp⟩)
  | other handler =>
      rcases other_step hs with ⟨hok, halone, hcalls⟩ | ⟨hrejects, hfds, hsock, _⟩
      · have halive := h.of_leavesAlone halone
        rw [← hcalls] at halive
        exact Or.inl ⟨hok, id, halive⟩
      · exact Or.inr (Or.inr ⟨fun hok => hok hrejects, hfds, Or.inl (hsock.mpr h.live.socket)⟩)

end Steps

/-! ## Every life of a connection -/

section Runs

variable {s₀ : Server ω} {s s' : Watched ω} {steps : List ConnStep}

theorem Lost.run (h : Lost fd s) (hrun : (connection env listenSocket fd s₀).run s steps = some s') :
    ¬Released fd s' :=
  ((connection env listenSocket fd s₀).run_invariant (fun _ _ _ h hs => h.step hs) h hrun).not_released

theorem Released.run (h : Released fd s)
    (hrun : (connection env listenSocket fd s₀).run s steps = some s') :
    Released fd s' ↔ (connection env listenSocket fd s₀).Meets (ConnStep.Careful fd) s steps := by
  induction steps generalizing s with
  | nil =>
      cases hrun
      exact iff_of_true h trivial
  | cons a steps ih =>
      obtain ⟨s₁, hs₁, hrest⟩ := StepSystem.run_cons_eq_some _ |>.mp hrun
      rcases h.step hs₁ with ⟨hok, hrel⟩ | ⟨hbad, hlost⟩
      · rw [ih hrel hrest, StepSystem.meets_cons _ hs₁]
        exact (and_iff_right hok).symm
      · exact iff_of_false (hlost.run hrest) fun hmeets => hbad hmeets.1

theorem Alive.run (h : Alive fd s)
    (hrun : (connection env listenSocket fd s₀).run s steps = some s') :
    Released fd s' ↔ StreamEnds steps ∧
      (connection env listenSocket fd s₀).Meets (ConnStep.Careful fd) s steps := by
  induction steps generalizing s with
  | nil =>
      cases hrun
      refine iff_of_false h.not_released ?_
      rintro ⟨⟨a, hin, _⟩, _⟩
      cases hin
  | cons a steps ih =>
      obtain ⟨s₁, hs₁, hrest⟩ := StepSystem.run_cons_eq_some _ |>.mp hrun
      rcases h.step hs₁ with ⟨hok, hgoes, halive⟩ | ⟨hok, hends, hrel⟩ | ⟨hbad, hlost⟩
      · rw [ih halive hrest, StepSystem.meets_cons _ hs₁, and_iff_right hok]
        apply and_congr_left'
        constructor
        · rintro ⟨b, hin, hb⟩
          exact ⟨b, List.mem_cons_of_mem a hin, hb⟩
        · rintro ⟨b, hin, hb⟩
          rcases List.mem_cons.mp hin with rfl | hin
          · exact absurd hb hgoes
          · exact ⟨b, hin, hb⟩
      · rw [hrel.run hrest, StepSystem.meets_cons _ hs₁, and_iff_right hok]
        exact (and_iff_right ⟨a, List.mem_cons_self, hends⟩).symm
      · exact iff_of_false (hlost.run hrest) fun hboth => hbad hboth.2.1

end Runs

/-- A connection is released exactly when the end of its stream is read, no event of it comes with
neither bit and no login of it is rejected. -/
theorem released_iff (env : World ω) (listenSocket : Nat) {fd : Nat} {s₀ : Server ω}
    (hlive : Live fd s₀) {steps : List ConnStep} {s : Watched ω}
    (hrun : (connection env listenSocket fd s₀).run (connection env listenSocket fd s₀).start steps =
      some s) :
    Released fd s ↔ StreamEnds steps ∧ (connection env listenSocket fd s₀).Meets
      (ConnStep.Careful fd) (connection env listenSocket fd s₀).start steps :=
  Alive.run ⟨hlive, rfl⟩ hrun

/-! ## A reset -/

/-- The server when the connection at 5 has been accepted. -/
def accepted5 : Server Unit := (Server.start ()).acceptClient (some 5) true

theorem live_accepted5 : Live 5 accepted5 := by
  have hclient : accepted5.clientMap[5]? = some ⟨5, -1, 0, Parser.new, 0, true, 0⟩ :=
    get_insertIfNew _ _ _ _
  have hsocket : accepted5.socketInfo[5]? = some (.new 5 0) := get_insertIfNew _ _ _ _
  refine ⟨?_, ?_, ?_⟩
  · exact Option.some_ne_none 0
  · rw [Std.TreeMap.mem_iff_isSome_getElem?, hclient]
    rfl
  · rw [Std.TreeMap.mem_iff_isSome_getElem?, hsocket]
    rfl

/-- The stream ends and the kernel reports it. -/
theorem released_iff_eof :
    ∃ s, (connection plentiful 3 5 accepted5).run (connection plentiful 3 5 accepted5).start
        [.event ⟨true, true, false, [.data ⟨[], by decide⟩]⟩] = some s ∧
      (Released 5 s ↔ StreamEnds [.event ⟨true, true, false, [.data ⟨[], by decide⟩]⟩] ∧
        (connection plentiful 3 5 accepted5).Meets (ConnStep.Careful 5)
          (connection plentiful 3 5 accepted5).start
          [.event ⟨true, true, false, [.data ⟨[], by decide⟩]⟩]) :=
  ⟨_, rfl, released_iff plentiful 3 live_accepted5 rfl⟩

/-- The peer resets the connection: the read fails, and nothing else is ever reported. -/
def resetStep : ConnStep := .event ⟨true, true, true, [.failed]⟩

theorem not_released_reset :
    ∃ s, (connection plentiful 3 5 accepted5).run (connection plentiful 3 5 accepted5).start
        [resetStep] = some s ∧ Ended [resetStep] ∧ ¬Released 5 s := by
  refine ⟨_, rfl, Or.inr ⟨_, List.mem_singleton_self _, rfl⟩, ?_⟩
  intro hrel
  have hopen := hrel.closed.2
  cases hopen

end CmdTran
