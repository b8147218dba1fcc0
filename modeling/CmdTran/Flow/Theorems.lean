import CmdTran.Flow.Lemmas.Switch

/-!
# Flow control over whole runs

A client whose reading is off has frames pending that will switch it on again, as long as its
descriptor carries no work of an earlier connection. Counts stay in their range, and reading that is
off holds back the peer, on a condition.
-/

namespace CmdTran

open Server

variable {ω : Type} {env : World ω} {listenSocket : Nat}

/-! ## A descriptor that is read -/

/-- A frame with a command that the server does not know. -/
def oneFrame : ReadBuff := ⟨[0x7E, 0x00, 0x05, 0x02, 0xA5], by decide⟩

/-- A connection is accepted on descriptor 5, and its worker begins to read. -/
def connectFive : List FlowStep :=
  [.deliver ⟨3, true, false⟩, .recv (workerOf 3) (some 5) true .failed, .deliver ⟨5, true, false⟩,
    .recv (workerOf 5) none false .failed]

/-- A step of the worker of descriptor 5; a read gets one frame. -/
def callStep : FlowStep := .recv (workerOf 5) none false (.data oneFrame)

/-- A frame is queued and counted, and counted down. -/
def frameSteps : List FlowStep :=
  connectFive ++ List.replicate 4 callStep ++ List.replicate 3 (.frame (workerOf 5))

/-! ## A peer that does not stop -/

theorem scan_oneFrame : frameScanner.scan oneFrame.bytes = ([oneFrame.bytes], []) :=
  frameScanner.scan_single (by decide)

theorem call_oneFrame {p : Parser} (h : p.state.pending = []) (pool : Unit) :
    (∃ t, (p.call plentiful.getBuff pool oneFrame).queued = [t]) ∧
      (p.call plentiful.getBuff pool oneFrame).frameCount = 1 ∧
      (p.next plentiful.getBuff pool oneFrame).state.pending = [] := by
  obtain ⟨_, hscan⟩ := p.call_spec plentiful.getBuff pool oneFrame
  rw [h, List.nil_append] at hscan
  have hframes : framesOf oneFrame.bytes = [oneFrame.bytes] := congrArg Prod.fst scan_oneFrame
  have hrest : restOf oneFrame.bytes = [] := congrArg Prod.snd scan_oneFrame
  have hqueued := hscan.queued
  have hcount := hscan.frameCount
  rw [hframes] at hqueued hcount
  exact ⟨⟨_, hqueued⟩, hcount, hscan.pending.trans hrest⟩

/-- The client of descriptor 5 has counted `n` frames, each of one read, and its worker is in `phase`. -/
structure Flooded (n : Nat) (phase : RecvPhase) (s : Flow Unit) : Prop where
  phase : s.recv (workerOf 5) = some phase
  opened : s.server.kernel.fds 5 = some 0
  client : ∃ client, s.server.clientMap[5]? = some client ∧ client.frameRestruct.state.pending = [] ∧
    client.counted = ⟨0, n, decide ((n : Int) ≤ flowControlHigh)⟩

theorem flooded_connectFive : ∃ s, (flows plentiful 3 ()).run (Flow.start ()) connectFive = some s ∧
    Flooded 0 (.reading 5) s :=
  ⟨_, rfl, rfl, rfl, _, rfl, rfl, rfl⟩

namespace Flooded

variable {n : Nat} {s : Flow Unit}

theorem read (h : Flooded n (.reading 5) s) :
    ∃ s', (flows plentiful 3 ()).step s callStep = some s' ∧
      Flooded n (.received 5 0 oneFrame) s' := by
  have hstep : (flows plentiful 3 ()).step s callStep =
      some (s.readOnce plentiful (workerOf 5) 5 (.data oneFrame)) := by
    simp only [flows, Flow.step, callStep, Flow.recvStep, h.phase]
  have hread : s.readOnce plentiful (workerOf 5) 5 (.data oneFrame) =
      s.setRecv (workerOf 5) { s.server with log := s.server.log ++ [.received 0 oneFrame.bytes] }
        (some (.received 5 0 oneFrame)) := by
    simp only [Flow.readOnce, h.opened]
    exact if_neg (by decide)
  refine ⟨_, hstep, ?_⟩
  rw [hread]
  exact ⟨Flow.recv_setRecv _ _ _ _, h.opened, h.client⟩

theorem restruct (h : Flooded n (.received 5 0 oneFrame) s) :
    ∃ s' t, (flows plentiful 3 ()).step s callStep = some s' ∧
      Flooded n (.queueing 5 0 [t] 1) s' := by
  obtain ⟨client, hclient, hpending, hcounted⟩ := h.client
  obtain ⟨⟨t, hqueued⟩, hcount, hnext⟩ := call_oneFrame hpending s.server.world
  have hstep : (flows plentiful 3 ()).step s callStep =
      some (s.restruct plentiful (workerOf 5) 5 0 oneFrame) := by
    simp only [flows, Flow.step, callStep, Flow.recvStep, h.phase]
  refine ⟨_, t, hstep, ?_⟩
  simp only [Flow.restruct, hclient, hqueued, hcount]
  refine ⟨Flow.recv_setRecv _ _ _ _, h.opened, _, (get_insert _ _ _ _).trans (if_pos rfl), hnext, ?_⟩
  exact hcounted

theorem queue {t : Block × Int} (h : Flooded n (.queueing 5 0 [t] 1) s) :
    ∃ s', (flows plentiful 3 ()).step s callStep = some s' ∧
      Flooded n (.queueing 5 0 [] 1) s' := by
  have hstep : (flows plentiful 3 ()).step s callStep = some (s.setRecv (workerOf 5)
      (Flow.queueFrame s.server 5 0 t) (some (.queueing 5 0 [] 1))) := by
    simp only [flows, Flow.step, callStep, Flow.recvStep, h.phase]
  exact ⟨_, hstep, Flow.recv_setRecv _ _ _ _, h.opened, h.client⟩

theorem increase (n : Nat) : (⟨0, n, decide ((n : Int) ≤ flowControlHigh)⟩ : FlowClient).increase 1 =
    ⟨0, (n + 1 : Nat), decide (((n + 1 : Nat) : Int) ≤ flowControlHigh)⟩ := by
  have hon : (if (n : Int) + 1 > flowControlHigh ∧ decide ((n : Int) ≤ flowControlHigh) = true then
      false else decide ((n : Int) ≤ flowControlHigh)) = decide ((n : Int) + 1 ≤ flowControlHigh) := by
    by_cases hle : (n : Int) + 1 ≤ flowControlHigh
    · rw [if_neg (by omega), decide_eq_true hle]
      exact decide_eq_true (by omega)
    · rw [decide_eq_false hle]
      split
      · rfl
      · rename_i hnot
        exact decide_eq_false fun hn => hnot ⟨by omega, decide_eq_true hn⟩
  exact congrArg (FlowClient.mk 0 _) hon

theorem count (h : Flooded n (.queueing 5 0 [] 1) s) :
    ∃ s', (flows plentiful 3 ()).step s callStep = some s' ∧ Flooded (n + 1) (.reading 5) s' := by
  obtain ⟨client, hclient, hpending, hcounted⟩ := h.client
  have hstep : (flows plentiful 3 ()).step s callStep = some (s.setRecv (workerOf 5)
      (s.server.increaseFrameCount plentiful 5 1).1 (some (.reading 5))) := by
    simp only [flows, Flow.step, callStep, Flow.recvStep, h.phase]
  obtain ⟨client', hclient', hrestruct, hcounted'⟩ := get_increaseFrameCount plentiful hclient 1
  have hfds : (s.server.increaseFrameCount plentiful 5 1).1.kernel.fds = s.server.kernel.fds :=
    congrArg ServerView.fds (seen_increaseFrameCount s.server 5 1)
  refine ⟨_, hstep, Flow.recv_setRecv _ _ _ _, ?_, client', hclient', ?_, ?_⟩
  · exact (congrFun hfds 5).trans h.opened
  · rw [hrestruct]
    exact hpending
  · rw [hcounted', hcounted]
    exact increase n

theorem off {phase : RecvPhase} (h : Flooded n phase s) (hmany : flowControlHigh < n) :
    ∃ client, s.server.clientMap[5]? = some client ∧ client.enableRead = false ∧
      client.frameCount = (n : Int) := by
  obtain ⟨client, hclient, _, hcounted⟩ := h.client
  have hoff : decide ((n : Int) ≤ flowControlHigh) = false := decide_eq_false (by omega)
  rw [hoff] at hcounted
  exact ⟨client, hclient, congrArg FlowClient.enableRead hcounted, congrArg FlowClient.frameCount hcounted⟩

theorem on {phase : RecvPhase} (h : Flooded n phase s) (hfew : n ≤ flowControlHigh) {client : ClientInfo}
    (hclient : s.server.clientMap[5]? = some client) : client.enableRead = true := by
  obtain ⟨client', hclient', _, hcounted⟩ := h.client
  cases hclient.symm.trans hclient'
  rw [decide_eq_true hfew] at hcounted
  exact congrArg FlowClient.enableRead hcounted

theorem round (h : Flooded n (.reading 5) s) :
    ∃ s', (flows plentiful 3 ()).run s (List.replicate 4 callStep) = some s' ∧
      Flooded (n + 1) (.reading 5) s' := by
  obtain ⟨s₁, h₁, hread⟩ := h.read
  obtain ⟨s₂, t, h₂, hrestruct⟩ := hread.restruct
  obtain ⟨s₃, h₃, hqueue⟩ := hrestruct.queue
  obtain ⟨s₄, h₄, hcount⟩ := hqueue.count
  refine ⟨s₄, ?_, hcount⟩
  simp only [List.replicate_succ, List.replicate_zero, StepSystem.run_cons, StepSystem.run_nil, h₁, h₂,
    h₃, h₄, Option.bind_some]

end Flooded

/-- `n` reads of one frame each, while the frame worker does nothing. -/
def flood (n : Nat) : List FlowStep := connectFive ++ List.replicate (4 * n) callStep

theorem flooded_run (n : Nat) :
    ∃ s, (flows plentiful 3 ()).run (Flow.start ()) (flood n) = some s ∧ Flooded n (.reading 5) s := by
  induction n with
  | zero => exact flooded_connectFive
  | succ n ih =>
      obtain ⟨s, hrun, hflooded⟩ := ih
      obtain ⟨s', hround, hnext⟩ := hflooded.round
      refine ⟨s', ?_, hnext⟩
      rw [flood, Nat.mul_succ, List.replicate_add, ← List.append_assoc, StepSystem.run_append]
      rw [flood] at hrun
      rw [hrun]
      exact hround

/-- The guard `ok` holds through the flood when it holds at each read, and at a step that is none. -/
theorem meets_flood {ok : Flow Unit → FlowStep → Prop} (n : Nat)
    (hconnect : (flows plentiful 3 ()).Meets ok (Flow.start ()) connectFive)
    (hread : ∀ k s, k < n → Flooded k (.reading 5) s → ok s callStep)
    (hother : ∀ s, (∀ fd, s.recv (workerOf 5) ≠ some (.reading fd)) → ok s callStep) :
    (flows plentiful 3 ()).Meets ok (Flow.start ()) (flood n) := by
  induction n with
  | zero => exact hconnect
  | succ n ih =>
      obtain ⟨s, hrun, hflooded⟩ := flooded_run n
      have hbefore := ih fun k s hk => hread k s (Nat.lt_succ_of_lt hk)
      obtain ⟨s₁, h₁, hreceived⟩ := hflooded.read
      obtain ⟨s₂, t, h₂, hrestruct⟩ := hreceived.restruct
      obtain ⟨s₃, h₃, hqueue⟩ := hrestruct.queue
      have hbusy {s : Flow Unit} {phase : RecvPhase} (h : Flooded n phase s)
          (hphase : ∀ fd, phase ≠ .reading fd) : ok s callStep := by
        apply hother
        intro fd hfd
        exact hphase fd (Option.some.inj (h.phase.symm.trans hfd))
      rw [flood, Nat.mul_succ, List.replicate_add, ← List.append_assoc]
      refine ((flows plentiful 3 ()).meets_append hrun _).mpr ⟨hbefore, ?_⟩
      refine ((flows plentiful 3 ()).meets_cons h₁ _).mpr ⟨hread n s (Nat.lt_succ_self n) hflooded, ?_⟩
      refine ((flows plentiful 3 ()).meets_cons h₂ _).mpr ⟨hbusy hreceived nofun, ?_⟩
      refine ((flows plentiful 3 ()).meets_cons h₃ _).mpr ⟨hbusy hrestruct nofun, ?_⟩
      exact ⟨hbusy hqueue nofun, fun _ _ => trivial⟩

namespace Flow

variable {s s' : Flow ω} {a : FlowStep}

/-! ## The start -/

theorem sound_start (w : ω) : (Flow.start w).view.Sound := by
  refine ⟨?_, ?_, ?_, ?_, ?_⟩
  · intro fd c hc
    cases hc
  · intro fd conn hfd
    cases hfd
  · intro w phase fd conn hphase
    cases hphase
  · intro w task htask
    cases htask
  · intro w fd conn todo frameCount hphase
    cases hphase

theorem switched_start (w : ω) : (Flow.start w).view.Switched := by
  intro fd c hc
  cases hc

theorem sound_switched_step {w : ω} (hinv : s.view.Sound ∧ s.view.Switched)
    (hstep : (flows env listenSocket w).step s a = some s') :
    s'.view.Sound ∧ s'.view.Switched := by
  have hmove := move_of_step hstep
  exact ⟨hinv.1.step hmove, hinv.2.step hinv.1 (hmove.effect hinv.1)⟩

theorem sound_switched_run {w : ω} {as : List FlowStep}
    (hrun : (flows env listenSocket w).run (Flow.start w) as = some s) :
    s.view.Sound ∧ s.view.Switched :=
  (flows env listenSocket w).run_invariant (fun _ _ _ => sound_switched_step)
    ⟨sound_start w, switched_start w⟩ hrun

theorem exists_client {fd : Nat} {c : FlowClient} (h : s.view.clients fd = some c) :
    ∃ client, s.server.clientMap[fd]? = some client ∧ client.counted = c :=
  Option.map_eq_some_iff.mp h

theorem frameCount_eq {fd : Nat} {client : ClientInfo} (h : s.view.Counts fd)
    (hclient : s.server.clientMap[fd]? = some client) :
    client.frameCount = (s.pending client.conn : Int) - s.uncounted client.conn :=
  h _ (counted_of_get hclient)

/-! ## No client is stranded -/

theorem exclusive_step {fd : Nat} (hs : s.view.Sound)
    (hmove : FlowMove listenSocket s.view a s'.view) (hkeeps : KeepsNumber listenSocket fd s a)
    (h : s.view.Exclusive fd) : s'.view.Exclusive fd := by
  apply h.step hs hmove
  intro hfree conn hopen
  obtain ⟨w, added, r, ev, rest, rfl, hidle, hevents, hlisten⟩ := hmove.accepts hfree hopen
  have hclear : ¬s.Outstanding fd := by
    apply hkeeps
    have hnone : s.recv w = none := hidle
    have hhead : s.server.recvTasks w = ev :: rest := hevents
    simp [accepts, hnone, hhead, hlisten]
  constructor
  · intro w' phase conn' hphase hwork
    have hphase' : s.recv w' = some phase := hphase
    refine hclear ⟨w', Or.inl ?_⟩
    rw [hphase', Option.any_some]
    cases phase with
    | reading k => cases hwork
    | received k c buff =>
        cases hwork
        exact decide_eq_true rfl
    | queueing k c todo frameCount =>
        cases hwork
        exact decide_eq_true rfl
  · intro w' task htask hsock
    exact hclear ⟨w', Or.inr ⟨task, htask, hsock⟩⟩

/-- The descriptor carries the work of one connection only. -/
structure Unshared (fd : Nat) (s : Flow ω) : Prop where
  sound : s.view.Sound
  switched : s.view.Switched
  exclusive : s.view.Exclusive fd
  counts : s.view.Counts fd

theorem Unshared.step {w : ω} {fd : Nat} (h : s.Unshared fd) (hkeeps : KeepsNumber listenSocket fd s a)
    (hstep : (flows env listenSocket w).step s a = some s') : s'.Unshared fd := by
  have hmove := move_of_step hstep
  have heffect := hmove.effect h.sound
  exact ⟨h.sound.step hmove, h.switched.step h.sound heffect,
    exclusive_step h.sound hmove hkeeps h.exclusive,
    h.counts.step h.sound (h.exclusive.own a) heffect⟩

theorem Unshared.of_free {fd : Nat} (hsound : s.view.Sound) (hswitched : s.view.Switched)
    (hfree : s.server.kernel.fds fd = none) : s.Unshared fd := by
  have hnone (c : FlowClient) : s.view.clients fd ≠ some c := by
    intro hc
    have hopen : s.server.kernel.fds fd = some c.conn := hsound.opened fd c hc
    cases hfree.symm.trans hopen
  exact ⟨hsound, hswitched, fun c hc => absurd hc (hnone c), fun c hc => absurd hc (hnone c)⟩

theorem Unshared.notStranded {fd : Nat} (h : s.Unshared fd) : s.NotStranded fd := by
  intro client hclient hoff
  have hlow : flowControlLow ≤ client.frameCount :=
    (h.switched fd _ (counted_of_get hclient)).off hoff
  have hcount := frameCount_eq h.counts hclient
  exact ⟨hlow, by omega⟩

end Flow

/-- For a connection on a descriptor that was not open in `s₀`, as long as no accept gives that
descriptor out while work for it is outstanding. -/
theorem notStranded_of_meets (env : World ω) (listenSocket : Nat) (w : ω) (fd : Nat)
    {before as : List FlowStep} {s₀ s : Flow ω}
    (hbefore : (flows env listenSocket w).run (Flow.start w) before = some s₀)
    (hfree : s₀.server.kernel.fds fd = none)
    (hmeets : (flows env listenSocket w).Meets (Flow.KeepsNumber listenSocket fd) s₀ as)
    (hrun : (flows env listenSocket w).run s₀ as = some s) : s.NotStranded fd := by
  obtain ⟨hsound, hswitched⟩ := Flow.sound_switched_run hbefore
  have hstart := Flow.Unshared.of_free hsound hswitched hfree
  have hend := StepSystem.Meets.invariant _ (fun _ _ _ h hkeeps hstep => h.step hkeeps hstep) hmeets
    hstart hrun
  exact hend.notStranded

/-- One read more than the high mark, and reading is off. -/
theorem notStranded_flood : ∃ s client,
    (flows plentiful 3 ()).run (Flow.start ()) (flood 307201) = some s ∧
      s.server.clientMap[5]? = some client ∧ client.enableRead = false ∧ s.NotStranded 5 := by
  obtain ⟨s, hrun, hflooded⟩ := flooded_run 307201
  obtain ⟨client, hclient, hoff, _⟩ := hflooded.off (by decide)
  have hmeets : (flows plentiful 3 ()).Meets (Flow.KeepsNumber 3 5) (Flow.start ()) (flood 307201) := by
    have hcall (s : Flow Unit) : Flow.KeepsNumber 3 5 s callStep := by
      intro haccepts
      have hnone : s.accepts 3 callStep = none := ite_self _
      cases hnone.symm.trans haccepts
    exact meets_flood 307201 (by decide +kernel) (fun _ s _ _ => hcall s) fun s _ => hcall s
  exact ⟨s, client, hrun, hclient, hoff,
    notStranded_of_meets plentiful 3 () 5 (StepSystem.run_nil _ _) rfl hmeets hrun⟩

/-! ## Counts stay in their range -/

namespace Flow

variable {s s' : Flow ω} {a : FlowStep}

theorem FindsOwn.own (h : s.FindsOwn a) (fd : Nat) : s.view.Own fd a := by
  constructor
  · rintro w connfd added r conn frameCount c rfl hphase hzero hc
    obtain ⟨client, hclient, rfl⟩ := exists_client hc
    have hcall : s.counting w = some (fd, conn, frameCount) := by
      have hphase' : s.recv w = some (.queueing fd conn [] frameCount) := hphase
      rw [counting, hphase']
    exact h _ hcall hzero client hclient
  · rintro w task c rfl hphase rfl hc
    obtain ⟨client, hclient, rfl⟩ := exists_client hc
    have htask : s.finishing w = some task := by
      have hphase' : s.frame w = some (task, .finish) := hphase
      rw [finishing, hphase']
    exact h task htask client hclient

theorem frame_of_finishing {w : Fin 4} {task : CFrameProcTask} (h : s.finishing w = some task) :
    s.frame w = some (task, .finish) := by
  unfold finishing at h
  split at h
  · rename_i task' hphase
    cases h
    exact hphase
  · cases h

/-- Counts are the balances of the connections, and in their range. -/
structure Ranged (s : Flow ω) : Prop where
  sound : s.view.Sound
  counts : ∀ fd, s.view.Counts fd
  nonneg : ∀ fd c, s.view.clients fd = some c → 0 ≤ c.frameCount

theorem Ranged.countsOwn (h : s.Ranged) : s.CountsOwn := by
  intro fd client hclient
  have hnonneg : 0 ≤ client.frameCount := h.nonneg fd _ (counted_of_get hclient)
  have hcount := frameCount_eq (h.counts fd) hclient
  exact ⟨hnonneg, by omega⟩

theorem Ranged.step (h : s.Ranged) (hmove : FlowMove listenSocket s.view a s'.view)
    (hown : s.FindsOwn a) (hfirst : s.CountsFirst a) : s'.Ranged := by
  have heffect := hmove.effect h.sound
  refine ⟨h.sound.step hmove, fun fd => (h.counts fd).step h.sound (hown.own fd) heffect, ?_⟩
  apply heffect.clients_step (fun _ => Int.le_refl 0) _ _ h.nonneg
  · intro w fd conn frameCount c hphase _ hc
    exact Int.add_nonneg hc (h.sound.todo w fd conn [] frameCount hphase).1
  · rintro w task c rfl hphase hc _
    obtain ⟨client, hclient, rfl⟩ := exists_client hc
    have htask : s.finishing w = some task := by
      have hphase' : s.frame w = some (task, .finish) := hphase
      rw [finishing, hphase']
    have hlt := hfirst task htask client hclient
    have hcount := frameCount_eq (h.counts task.sock) hclient
    show 0 ≤ client.frameCount - 1
    omega

theorem Ranged.countsFirst (h : s.Ranged) (hmove : FlowMove listenSocket s.view a s'.view)
    (hcounts : s'.CountsOwn) : s.CountsFirst a := by
  cases a with
  | deliver ev => trivial
  | recv w connfd added r => trivial
  | frame w =>
      intro task htask client hclient
      have hc : s.view.clients task.sock = some client.counted := counted_of_get hclient
      have hcount := frameCount_eq (h.counts task.sock) hclient
      have hclients := hmove.clients_finish (frame_of_finishing htask)
      have hc' : s'.view.clients task.sock = some client.counted.decrease := by
        rw [hclients, Function.update_self, hc]
        rfl
      obtain ⟨client', hclient', hcounted⟩ := exists_client hc'
      have hcount' : client'.frameCount = client.frameCount - 1 :=
        congrArg FlowClient.frameCount hcounted
      have hnonneg := (hcounts task.sock client' hclient').1
      omega

end Flow

/-- In a run that counts every frame for the client of its own connection, the counts are in their
range all along exactly when no frame is counted down while all that are pending are uncounted. -/
theorem countsOwn_iff_meets (env : World ω) (listenSocket : Nat) (w : ω) {as : List FlowStep}
    {s : Flow ω} (hrun : (flows env listenSocket w).run (Flow.start w) as = some s)
    (hown : (flows env listenSocket w).Meets Flow.FindsOwn (Flow.start w) as) :
    (∀ done s', done <+: as → (flows env listenSocket w).run (Flow.start w) done = some s' →
      s'.CountsOwn) ↔
      (flows env listenSocket w).Meets Flow.CountsFirst (Flow.start w) as := by
  have hstart : (Flow.start w).Ranged := by
    refine ⟨Flow.sound_start w, ?_, ?_⟩
    · intro fd c hc
      cases hc
    · intro fd c hc
      cases hc
  apply (flows env listenSocket w).meets_iff_forall_states _ _ hstart hstart.countsOwn hown hrun
  · intro s a s' h hstep hfinds hfirst
    have h' := h.step (Flow.move_of_step hstep) hfinds hfirst
    exact ⟨h', h'.countsOwn⟩
  · intro s a s' h hstep _ hcounts
    exact h.countsFirst (Flow.move_of_step hstep) hcounts

theorem countsOwn_iff_meets_frame :
    ∃ s, (flows plentiful 3 ()).run (Flow.start ()) frameSteps = some s ∧
      ((∀ done s', done <+: frameSteps →
          (flows plentiful 3 ()).run (Flow.start ()) done = some s' → s'.CountsOwn) ↔
        (flows plentiful 3 ()).Meets Flow.CountsFirst (Flow.start ()) frameSteps) := by
  have hown : (flows plentiful 3 ()).Meets Flow.FindsOwn (Flow.start ()) frameSteps := by
    decide +kernel
  have hrun : ((flows plentiful 3 ()).run (Flow.start ()) frameSteps).isSome = true := by
    decide +kernel
  obtain ⟨s, hs⟩ := Option.isSome_iff_exists.mp hrun
  exact ⟨s, hs, countsOwn_iff_meets plentiful 3 () hs hown⟩

/-- A frame is counted down before the call that queued it counts. -/
def earlyFrame : List FlowStep :=
  connectFive ++ List.replicate 3 callStep ++ List.replicate 3 (.frame (workerOf 5))

/-- A frame is queued and counted, its connection ends and another one gets the descriptor before the
frame is counted down. -/
def lateFrame : List FlowStep :=
  connectFive ++ List.replicate 4 callStep ++
    [.recv (workerOf 5) none false (.data ⟨[], Nat.zero_le _⟩), .deliver ⟨3, true, false⟩,
      .recv (workerOf 3) (some 5) true .failed] ++ List.replicate 3 (.frame (workerOf 5))

theorem not_countsOwn_early_late :
    (∃ s, (flows plentiful 3 ()).run (Flow.start ()) earlyFrame = some s ∧ ¬s.CountsOwn) ∧
      ∃ s, (flows plentiful 3 ()).run (Flow.start ()) lateFrame = some s ∧ ¬s.CountsOwn := by
  have hnegative {s : Flow Unit}
      (h : ((s.server.clientMap[5]?).any fun client => client.frameCount < 0) = true) :
      ¬s.CountsOwn := by
    obtain ⟨client, hclient, hcount⟩ := (Option.any_eq_true _ _).mp h
    intro hown
    exact Int.not_lt.mpr (hown 5 client hclient).1 (of_decide_eq_true hcount)
  have hearly : ((flows plentiful 3 ()).run (Flow.start ()) earlyFrame).any (fun s =>
      (s.server.clientMap[5]?).any fun client => client.frameCount < 0) = true := by
    decide +kernel
  have hlate : ((flows plentiful 3 ()).run (Flow.start ()) lateFrame).any (fun s =>
      (s.server.clientMap[5]?).any fun client => client.frameCount < 0) = true := by
    decide +kernel
  obtain ⟨s, hs, hcount⟩ := (Option.any_eq_true _ _).mp hearly
  obtain ⟨s', hs', hcount'⟩ := (Option.any_eq_true _ _).mp hlate
  exact ⟨⟨s, hs, hnegative hcount⟩, s', hs', hnegative hcount'⟩

/-! ## Reading that is off -/

namespace Flow

variable {s s' : Flow ω} {a : FlowStep}

/-- Whoever has bytes or frames for a client has them for one that is on, and counts are bounded. -/
structure Controlled (s : Flow ω) : Prop where
  sound : s.view.Sound
  owned : s.view.Owned
  switched : s.view.Switched
  held : s.view.Held
  bounded : s.view.Bounded

theorem controlled_start (w : ω) : (Flow.start w).Controlled := by
  refine ⟨sound_start w, ⟨?_, ?_⟩, switched_start w, ?_, ?_⟩
  · intro w' ev hev
    cases hev
  · intro w' phase hphase
    cases hphase
  · intro w' phase fd conn c hphase
    cases hphase
  · intro fd c hc
    cases hc

theorem Controlled.throttled (h : s.Controlled) : s.Throttled := by
  constructor
  · intro w fd conn buff client hphase hclient
    exact h.held w _ fd conn _ hphase rfl (counted_of_get hclient)
  · intro fd client hclient
    exact h.bounded fd _ (counted_of_get hclient)

theorem Controlled.step (h : s.Controlled) (hmove : FlowMove listenSocket s.view a s'.view)
    (hreads : s.ReadsNothingOff a) : s'.Controlled := by
  have heffect := hmove.effect h.sound
  have hon : ∀ w connfd added buff fd c, a = .recv w connfd added (.data buff) →
      buff.bytes.length ≠ 0 → s.view.recv w = some (.reading fd) → s.view.clients fd = some c →
      c.enableRead = true := by
    rintro w connfd added buff fd c rfl hbytes hphase hc
    obtain ⟨client, hclient, rfl⟩ := exists_client hc
    have hphase' : s.recv w = some (.reading fd) := hphase
    simp only [ReadsNothingOff, hphase'] at hreads
    cases henable : client.enableRead with
    | true => exact henable
    | false => exact absurd (hreads client hclient henable) hbytes
  exact ⟨h.sound.step hmove, h.owned.step hmove, h.switched.step h.sound heffect,
    h.held.step h.sound h.owned hmove hon, h.bounded.step h.sound h.switched h.held heffect⟩

/-- Bytes that are read while reading is off are passed on. -/
theorem Controlled.readsNothingOff {w : ω} (h : s.Controlled)
    (hstep : (flows env listenSocket w).step s a = some s') (hthrottled : s'.Throttled) :
    s.ReadsNothingOff a := by
  cases a with
  | deliver ev => trivial
  | frame w => trivial
  | recv w connfd added r =>
      cases r with
      | failed => trivial
      | data buff =>
          simp only [ReadsNothingOff]
          split
          · rename_i fd hphase
            intro client hclient hoff
            by_contra hbytes
            have hopen : s.server.kernel.fds fd = some client.conn :=
              h.sound.opened fd _ (counted_of_get hclient)
            simp only [flows, Flow.step, recvStep, hphase, readOnce, hopen, if_neg hbytes,
              Option.some.injEq] at hstep
            subst hstep
            have hon := hthrottled.held w fd client.conn buff client (Function.update_self _ _ _)
              hclient
            cases hoff.symm.trans hon
          · trivial

end Flow

/-- Reading that is off holds back the peer, and counts are bounded, exactly when every read that is
made while reading is off finds nothing. -/
theorem throttled_iff_meets (env : World ω) (listenSocket : Nat) (w : ω) {as : List FlowStep}
    {s : Flow ω} (hrun : (flows env listenSocket w).run (Flow.start w) as = some s) :
    (∀ done s', done <+: as → (flows env listenSocket w).run (Flow.start w) done = some s' →
      s'.Throttled) ↔
      (flows env listenSocket w).Meets Flow.ReadsNothingOff (Flow.start w) as := by
  have hstart := Flow.controlled_start w
  have hpre : (flows env listenSocket w).Meets (fun _ _ => True) (Flow.start w) as :=
    (flows env listenSocket w).meets_of_forall (fun _ _ => trivial) _ as
  apply (flows env listenSocket w).meets_iff_forall_states _ _ hstart hstart.throttled hpre hrun
  · intro s a s' h hstep _ hreads
    have h' := h.step (Flow.move_of_step hstep) hreads
    exact ⟨h', h'.throttled⟩
  · intro s a s' h hstep _ hthrottled
    exact h.readsNothingOff hstep hthrottled

theorem throttled_iff_meets_flood : ∃ s client,
    (flows plentiful 3 ()).run (Flow.start ()) (flood 307201) = some s ∧
      s.server.clientMap[5]? = some client ∧ client.enableRead = false ∧
      ∀ done s', done <+: flood 307201 →
        (flows plentiful 3 ()).run (Flow.start ()) done = some s' → s'.Throttled := by
  obtain ⟨s, hrun, hflooded⟩ := flooded_run 307201
  obtain ⟨client, hclient, hoff, _⟩ := hflooded.off (by decide)
  have hmeets : (flows plentiful 3 ()).Meets Flow.ReadsNothingOff (Flow.start ()) (flood 307201) := by
    refine meets_flood 307201 ?_ (fun k s hk h => ?_) fun s hother => ?_
    · exact ⟨trivial, fun _ _ => ⟨trivial, fun _ _ => ⟨trivial, fun _ _ => ⟨trivial, fun _ _ => trivial⟩⟩⟩⟩
    · rw [callStep, Flow.ReadsNothingOff, h.phase]
      intro client hclient hoff
      cases hoff.symm.trans (h.on (by rw [flowControlHigh]; omega) hclient)
    · rw [callStep, Flow.ReadsNothingOff]
      split
      · rename_i fd hfd
        exact absurd hfd (hother fd)
      · trivial
  exact ⟨s, client, hrun, hclient, hoff, (throttled_iff_meets plentiful 3 () hrun).mpr hmeets⟩

theorem not_throttled_flood : ∃ s client,
    (flows plentiful 3 ()).run (Flow.start ()) (flood 307681 ++ [callStep]) = some s ∧
      s.server.clientMap[5]? = some client ∧ client.enableRead = false ∧
      s.recv (workerOf 5) = some (.received 5 0 oneFrame) ∧
      flowControlHigh + Flow.framesMax < client.frameCount ∧ ¬s.Throttled := by
  obtain ⟨s, hrun, hflooded⟩ := flooded_run 307681
  obtain ⟨s', hstep, hread⟩ := hflooded.read
  obtain ⟨client, hclient, hoff, hcount⟩ := hread.off (by decide)
  refine ⟨s', client, ?_, hclient, hoff, hread.phase, ?_, ?_⟩
  · exact (StepSystem.run_concat_eq_some _).mpr ⟨s, hrun, hstep⟩
  · rw [hcount]
    decide
  · intro h
    cases hoff.symm.trans (h.held (workerOf 5) 5 0 oneFrame client hread.phase hclient)

end CmdTran
