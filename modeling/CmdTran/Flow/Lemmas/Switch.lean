import CmdTran.Flow.Lemmas.Counts

/-!
# The switch

Reading is on up to the high mark and off from the low mark. Only the recv worker of a descriptor
switches its client off, at the end of a call, so a client that is on stays on during the call.
-/

namespace CmdTran

open Server

def RecvPhase.fd : RecvPhase → Nat
  | reading fd => fd
  | received fd _ _ => fd
  | queueing fd _ _ _ => fd

/-! ## Hysteresis -/

/-- A client that is on is not above the high mark, one that is off not below the low mark. -/
structure FlowClient.Switched (c : FlowClient) : Prop where
  on : c.enableRead = true → c.frameCount ≤ flowControlHigh
  off : c.enableRead = false → flowControlLow ≤ c.frameCount

namespace FlowClient.Switched

variable {c : FlowClient}

theorem increase (h : c.Switched) {count : Int} (hcount : 0 ≤ count) : (c.increase count).Switched := by
  obtain ⟨hon, hoff⟩ := h
  unfold FlowClient.increase
  split
  · rename_i hhigh
    refine ⟨fun hno => Bool.noConfusion hno, fun _ => ?_⟩
    simp only [flowControlHigh, flowControlLow] at *
    omega
  · rename_i hhigh
    refine ⟨fun htrue => ?_, fun hfalse => ?_⟩
    · exact Int.not_lt.mp fun hlt => hhigh ⟨hlt, htrue⟩
    · have hold := hoff hfalse
      exact hold.trans (Int.le_add_of_nonneg_right hcount)

theorem decrease (h : c.Switched) : c.decrease.Switched := by
  obtain ⟨hon, hoff⟩ := h
  unfold FlowClient.decrease
  split
  · rename_i hlow
    refine ⟨fun _ => ?_, fun hno => Bool.noConfusion hno⟩
    simp only [flowControlHigh, flowControlLow] at *
    omega
  · rename_i hlow
    refine ⟨fun htrue => ?_, fun hfalse => ?_⟩
    · have hold := hon htrue
      exact (Int.sub_le_self _ (by decide)).trans hold
    · exact Int.not_lt.mp fun hlt => hlow ⟨hlt, hfalse⟩

theorem new (conn : Conn) : (⟨conn, 0, true⟩ : FlowClient).Switched :=
  ⟨fun _ => Int.natCast_nonneg _, fun hno => Bool.noConfusion hno⟩

end FlowClient.Switched

/-! ## Clients one by one -/

/-- What a new client has and a client keeps when it counts, all clients have. -/
theorem FlowEffect.clients_step {v v' : FlowView} {a : FlowStep} {P : FlowClient → Prop}
    (h : FlowEffect v a v') (hnew : ∀ conn, P ⟨conn, 0, true⟩)
    (hincrease : ∀ w fd conn frameCount c, v.recv w = some (.queueing fd conn [] frameCount) →
      v.clients fd = some c → P c → P (c.increase frameCount))
    (hdecrease : ∀ w task c, a = .frame w → v.frame w = some (task, .finish) →
      v.clients task.sock = some c → P c → P c.decrease)
    (hP : ∀ fd c, v.clients fd = some c → P c) (fd : Nat) (c : FlowClient)
    (hc : v'.clients fd = some c) : P c := by
  cases h with
  | quiet hclients =>
      rcases hclients fd c hc with ⟨hold, _⟩ | ⟨rfl, _⟩
      · exact hP fd c hold
      · exact hnew _
  | count w connfd added r k conn frameCount hphase hclients =>
      rw [hclients] at hc
      obtain ⟨c₀, rfl, hc₀, rfl⟩ | ⟨_, hold⟩ := FlowEffect.counted_cases hc
      · exact hincrease w fd conn frameCount c₀ hphase hc₀ (hP fd c₀ hc₀)
      · exact hP fd c hold
  | finish w task hphase hclients =>
      rw [hclients] at hc
      obtain ⟨c₀, rfl, hc₀, rfl⟩ | ⟨_, hold⟩ := FlowEffect.counted_cases hc
      · exact hdecrease w task c₀ rfl hphase hc₀ (hP _ c₀ hc₀)
      · exact hP fd c hold

namespace FlowView

variable {listenSocket : Nat} {v v' : FlowView} {a : FlowStep}

def Switched (v : FlowView) : Prop := ∀ fd c, v.clients fd = some c → c.Switched

theorem Switched.step (h : v.Switched) (hs : v.Sound) (he : FlowEffect v a v') : v'.Switched := by
  apply he.clients_step FlowClient.Switched.new _ _ h
  · intro w fd conn frameCount c hphase _ hc
    exact hc.increase (hs.todo w fd conn [] frameCount hphase).1
  · intro w task c _ _ _ hc
    exact hc.decrease

/-! ## One worker for a descriptor -/

/-- The events of a descriptor, and its calls, are all with its worker. -/
structure Owned (v : FlowView) : Prop where
  events : ∀ w, ∀ ev ∈ v.events w, worker ev.fd = w
  work : ∀ w phase, v.recv w = some phase → worker phase.fd = w

theorem Owned.events_step (h : v.Owned) (hm : FlowMove listenSocket v a v') (w : Nat)
    (ev : EpollEvent) (hev : ev ∈ v'.events w) : worker ev.fd = w := by
  have hpop {w' : Fin 4} (hev : ev ∈ (v.popEvent w').events w) : worker ev.fd = w := by
    simp only [ServerView.popEvent, Function.update_apply] at hev
    split at hev
    · rename_i hw
      rw [hw]
      exact h.events w' ev (List.mem_of_mem_tail hev)
    · exact h.events w ev hev
  cases hm with
  | deliver ev' =>
      have hmem : ev ∈ addTask v.events ev'.fd ev' w := hev
      rw [addTask, Function.update_apply] at hmem
      split at hmem
      · rename_i hw
        rw [hw]
        rcases List.mem_append.mp hmem with hold | hnew
        · exact h.events _ ev hold
        · rw [List.mem_singleton.mp hnew]
      · exact h.events w ev hmem
  | pass => exact hpop hev
  | accept => exact hpop hev
  | refuse => exact hpop hev
  | readable => exact hpop hev
  | hangUp => exact hpop hev
  | _ => exact h.events w ev hev

theorem Owned.step (h : v.Owned) (hm : FlowMove listenSocket v a v') : v'.Owned := by
  refine ⟨h.events_step hm, fun w phase hphase => ?_⟩
  rcases hm.recv_cases hphase with hold | hnew
  · exact h.work w phase hold
  · cases hnew with
    | readable connfd added r ev rest hevents =>
        apply h.events w ev
        rw [hevents]
        exact List.mem_cons_self
    | receive connfd added buff fd conn hbefore => exact h.work w (.reading fd) hbefore
    | miss connfd added r fd conn buff hbefore => exact h.work w (.received fd conn buff) hbefore
    | restruct connfd added r fd conn buff todo frameCount hbefore =>
        exact h.work w (.received fd conn buff) hbefore
    | queue connfd added r fd conn t todo frameCount hbefore =>
        exact h.work w (.queueing fd conn (t :: todo) frameCount) hbefore
    | count connfd added r fd conn frameCount hbefore =>
        exact h.work w (.queueing fd conn [] frameCount) hbefore

theorem Owned.eq_of_work (h : v.Owned) {w w' : Fin 4} {phase phase' : RecvPhase} {fd : Nat}
    {conn conn' : Conn} (hphase : v.recv w = some phase) (hwork : phase.work = some (fd, conn))
    (hphase' : v.recv w' = some phase') (hwork' : phase'.work = some (fd, conn')) : w = w' := by
  have hfd {p : RecvPhase} {c : Conn} (hp : p.work = some (fd, c)) : p.fd = fd := by
    cases p with
    | reading k => cases hp
    | received k c buff => exact congrArg Prod.fst (Option.some.inj hp)
    | queueing k c todo n => exact congrArg Prod.fst (Option.some.inj hp)
  have hw := h.work w phase hphase
  have hw' := h.work w' phase' hphase'
  rw [hfd hwork] at hw
  rw [hfd hwork'] at hw'
  exact Fin.ext (hw.symm.trans hw')

/-! ## Calls on clients that are on -/

/-- Whoever has bytes or frames for a client has them for one that is on. -/
def Held (v : FlowView) : Prop :=
  ∀ w phase fd conn c, v.recv w = some phase → phase.work = some (fd, conn) →
    v.clients fd = some c → c.enableRead = true

/-- No count is further above the high mark than the frames of one call. -/
def Bounded (v : FlowView) : Prop :=
  ∀ fd c, v.clients fd = some c → c.frameCount ≤ flowControlHigh + Flow.framesMax

theorem Bounded.step (h : v.Bounded) (hs : v.Sound) (hswitched : v.Switched) (hheld : v.Held)
    (he : FlowEffect v a v') : v'.Bounded := by
  apply he.clients_step (fun _ => Int.natCast_nonneg _) _ _ h
  · intro w fd conn frameCount c hphase hc _
    have hlow := (hswitched fd c hc).on (hheld w _ fd conn c hphase rfl hc)
    have hmax := (hs.todo w fd conn [] frameCount hphase).2
    exact Int.add_le_add hlow hmax
  · intro w task c _ _ _ hle
    exact (Int.sub_le_self _ (by decide)).trans hle

/-- A client that is on goes off only when a call on it ends. -/
theorem on_step (he : FlowEffect v a v') {fd : Nat} {c : FlowClient} (hc : v'.clients fd = some c)
    (hon : ∀ c₀, v.clients fd = some c₀ → c₀.enableRead = true)
    (hcall : ∀ w conn frameCount, v.recv w = some (.queueing fd conn [] frameCount) →
      ∀ connfd added r, a ≠ .recv w connfd added r) : c.enableRead = true := by
  cases he with
  | quiet hclients =>
      rcases hclients fd c hc with ⟨hold, _⟩ | ⟨rfl, _⟩
      · exact hon c hold
      · rfl
  | count w connfd added r k conn frameCount hphase hclients =>
      rw [hclients] at hc
      obtain ⟨_, rfl, _⟩ | ⟨_, hold⟩ := FlowEffect.counted_cases hc
      · exact absurd rfl (hcall w conn frameCount hphase connfd added r)
      · exact hon c hold
  | finish w task hphase hclients =>
      rw [hclients] at hc
      obtain ⟨c₀, rfl, hc₀, rfl⟩ | ⟨_, hold⟩ := FlowEffect.counted_cases hc
      · have hold := hon c₀ hc₀
        unfold FlowClient.decrease
        split
        · rfl
        · exact hold
      · exact hon c hold

theorem recv_count {w : Fin 4} {connfd : Option Nat} {added : Bool} {r : ReadResult} {fd : Nat}
    {conn : Conn} {frameCount : Int} (h : FlowMove listenSocket v (.recv w connfd added r) v')
    (hphase : v.recv w = some (.queueing fd conn [] frameCount)) :
    v'.recv w = some (.reading fd) := by
  cases h with
  | count w connfd added r fd' conn' frameCount' hphase' =>
      cases hphase.symm.trans hphase'
      exact Function.update_self _ _ _
  | pass _ _ _ _ ev rest hidle => cases hphase.symm.trans hidle
  | accept _ _ _ ev rest hidle => cases hphase.symm.trans hidle
  | refuse _ _ _ ev rest hidle => cases hphase.symm.trans hidle
  | readable _ _ _ _ ev rest hidle => cases hphase.symm.trans hidle
  | hangUp _ _ _ _ ev rest hidle => cases hphase.symm.trans hidle
  | stop _ _ _ _ fd' hphase' => cases hphase.symm.trans hphase'
  | eof _ _ _ _ fd' hphase' => cases hphase.symm.trans hphase'
  | receive _ _ _ buff fd' conn' hphase' => cases hphase.symm.trans hphase'
  | miss _ _ _ _ fd' conn' buff hphase' => cases hphase.symm.trans hphase'
  | restruct _ _ _ _ fd' conn' buff todo n hphase' => cases hphase.symm.trans hphase'
  | queue _ _ _ _ fd' conn' t todo n hphase' => cases hphase.symm.trans hphase'

theorem Held.step (h : v.Held) (hs : v.Sound) (howned : v.Owned)
    (hm : FlowMove listenSocket v a v')
    (hreads : ∀ w connfd added buff fd c, a = .recv w connfd added (.data buff) →
      buff.bytes.length ≠ 0 → v.recv w = some (.reading fd) → v.clients fd = some c →
      c.enableRead = true) : v'.Held := by
  intro w phase fd conn c hphase hwork hc
  rcases hm.work_cases hphase hwork with
    ⟨phase₀, hphase₀, hwork₀⟩ | ⟨connfd, added, buff, rfl, hbytes, hreading, _⟩
  · apply on_step (hm.effect hs) hc fun c₀ hc₀ => h w phase₀ fd conn c₀ hphase₀ hwork₀ hc₀
    -- the worker whose call ends is this one, and it has no work for the descriptor any more
    rintro w' conn' frameCount hcall connfd added r rfl
    cases howned.eq_of_work hphase₀ hwork₀ hcall rfl
    cases (recv_count hm hcall).symm.trans hphase
    cases hwork
  · apply on_step (hm.effect hs) hc fun c₀ hc₀ =>
      hreads w connfd added buff fd c₀ rfl hbytes hreading hc₀
    rintro w' conn' frameCount hcall connfd' added' r heq
    cases heq
    cases hreading.symm.trans hcall

end FlowView

end CmdTran
