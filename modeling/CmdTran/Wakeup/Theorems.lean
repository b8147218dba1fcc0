import CmdTran.Wakeup.Basic

/-!
# No lost wake-up

A socket that waits, or is about to, has an `EPOLLOUT` on its way. Only the handler and a rejected login can
break this.
-/

namespace CmdTran

/-- A socket in `m_SocketInfo` that needs a wake-up has one outstanding. -/
def Awake (s : Wakeup) : Prop := s.registered = true → s.NeedsWake → s.Outstanding

theorem Awake.mono {s s' : Wakeup} (h : Awake s)
    (hregistered : s'.registered = true → s.registered = true)
    (hneeds : s'.NeedsWake → s.NeedsWake) (hout : s.Outstanding → s'.Outstanding) : Awake s' :=
  fun hr hn => hout (h (hregistered hr) (hneeds hn))

/-! ## Sending -/

theorem Wakeup.short_iff {s : Wakeup} :
    s.Short ↔ ∃ ret node chain, s.loop = .sent ret ∧ s.info.outputChain = node :: chain ∧
      0 < ret ∧ ret < node.rest := by
  unfold Wakeup.Short
  constructor
  · intro h
    split at h
    · exact ⟨_, _, _, ‹_›, ‹_›, h⟩
    · exact h.elim
  · rintro ⟨ret, node, chain, hloop, hchain, h⟩
    rw [hloop, hchain]
    exact h

theorem Wakeup.taken_iff {s : Wakeup} : s.Taken ↔ ∃ e, s.handler = .taken e ∧ e.epollout = true := by
  unfold Wakeup.Taken
  constructor
  · intro h
    split at h
    · exact ⟨_, ‹_›, h⟩
    · exact h.elim
  · rintro ⟨e, htaken, hout⟩
    rw [htaken]
    exact hout

theorem Wakeup.not_short {s : Wakeup} (h : ∀ ret, s.loop ≠ .sent ret) : ¬s.Short := by
  intro hshort
  obtain ⟨ret, _, _, hloop, _⟩ := Wakeup.short_iff.mp hshort
  exact h ret hloop

/-- The send loop writes `SEND_STATE_WAITING` after a short `send` only. -/
theorem waiting_of_afterSend {τ : Type} {info : SocketInformation τ} {ret : Int}
    (h : (afterSend info ret).info.currSendState = .waiting) :
    info.currSendState = .waiting ∨
      ∃ node chain, info.outputChain = node :: chain ∧ 0 < ret ∧ ret < node.rest := by
  unfold afterSend at h
  split at h
  · exact Or.inl h
  · split at h
    · exact Or.inl h
    · split at h
      · exact Or.inr ⟨_, _, ‹_›, ‹_›⟩
      · split at h
        · exact Or.inl h
        · exact Or.inl h

theorem Awake.sendHead {s : Wakeup} (h : Awake s) (r : SendResult) : Awake (s.sendHead r) := by
  unfold Wakeup.sendHead
  split
  · refine h.mono id ?_ id
    rintro (hw | hshort)
    · exact Or.inl hw
    · exact absurd hshort (Wakeup.not_short nofun)
  · rename_i node chain hchain
    generalize (if s.isOpen = true then r.ret node else -1) = ret
    intro hregistered hneeds
    rcases hneeds with hw | hshort
    · rcases h hregistered (Or.inl hw) with howed | hrest
      · exact Or.inl (by simp [howed])
      · exact Or.inr hrest
    · -- the kernel owes an `EPOLLOUT` from here on
      obtain ⟨ret', node', chain', hloop, hchain', hpos, hlt⟩ := Wakeup.short_iff.mp hshort
      cases hloop
      cases hchain.symm.trans hchain'
      left
      have hle : (0 : Int) ≤ ret := by omega
      simp [hle, hlt]

theorem Awake.afterSend {s : Wakeup} (h : Awake s) {ret : Int} (hloop : s.loop = .sent ret)
    {loop : LoopStage} (hnext : ∀ ret, loop ≠ .sent ret) :
    Awake { s with info := (CmdTran.afterSend s.info ret).info, loop } := by
  refine h.mono id ?_ id
  rintro (hw | hshort)
  · rcases waiting_of_afterSend hw with hw | ⟨node, chain, hchain, hpos, hlt⟩
    · exact Or.inl hw
    · exact Or.inr (Wakeup.short_iff.mpr ⟨ret, node, chain, hloop, hchain, hpos, hlt⟩)
  · exact absurd hshort (Wakeup.not_short hnext)

/-! ## Events -/

theorem Awake.deliver {s : Wakeup} (h : Awake s) (e : Readiness) :
    Awake { s with events := s.events ++ [e], owed := s.owed && !e.epollout } := by
  refine h.mono id id ?_
  rintro (howed | ⟨e', he', hout⟩ | htaken)
  · cases hout : e.epollout with
    | true => exact Or.inr (Or.inl ⟨e, List.mem_append_right _ (List.mem_singleton.mpr rfl), hout⟩)
    | false => exact Or.inl (by simp [howed])
  · exact Or.inr (Or.inl ⟨e', List.mem_append_left _ he', hout⟩)
  · exact Or.inr (Or.inr htaken)

theorem Awake.take {s : Wakeup} (h : Awake s) {e : Readiness} {events : List Readiness}
    (hidle : s.handler = .idle) (hevents : s.events = e :: events) :
    Awake { s with events, handler := .taken e } := by
  refine h.mono id id ?_
  rintro (howed | ⟨e', he', hout⟩ | htaken)
  · exact Or.inl howed
  · rw [hevents] at he'
    rcases List.mem_cons.mp he' with rfl | he'
    · exact Or.inr (Or.inr hout)
    · exact Or.inr (Or.inl ⟨e', he', hout⟩)
  · obtain ⟨e', htaken, _⟩ := Wakeup.taken_iff.mp htaken
    cases hidle.symm.trans htaken

theorem Wakeup.Outstanding.beside {s : Wakeup} (h : s.Outstanding) {e : Readiness}
    (htaken : s.handler = .taken e) (hout : e.epollout = false) : s.owed = true ∨ s.Delivered := by
  rcases h with howed | hdelivered | hin
  · exact Or.inl howed
  · exact Or.inr hdelivered
  · obtain ⟨e', htaken', hout'⟩ := Wakeup.taken_iff.mp hin
    cases htaken.symm.trans htaken'
    cases hout.symm.trans hout'

theorem Wakeup.Outstanding.of_beside {s s' : Wakeup} (h : s.owed = true ∨ s.Delivered)
    (howed : s'.owed = s.owed) (hevents : s'.events = s.events) : s'.Outstanding := by
  rcases h with h | ⟨e, he, hout⟩
  · exact Or.inl (howed.trans h)
  · exact Or.inr (Or.inl ⟨e, hevents ▸ he, hout⟩)

/-- The event is taken as one to read; its `EPOLLOUT` is not looked at. -/
theorem Awake.readable {s s' : Wakeup} (h : Awake s) {epollout eof : Bool}
    (htaken : s.handler = .taken ⟨true, epollout⟩)
    (hok : epollout = true → eof = false → s.NeedsWake → s.owed = true ∨ s.Delivered)
    (hstep : s.processRecvEnts ⟨true, epollout⟩ eof = some s') : Awake s' := by
  cases eof with
  | true =>
      simp only [Wakeup.processRecvEnts, if_true] at hstep
      split at hstep
      · cases hstep
        intro hregistered
        cases hregistered
      · cases hstep
  | false =>
      cases hstep
      intro hregistered hneeds
      apply Wakeup.Outstanding.of_beside _ rfl rfl
      cases epollout with
      | false => exact (h hregistered hneeds).beside htaken rfl
      | true => exact hok rfl rfl hneeds

theorem Awake.writable {s s' : Wakeup} {eof : Bool}
    (hok : s.Short → s.owed = true ∨ s.Delivered)
    (hstep : s.processRecvEnts ⟨false, true⟩ eof = some s') : Awake s' := by
  simp only [Wakeup.processRecvEnts, Bool.false_eq_true, if_false, if_true] at hstep
  split at hstep
  · cases hstep
    intro hregistered hneeds
    rcases hneeds with hw | hshort
    · cases hw
    · exact Wakeup.Outstanding.of_beside (hok hshort) rfl rfl
  · rename_i hunregistered
    cases hstep
    intro hregistered
    exact absurd hregistered hunregistered

theorem Awake.hangUp {s s' : Wakeup} {eof : Bool} (hok : s.NeedsWake → s.Delivered)
    (hstep : s.processRecvEnts ⟨false, false⟩ eof = some s') : Awake s' := by
  cases hstep
  intro hregistered hneeds
  obtain ⟨e, he, hout⟩ := hok hneeds
  exact Or.inr (Or.inl ⟨e, he, hout⟩)

theorem Awake.handle {s s' : Wakeup} (h : Awake s) {e : Readiness} {eof : Bool}
    (htaken : s.handler = .taken e) (hok : s.InTime (.handle eof))
    (hstep : s.processRecvEnts e eof = some s') : Awake s' := by
  simp only [Wakeup.InTime, htaken] at hok
  rcases e with ⟨_ | _, _ | _⟩
  · exact Awake.hangUp hok hstep
  · exact Awake.writable hok hstep
  · exact h.readable htaken hok hstep
  · exact h.readable htaken hok hstep

/-- The kernel forgets the descriptor; what it has reported is still handled. -/
theorem Awake.reject {s : Wakeup} (hok : s.NeedsWake → s.Delivered ∨ s.Taken) :
    Awake { s with isOpen := false, owed := false } :=
  fun _ hneeds => Or.inr (hok hneeds)

/-- A new entry does not wait, and one that is kept has what it had. -/
theorem Awake.acceptAgain {s s' : Wakeup} (h : Awake s) (hstep : s.acceptAgain = some s') : Awake s' := by
  unfold Wakeup.acceptAgain at hstep
  split at hstep
  · cases hstep
    exact h.mono id id id
  · split at hstep
    · rename_i hunused
      cases hstep
      rintro _ (hwaiting | hshort)
      · cases hwaiting
      · refine absurd hshort (Wakeup.not_short fun ret hloop => ?_)
        cases hunused.2.2.2.symm.trans hloop
    · cases hstep

/-! ## Any step -/

end CmdTran
