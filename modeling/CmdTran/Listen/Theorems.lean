import CmdTran.Listen.Basic

/-!
# One accept for each event

Each event that is owed, queued or about to be handled stands for one connection of the backlog. The
backlog has more exactly when arrivals were merged into one event, or an `accept` failed.
-/

namespace CmdTran

namespace Listener

variable {s s' : Listener} {waiting : List Conn}

/-! ## Events and connections -/

/-- Whether the branch has its `accept` before it. -/
def due : ListenStage → Nat
  | .accepting => 1
  | _ => 0

/-- The calls of `accept` that are to come. -/
def pending (s : Listener) : Nat := s.owed.toNat + s.tasks.count .listen + due s.stage

/-- `lost` connections have no event of their own. -/
def Balanced (lost : Nat) (s : Listener) : Prop := s.backlog.length = s.pending + lost

theorem Balanced.backlog_of_quiet {lost : Nat} (h : Balanced lost s) (hq : s.Quiet) :
    s.backlog.length = lost := by
  obtain ⟨howed, htasks, hstage⟩ := hq
  rw [h, pending, howed, hstage, List.count_eq_zero.mpr htasks]
  simp [due]

theorem balanced_start_iff (waiting : List Conn) :
    Balanced 0 (start waiting) ↔ waiting.length ≤ 1 := by
  cases waiting with
  | nil => simp [Balanced, start, pending, due]
  | cons conn waiting => simp [Balanced, start, pending, due]

/-! ## One step -/

/-- Handling an event neither gains nor loses a connection. -/
theorem Balanced.handles {lost : Nat} (h : Balanced lost s) {a : ListenStep} (ha : Handles a)
    (hs : s.step a = some s') : Balanced lost s' := by
  cases a with
  | arrive conn => exact ha.elim
  | deliver task =>
      cases task with
      | listen =>
          rw [step] at hs
          split at hs
          · rename_i howed
            cases hs
            simp [Balanced, pending, addTask, howed] at h ⊢
            omega
          · cases hs
      | other =>
          cases hs
          simpa [Balanced, pending, addTask] using h
  | take =>
      rw [step] at hs
      split at hs
      · rename_i hstage htasks
        cases hs
        simp [Balanced, pending, due, hstage, htasks] at h ⊢
        omega
      · rename_i hstage htasks
        cases hs
        simpa [Balanced, pending, due, hstage, htasks] using h
      · cases hs
  | accept ok =>
      cases ha
      rw [step] at hs
      split at hs
      · rename_i hstage
        cases hs
        cases hbacklog : s.backlog with
        | nil =>
            simp [Balanced, pending, due, hstage, hbacklog] at h
            omega
        | cons conn backlog =>
            simp [Balanced, pending, due, acceptOnce, hstage, hbacklog] at h ⊢
            omega
      · cases hs
  | register =>
      rw [step] at hs
      split at hs
      · rename_i hstage
        cases hs
        simpa [Balanced, pending, due, hstage] using h
      · cases hs

/-- An arrival has no event of its own when one is owed already. -/
theorem Balanced.arrive {lost : Nat} (h : Balanced lost s) (conn : Conn) :
    Balanced (lost + s.owed.toNat) { s with backlog := s.backlog ++ [conn], owed := true } := by
  simp [Balanced, pending] at h ⊢
  omega

/-- An `accept` that fails has a connection to take, and leaves it. -/
theorem Balanced.accept_failed {lost : Nat} (h : Balanced lost s)
    (hs : s.step (.accept false) = some s') : s.backlog ≠ [] ∧ Balanced (lost + 1) s' := by
  rw [step] at hs
  split at hs
  · rename_i hstage
    cases hs
    cases hbacklog : s.backlog with
    | nil =>
        simp [Balanced, pending, due, hstage, hbacklog] at h
        omega
    | cons conn backlog =>
        simp [Balanced, pending, due, acceptOnce, hstage, hbacklog] at h ⊢
        omega
  · cases hs

theorem Balanced.unique {lost lost' : Nat} (h : Balanced lost s) (h' : Balanced lost' s) :
    lost = lost' := by
  simp only [Balanced] at h h'
  omega

/-- There are never more events than connections. -/
theorem Balanced.step {lost : Nat} (h : Balanced lost s) {a : ListenStep}
    (hs : s.step a = some s') : ∃ lost', Balanced lost' s' := by
  cases a with
  | arrive conn =>
      cases hs
      exact ⟨_, h.arrive conn⟩
  | accept ok =>
      cases ok with
      | true => exact ⟨lost, h.handles (a := .accept true) rfl hs⟩
      | false => exact ⟨lost + 1, (h.accept_failed hs).2⟩
  | deliver task => exact ⟨lost, h.handles (a := .deliver task) trivial hs⟩
  | take => exact ⟨lost, h.handles (a := .take) trivial hs⟩
  | register => exact ⟨lost, h.handles (a := .register) trivial hs⟩

theorem Balanced.step_iff (h : Balanced 0 s) {a : ListenStep} (hs : s.step a = some s') :
    s.OneByOne a ↔ Balanced 0 s' := by
  cases a with
  | arrive conn =>
      cases hs
      have hnext := h.arrive conn
      cases howed : s.owed with
      | false => exact iff_of_true howed (by simpa [howed] using hnext)
      | true =>
          rw [howed] at hnext
          exact iff_of_false (by simp [OneByOne, howed]) fun h0 => nomatch hnext.unique h0
  | accept ok =>
      cases ok with
      | true => exact iff_of_true (Or.inl rfl) (h.handles (a := .accept true) rfl hs)
      | false =>
          obtain ⟨hbacklog, hnext⟩ := h.accept_failed hs
          exact iff_of_false (by simp [OneByOne, hbacklog]) fun h0 => nomatch hnext.unique h0
  | deliver task => exact iff_of_true trivial (h.handles (a := .deliver task) trivial hs)
  | take => exact iff_of_true trivial (h.handles (a := .take) trivial hs)
  | register => exact iff_of_true trivial (h.handles (a := .register) trivial hs)

/-! ## Handling everything -/

/-- How much is left to do before the socket is quiet. -/
def work (s : Listener) : Nat :=
  4 * s.owed.toNat + 3 * s.tasks.length +
    match s.stage with
    | .idle => 0
    | .accepting => 2
    | .registering _ => 1

theorem quiet_of_work (h : s.work = 0) : s.Quiet := by
  obtain ⟨backlog, owed, tasks, stage, accepted⟩ := s
  cases owed with
  | true => simp [work] at h
  | false =>
      cases tasks with
      | cons task tasks => simp [work] at h
      | nil =>
          cases stage with
          | idle => exact ⟨rfl, List.not_mem_nil, rfl⟩
          | accepting => simp [work] at h
          | registering connfd => simp [work] at h

/-- Some step goes on. -/
theorem exists_handles (h : s.work ≠ 0) :
    ∃ a s', Handles a ∧ s.step a = some s' ∧ s'.work < s.work := by
  obtain ⟨backlog, owed, tasks, stage, accepted⟩ := s
  cases stage with
  | accepting =>
      refine ⟨.accept true, _, rfl, rfl, ?_⟩
      cases backlog with
      | nil => simp [work, acceptOnce]
      | cons conn backlog => simp [work, acceptOnce]
  | registering connfd =>
      refine ⟨.register, _, trivial, rfl, ?_⟩
      simp [work]
  | idle =>
      cases tasks with
      | cons task tasks =>
          cases task with
          | listen =>
              refine ⟨.take, _, trivial, rfl, ?_⟩
              simp [work]
              omega
          | other =>
              refine ⟨.take, _, trivial, rfl, ?_⟩
              simp [work]
      | nil =>
          cases owed with
          | true =>
              refine ⟨.deliver .listen, _, trivial, rfl, ?_⟩
              simp [work, addTask]
          | false => simp [work] at h

variable (waiting) in
/-- The server comes to an end with the events that there are. -/
theorem exists_quiet (s : Listener) : ∃ bs s', (∀ a ∈ bs, Handles a) ∧
    (listener waiting).run s bs = some s' ∧ s'.Quiet := by
  induction hwork : s.work using Nat.strongRecOn generalizing s with
  | _ n ih =>
      by_cases hzero : s.work = 0
      · exact ⟨[], s, by simp, rfl, quiet_of_work hzero⟩
      · obtain ⟨a, s₁, ha, hs₁, hless⟩ := exists_handles hzero
        obtain ⟨bs, s', hbs, hrun, hquiet⟩ := ih s₁.work (hwork ▸ hless) s₁ rfl
        refine ⟨a :: bs, s', ?_, ?_, hquiet⟩
        · simpa [ha] using hbs
        · exact ((listener waiting).run_cons_eq_some).mpr ⟨s₁, hs₁, hrun⟩

theorem Balanced.run {lost : Nat} {bs : List ListenStep} (h : Balanced lost s)
    (hbs : ∀ a ∈ bs, Handles a) (hrun : (listener waiting).run s bs = some s') :
    Balanced lost s' := by
  induction bs generalizing s with
  | nil =>
      cases hrun
      exact h
  | cons a bs ih =>
      obtain ⟨s₁, hs₁, hrest⟩ := ((listener waiting).run_cons_eq_some).mp hrun
      have hfirst := h.handles (hbs a List.mem_cons_self) hs₁
      exact ih hfirst (fun b hb => hbs b (List.mem_cons_of_mem a hb)) hrest

/-! ## Every run -/

theorem balanced_start (waiting : List Conn) : Balanced (waiting.length - 1) (start waiting) := by
  cases waiting with
  | nil => simp [Balanced, start, pending, due]
  | cons conn waiting => simp [Balanced, start, pending, due]; omega

theorem exists_balanced {cs : List ListenStep}
    (hrun : (listener waiting).run (start waiting) cs = some s) : ∃ lost, Balanced lost s := by
  have hstep : ∀ s a s', (∃ lost, Balanced lost s) → (listener waiting).step s a = some s' →
      ∃ lost, Balanced lost s' := by
    rintro s a s' ⟨lost, h⟩ hs
    exact h.step hs
  exact (listener waiting).run_invariant hstep ⟨_, balanced_start waiting⟩ hrun

/-- In every state of the run that is quiet, or becomes so when the events that there are have been
handled, the backlog is empty. -/
def Remembers (waiting : List Conn) (steps : List ListenStep) : Prop :=
  ∀ cs bs s₁ s', cs <+: steps → (listener waiting).run (start waiting) cs = some s₁ →
    (∀ a ∈ bs, Handles a) → (listener waiting).run s₁ bs = some s' → s'.Quiet → s'.backlog = []

/-- What is left at the end of the events is what had no event before. -/
theorem remembers_iff_balanced (waiting : List Conn) (steps : List ListenStep) :
    Remembers waiting steps ↔ ∀ cs s₁, cs <+: steps →
      (listener waiting).run (start waiting) cs = some s₁ → Balanced 0 s₁ := by
  constructor
  · intro h cs s₁ hstart hrun
    obtain ⟨lost, hlost⟩ := exists_balanced hrun
    obtain ⟨bs, s', hbs, hrest, hquiet⟩ := exists_quiet waiting s₁
    have hempty := h cs bs s₁ s' hstart hrun hbs hrest hquiet
    have hend := (hlost.run hbs hrest).backlog_of_quiet hquiet
    rw [hempty, List.length_nil] at hend
    exact hend ▸ hlost
  · intro h cs bs s₁ s' hstart hrun hbs hrest hquiet
    have hend := ((h cs s₁ hstart hrun).run hbs hrest).backlog_of_quiet hquiet
    exact List.length_eq_zero_iff.mp hend

/-- No connection is forgotten in a run exactly when each of them arrived with no event owed, not more
than one was there before the socket was registered, and no `accept` failed to take one. -/
theorem remembers_iff_meets {steps : List ListenStep}
    (hrun : (listener waiting).run (start waiting) steps = some s) :
    Remembers waiting steps ↔
      waiting.length ≤ 1 ∧ (listener waiting).Meets OneByOne (start waiting) steps := by
  have hmeets := fun hstart : Balanced 0 (start waiting) =>
    (listener waiting).meets_iff_invariant (fun _ _ _ h hs => h.step_iff hs) hstart hrun
  rw [remembers_iff_balanced, ← balanced_start_iff]
  constructor
  · intro h
    have hstart := h [] (start waiting) List.nil_prefix rfl
    exact ⟨hstart, (hmeets hstart).mp h⟩
  · rintro ⟨hstart, hm⟩
    exact (hmeets hstart).mpr hm

/-- Two connections, one after the other. -/
theorem remembers_iff_meets_two :
    let steps : List ListenStep := [.arrive 0, .deliver .listen, .take, .arrive 1, .accept true,
      .register, .deliver .listen, .take, .accept true, .register]
    Remembers [] steps ↔ ([] : List Conn).length ≤ 1 ∧
      (listener []).Meets OneByOne (start []) steps :=
  remembers_iff_meets (s := ⟨[], false, [], .idle, [0, 1]⟩) (by decide +kernel)

/-- Two connections before the event is delivered: the second one stays in the backlog. -/
theorem forgotten_merged : ∃ s, (listener []).run (start []) [.arrive 0, .arrive 1,
    .deliver .listen, .take, .accept true, .register] = some s ∧ s.Quiet ∧ s.backlog = [1] :=
  ⟨⟨[1], false, [], .idle, [0]⟩, by decide +kernel, by simp [Quiet], rfl⟩

end Listener

end CmdTran
