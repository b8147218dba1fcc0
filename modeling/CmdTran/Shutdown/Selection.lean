import CmdTran.Shutdown.Lemmas.Steps

/-!
# What `GetTask` hands out

A hook may accept no task of the list. `GetTask` then gives back its local variable `ret`, which nobody
has assigned, and `_ThreadRoutine` runs that unless it happens to be `NULL`.
-/

namespace CmdTran

variable {P : Type} {n : Nat} {hook : Option (P → Bool)} {null : P}

/-! ## One selection -/

/-- The loop takes the first task that the hook accepts, or comes to the end of the list. -/
theorem selectLoop_cases (accepts : P → Bool) (ret : P) (taskList : List P) :
    (∃ us task zs, taskList = us ++ task :: zs ∧ accepts task = true ∧ (∀ u ∈ us, accepts u = false) ∧
      selectLoop accepts ret taskList = (task, us ++ zs)) ∨
    (∀ task ∈ taskList, accepts task = false) ∧ selectLoop accepts ret taskList = (ret, taskList) := by
  induction taskList with
  | nil => exact .inr ⟨nofun, rfl⟩
  | cons task taskList ih =>
      rw [selectLoop]
      split
      · rename_i haccepts
        exact .inl ⟨[], task, taskList, rfl, haccepts, nofun, rfl⟩
      · rename_i haccepts
        have hrefused : accepts task = false := Bool.eq_false_of_not_eq_true haccepts
        rcases ih with ⟨us, found, zs, rfl, hfound, hus, heq⟩ | ⟨hnone, heq⟩
        · refine .inl ⟨task :: us, found, zs, rfl, hfound, ?_, ?_⟩
          · exact List.forall_mem_cons.mpr ⟨hrefused, hus⟩
          · rw [heq]
            rfl
        · refine .inr ⟨List.forall_mem_cons.mpr ⟨hrefused, hnone⟩, ?_⟩
          rw [heq]

namespace WorkerThreads

/-- `GetTask` takes a task out of the list, or the hook accepts none and nothing is assigned. -/
theorem selectTask_cases {ret : P} {taskList : List P} {taken : P × List P}
    (h : selectTask hook ret taskList = some taken) :
    TakenFrom hook taskList taken.1 taken.2 ∨
      (∀ task ∈ taskList, ¬Accepted hook task) ∧ taken = (ret, taskList) := by
  cases hook with
  | none =>
      cases taskList with
      | nil => cases h
      | cons task taskList =>
          cases h
          exact .inl ⟨[], taskList, rfl, rfl, trivial, nofun⟩
  | some accepts =>
      cases h
      rcases selectLoop_cases accepts ret taskList with ⟨us, task, zs, rfl, htask, hus, heq⟩ | ⟨hnone, heq⟩
      · rw [heq]
        refine .inl ⟨us, zs, rfl, rfl, htask, fun u hu haccepted => ?_⟩
        exact Bool.false_ne_true ((hus u hu).symm.trans haccepted)
      · rw [heq]
        refine .inr ⟨fun task htask haccepted => ?_, rfl⟩
        exact Bool.false_ne_true ((hnone task htask).symm.trans haccepted)

/-- Where some task is accepted, or `ret` is `NULL` from the start, `GetTask` gives back what it should. -/
theorem selectTask_selects {ret : P} {taskList : List P} {taken : P × List P}
    (h : selectTask hook ret taskList = some taken)
    (hselects : (∃ task ∈ taskList, Accepted hook task) ∨ ret = null) :
    taken.1 = null ∧ taken.2 = taskList ∨ TakenFrom hook taskList taken.1 taken.2 := by
  rcases selectTask_cases h with htaken | ⟨hnone, rfl⟩
  · exact .inr htaken
  · rcases hselects with ⟨task, htask, haccepted⟩ | hnull
    · exact absurd haccepted (hnone task htask)
    · exact .inl ⟨hnull, rfl⟩

theorem TakenFrom.mem {taskList taskList' : List P} {ret : P} (h : TakenFrom hook taskList ret taskList') :
    ret ∈ taskList ∧ Accepted hook ret ∧ taskList' ⊆ taskList := by
  obtain ⟨us, zs, rfl, rfl, haccepted, _⟩ := h
  refine ⟨List.mem_append_right us List.mem_cons_self, haccepted, ?_⟩
  exact ((List.sublist_cons_self ret zs).append_left us).subset

end WorkerThreads

/-! ## What has been submitted -/

/-- What `GetTask` gives back, or has given back. -/
def RoutineStage.result : RoutineStage P → Option P
  | leaving ret | returned ret => some ret
  | _ => none

namespace WorkerThreads

variable {s s' : WorkerThreads P n} {w : Fin n} {stage stage' : RoutineStage P} {lock' : Option (Fin n)}
  {tasks : List P}

/-- As long as `RuningFlag` is true, everything in the list or handed out is `NULL` or has been submitted. -/
structure Known (null : P) (s : WorkerThreads P n) : Prop where
  taskList : s.taskList ⊆ s.submitted
  result : ∀ w ret, (s.stage w).result = some ret → s.runingFlag = true → ret = null ∨ ret ∈ s.submitted

theorem known_start (taskList : List P) (runingFlag : Bool) :
    Known null (start taskList runingFlag : WorkerThreads P n) :=
  ⟨List.Subset.refl _, nofun⟩

theorem Known.move (h : Known null s) (htasks : tasks ⊆ s.taskList)
    (hresult : ∀ ret, stage'.result = some ret → s.runingFlag = true → ret = null ∨ ret ∈ s.submitted) :
    Known null ({ s with lock := lock', taskList := tasks }.goto w stage') := by
  refine ⟨List.Subset.trans htasks h.taskList, fun v ret => ?_⟩
  by_cases hvw : v = w
  · subst hvw
    rw [goto_stage_self]
    exact hresult ret
  · rw [goto_stage_of_ne hvw]
    exact h.result v ret

/-- A turn that hands out what it should leads to a known result. -/
theorem Turn.result (h : Turn hook null s w stage stage' lock' tasks)
    (hs : ∀ ret, stage.result = some ret → s.runingFlag = true → ret = null ∨ ret ∈ s.submitted)
    (htasks : s.taskList ⊆ s.submitted)
    (hselects : ∀ ret, stage = .taking ret → s.runingFlag = true →
      (∃ task ∈ s.taskList, Accepted hook task) ∨ ret = null)
    (ret : P) (hret : stage'.result = some ret) (hflag : s.runingFlag = true) :
    ret = null ∨ ret ∈ s.submitted := by
  cases h with
  | stop hstop =>
      rw [hflag] at hstop
      cases hstop
  | unlock => exact hs ret hret hflag
  | take htake =>
      cases hret
      rcases selectTask_selects htake (hselects _ rfl hflag) with ⟨hnull, _⟩ | htaken
      · exact .inl hnull
      · exact .inr (htasks htaken.mem.1)
  | _ => cases hret

theorem Turn.subset (h : Turn hook null s w stage stage' lock' tasks) : tasks ⊆ s.taskList := by
  cases h with
  | take htake =>
      rcases selectTask_cases htake with htaken | ⟨_, rfl⟩
      · exact htaken.mem.2.2
      · exact List.Subset.refl _
  | _ => exact List.Subset.refl _

theorem woken_result (stage : RoutineStage P) : stage.woken.result = stage.result := by
  cases stage with
  | _ => rfl

variable [DecidableEq P]

theorem Known.step {a : ThreadsStep P n} (h : Known null s) (hs : s.step hook null a = some s')
    (hselects : Selects hook null s a) : Known null s' := by
  cases step_cases hs with
  | call _ =>
      apply h.move (List.Subset.refl _)
      intro ret hret
      cases hret
  | goOn hturn => exact h.move hturn.subset (hturn.result (h.result _) h.taskList hselects)
  | wake _ =>
      refine h.move (List.Subset.refl _) ?_
      rw [woken_result]
      exact h.result _
  | addTask _ =>
      constructor
      · intro t ht
        exact (List.mem_append.mp ht).elim (fun ht => List.mem_append_left _ (h.taskList ht))
          (List.mem_append_right _)
      · intro w ret hret hflag
        exact (h.result w ret hret hflag).imp_right (List.mem_append_left _)
  | shutDown hturn =>
      cases hturn with
      | goOn _ _ => exact ⟨h.taskList, h.result⟩
      | clear _ => exact ⟨h.taskList, nofun⟩
      | broadcast _ =>
          refine ⟨h.taskList, fun w ret => ?_⟩
          rw [broadcast, woken_result]
          exact h.result w ret

/-! ## What is handed out -/

omit [DecidableEq P] in
theorem Turn.handsOut (h : Turn hook null s w stage stage' lock' tasks) (hflag : s.runingFlag = true)
    (hselects : ∀ ret, stage = .taking ret → s.runingFlag = true →
      (∃ task ∈ s.taskList, Accepted hook task) ∨ ret = null)
    (ret : P) (hret : stage' = .leaving ret) :
    ret = null ∧ tasks = s.taskList ∨ TakenFrom hook s.taskList ret tasks := by
  cases h with
  | stop hstop =>
      rw [hflag] at hstop
      cases hstop
  | take htake =>
      cases hret
      exact selectTask_selects htake (hselects _ rfl hflag)
  | _ => cases hret

omit [DecidableEq P] in
theorem Turn.started (h : Turn hook null s w stage stage' lock' tasks) {task : P}
    (hrunning : stage' = .running task) :
    stage = .returned task ∧ s.runingFlag = true ∧ null ≠ task := by
  cases h with
  | run hflag hnull =>
      cases hrunning
      exact ⟨rfl, hflag, hnull⟩
  | _ => cases hrunning

theorem handsOut_of_selects {a : ThreadsStep P n} (h : Known null s)
    (hs : s.step hook null a = some s') (hselects : Selects hook null s a) : HandsOut hook null s a s' := by
  cases a with
  | goOn w =>
      obtain ⟨r, hturn, rfl⟩ := Option.map_eq_some_iff.mp hs
      have hturn := turn_cases hturn
      rw [HandsOut, goto_stage_self]
      refine ⟨fun ret hret hflag => hturn.handsOut hflag hselects ret hret, fun task hrunning => ?_⟩
      obtain ⟨hreturned, hflag, hnull⟩ := hturn.started hrunning
      rcases h.result w task (congrArg RoutineStage.result hreturned) hflag with heq | hmem
      · exact absurd heq.symm hnull
      · exact hmem
  | _ => trivial

theorem selects_of_handsOut {a : ThreadsStep P n} (hs : s.step hook null a = some s')
    (h : HandsOut hook null s a s') : Selects hook null s a := by
  cases a with
  | goOn w =>
      intro ret hstage hflag
      rw [WorkerThreads.step, hstage] at hs
      obtain ⟨r, hturn, rfl⟩ := Option.map_eq_some_iff.mp hs
      obtain ⟨taken, htaken, rfl⟩ := Option.map_eq_some_iff.mp hturn
      rcases selectTask_cases htaken with hfrom | ⟨_, rfl⟩
      · exact .inl ⟨taken.1, hfrom.mem.1, hfrom.mem.2.1⟩
      · rcases h.1 ret goto_stage_self hflag with ⟨hnull, _⟩ | hfrom
        · exact .inr hnull
        · exact .inl ⟨ret, hfrom.mem.1, hfrom.mem.2.1⟩
  | _ => trivial

instance decidableAccepted : (hook : Option (P → Bool)) → (task : P) → Decidable (Accepted hook task)
  | none, _ => isTrue trivial
  | some accepts, task => inferInstanceAs (Decidable (accepts task = true))

instance decidableSelects : (a : ThreadsStep P n) → Decidable (Selects hook null s a)
  | .goOn w =>
      match h : s.stage w with
      | .taking ret =>
          decidable_of_iff
            (s.runingFlag = true → (∃ task ∈ s.taskList, Accepted hook task) ∨ ret = null)
            ⟨fun hs _ hret => RoutineStage.taking.inj (h.symm.trans hret) ▸ hs, fun hs => hs ret h⟩
      | .calling | .locking _ | .testing _ | .checking _ | .sleeping _ | .waiting _ | .deciding _
      | .leaving _ | .returned _ | .running _ | .exited =>
          isTrue fun _ hret => nomatch h.symm.trans hret
  | .call _ _ | .wake _ | .addTask _ | .shutDown => isTrue trivial

/-- `GetTask` hands out what it removed or `NULL`, and nothing is run that was not submitted, exactly when it
always finds an accepted task, or has `NULL` in `ret` by luck. -/
theorem handsOut_iff (hook : Option (P → Bool)) (null : P) (taskList : List P) (runingFlag : Bool)
    (as : List (ThreadsStep P n)) (s : WorkerThreads P n)
    (hr : (workerThreads n hook null taskList runingFlag).run (.start taskList runingFlag) as = some s) :
    (∀ bs a s₁ s₂, bs ++ [a] <+: as →
      (workerThreads n hook null taskList runingFlag).run (.start taskList runingFlag) bs = some s₁ →
      (workerThreads n hook null taskList runingFlag).step s₁ a = some s₂ → HandsOut hook null s₁ a s₂) ↔
    (workerThreads n hook null taskList runingFlag).Meets (Selects hook null) (.start taskList runingFlag)
      as := by
  have hknown : Known null (start taskList runingFlag : WorkerThreads P n) := known_start taskList runingFlag
  refine StepSystem.meets_iff_forall_steps _ (HandsOut hook null) ?_ ?_ hknown hr
  · intro s a s' h hs hselects
    exact ⟨handsOut_of_selects h hs hselects, h.step hs hselects⟩
  · intro s a s' _ hs hgood
    exact selects_of_handsOut hs hgood

/-- The hook accepts even tasks only, and the second task is one. -/
theorem handsOut_iff_even :
    ((workerThreads 1 (some (· % 2 == 0)) 0 [5, 6] true).run (.start [5, 6] true)
      [.call 0 9, .goOn 0, .goOn 0, .goOn 0, .goOn 0, .goOn 0, .goOn 0]).map (·.ran) = some [6] ∧
    ∀ bs a s₁ s₂, bs ++ [a] <+: [.call 0 9, .goOn 0, .goOn 0, .goOn 0, .goOn 0, .goOn 0, .goOn 0] →
      (workerThreads 1 (some (· % 2 == 0)) 0 [5, 6] true).run (.start [5, 6] true) bs = some s₁ →
      (workerThreads 1 (some (· % 2 == 0)) 0 [5, 6] true).step s₁ a = some s₂ →
      HandsOut (some (· % 2 == 0)) 0 s₁ a s₂ :=
  ⟨by decide, (handsOut_iff (some (· % 2 == 0)) 0 [5, 6] true
    [.call 0 9, .goOn 0, .goOn 0, .goOn 0, .goOn 0, .goOn 0, .goOn 0] _ rfl).mpr (by decide)⟩

/-- The hook accepts nothing; the thread runs what happened to be in `ret`. -/
theorem not_handsOut_refused :
    ¬ ∀ as s₁ s₂, (workerThreads 1 (some fun _ => false) 0 [5] true).run (.start [5] true) as = some s₁ →
      (workerThreads 1 (some fun _ => false) 0 [5] true).step s₁ (.goOn 0) = some s₂ →
      HandsOut (some fun _ => false) 0 s₁ (.goOn 0) s₂ := by
  intro h
  have hrun := (h [.call 0 9, .goOn 0, .goOn 0, .goOn 0, .goOn 0, .goOn 0] _ _ rfl rfl).2 9 rfl
  revert hrun
  decide

end WorkerThreads

end CmdTran
