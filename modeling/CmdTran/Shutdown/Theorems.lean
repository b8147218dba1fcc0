import Mathlib.Algebra.BigOperators.Fin
import Mathlib.Algebra.Order.BigOperators.Group.Finset
import CmdTran.Shutdown.Lemmas.Steps

/-!
# What `ShutDown` wakes up

`RuningFlag` is cleared without the lock. A thread that has found it true may therefore begin to wait after
the broadcast, and then nobody wakes it up; but it has to have been on its way to waiting at the broadcast.
-/

namespace CmdTran

/-- How many steps it is to the end of the thread at most, when `RuningFlag` is false. -/
def RoutineStage.rank {P : Type} : RoutineStage P → Nat
  | running _ => 9
  | calling => 8
  | locking _ => 7
  | testing _ => 6
  | checking _ => 5
  | deciding _ => 4
  | taking _ => 3
  | leaving _ => 2
  | returned _ => 1
  | sleeping _ | waiting _ | exited => 0

/-- How many steps `ShutDown` has to take after the broadcast. -/
def ShutDownStage.rank (n : Nat) : ShutDownStage → Nat
  | joining i => n - i + 1
  | _ => 0

namespace WorkerThreads

variable {P : Type} {n : Nat} {hook : Option (P → Bool)} {null : P} {s s' : WorkerThreads P n}
  {w : Fin n} {stage stage' : RoutineStage P} {lock' : Option (Fin n)} {tasks : List P}

variable [DecidableEq P]

/-! ## After the broadcast -/

/-- `RuningFlag` is false and will stay so, and no thread is on its way to waiting. -/
structure Awake (s : WorkerThreads P n) : Prop where
  inv : Inv s
  joining : s.shutDown.isJoining = true
  stages : ∀ w, (s.stage w).isSleeping = false ∧ (s.stage w).isWaiting = false

omit [DecidableEq P] in
theorem Awake.cleared (h : Awake s) : s.runingFlag = false := by
  apply h.inv.cleared
  have hjoining := h.joining
  cases hstage : s.shutDown with
  | joining i | returned => rfl
  | _ =>
      rw [hstage] at hjoining
      cases hjoining

omit [DecidableEq P] in
/-- A thread that finds `RuningFlag` false does not go to sleep. -/
theorem Turn.awake (h : Turn hook null s w stage stage' lock' tasks) (hflag : s.runingFlag = false)
    (hstage : stage.isSleeping = false) : stage'.isSleeping = false ∧ stage'.isWaiting = false := by
  cases h with
  | sleep htrue =>
      rw [hflag] at htrue
      cases htrue
  | wait => cases hstage
  | _ => exact ⟨rfl, rfl⟩

omit [DecidableEq P] in
theorem goto_stages (hs : ∀ w, (s.stage w).isSleeping = false ∧ (s.stage w).isWaiting = false)
    (h : stage'.isSleeping = false ∧ stage'.isWaiting = false) (v : Fin n) :
    ((s.goto w stage').stage v).isSleeping = false ∧ ((s.goto w stage').stage v).isWaiting = false := by
  by_cases hvw : v = w
  · subst hvw
    rw [goto_stage_self]
    exact h
  · rw [goto_stage_of_ne hvw]
    exact hs v

theorem Awake.step {a : ThreadsStep P n} (h : Awake s) (hs : s.step hook null a = some s') :
    Awake s' := by
  have hinv := h.inv.step hs
  cases step_cases hs with
  | call _ => exact ⟨hinv, h.joining, goto_stages h.stages ⟨rfl, rfl⟩⟩
  | goOn hturn => exact ⟨hinv, h.joining, goto_stages h.stages (hturn.awake h.cleared (h.stages _).1)⟩
  | wake hwaiting =>
      rw [(h.stages _).2] at hwaiting
      cases hwaiting
  | addTask _ => exact ⟨hinv, h.joining, h.stages⟩
  | shutDown hturn =>
      have hjoining := h.joining
      cases hturn with
      | goOn _ hstage => exact ⟨hinv, hstage hjoining, h.stages⟩
      | clear hclearing =>
          rw [hclearing] at hjoining
          cases hjoining
      | broadcast hbroadcasting =>
          rw [hbroadcasting] at hjoining
          cases hjoining

/-! ## Every thread comes to its end -/

def rank (s : WorkerThreads P n) : Nat := ∑ w, (s.stage w).rank + s.shutDown.rank n

omit [DecidableEq P] in
theorem Turn.rank_lt (h : Turn hook null s w stage stage' lock' tasks) (hflag : s.runingFlag = false) :
    stage.isSleeping = false → stage'.rank < stage.rank := by
  intro hstage
  cases h with
  | sleep htrue | decide htrue | skip htrue | run htrue =>
      rw [hflag] at htrue
      cases htrue
  | wait => cases hstage
  | _ => simp [RoutineStage.rank]

omit [DecidableEq P] in
theorem rank_goto (hlt : stage'.rank < (s.stage w).rank) : (s.goto w stage').rank < s.rank := by
  apply Nat.add_lt_add_right
  apply Finset.sum_lt_sum
  · intro v _
    by_cases hvw : v = w
    · subst hvw
      rw [goto_stage_self]
      exact Nat.le_of_lt hlt
    · rw [goto_stage_of_ne hvw]
  · refine ⟨w, Finset.mem_univ w, ?_⟩
    rw [goto_stage_self]
    exact hlt

/-- A thread that has the lock can go on. -/
theorem Inv.turn_holds (h : Inv s) (hholds : (s.stage w).holds = true) :
    ∃ r, s.turn hook null w (s.stage w) = some r := by
  have htasks := h.taskList w
  cases hstage : s.stage w with
  | taking ret =>
      rw [hstage] at htasks
      obtain ⟨task, rest, hcons⟩ := List.exists_cons_of_ne_nil (htasks rfl)
      rw [turn, hcons]
      cases hook with
      | none => exact ⟨_, rfl⟩
      | some accepts => exact ⟨_, rfl⟩
  | testing ret | checking ret | sleeping ret | deciding ret | leaving ret => exact ⟨_, rfl⟩
  | _ =>
      rw [hstage] at hholds
      cases hholds

theorem Awake.goOn (h : Awake s) {r : RoutineStage P × Option (Fin n) × List P}
    (hturn : s.turn hook null w (s.stage w) = some r) :
    ∃ a s', s.step hook null a = some s' ∧ s'.rank < s.rank := by
  refine ⟨.goOn w, _, congrArg (Option.map _) hturn, ?_⟩
  exact rank_goto ((turn_cases hturn).rank_lt h.cleared (h.stages w).1)

/-- Some thread can go on as long as one has not come to its end. -/
theorem Awake.thread_goesOn (h : Awake s) (hw : s.stage w ≠ .exited) :
    ∃ a s', s.step hook null a = some s' ∧ s'.rank < s.rank := by
  cases hlock : s.lock with
  | some v =>
      have hturn : ∃ r, s.turn hook null v (s.stage v) = some r := h.inv.turn_holds ((h.inv.lock v).mpr hlock)
      obtain ⟨r, hr⟩ := hturn
      exact h.goOn hr
  | none =>
      have hfree : (s.stage w).holds = false := by
        refine Bool.eq_false_of_not_eq_true fun hholds => ?_
        rw [(h.inv.lock w).mp hholds] at hlock
        cases hlock
      have hstages := h.stages w
      cases hstage : s.stage w with
      | calling =>
          refine ⟨.call w null, s.goto w (.locking null), ?_, rank_goto ?_⟩
          · rw [WorkerThreads.step, hstage]
          · rw [hstage]
            exact Nat.lt_succ_self 7
      | locking ret =>
          have hturn : s.turn hook null w (s.stage w) = some (.testing ret, some w, s.taskList) := by
            rw [hstage, turn, if_pos hlock]
          exact h.goOn hturn
      | returned ret | running task =>
          have hturn := congrArg (s.turn hook null w) hstage
          exact h.goOn (hturn.trans rfl)
      | exited => exact absurd hstage hw
      | waiting ret =>
          rw [hstage] at hstages
          cases hstages.2
      | _ =>
          rw [hstage] at hfree
          cases hfree

/-- `ShutDown` joins the next thread if that has come to its end; otherwise some thread goes on. -/
theorem Awake.progress (h : Awake s) (hreturned : s.shutDown ≠ .returned) :
    ∃ a s', s.step hook null a = some s' ∧ s'.rank < s.rank := by
  have hjoining := h.joining
  cases hstage : s.shutDown with
  | joining i =>
      by_cases hi : i < n
      · by_cases hexited : s.stage ⟨i, hi⟩ = .exited
        · refine ⟨.shutDown, { s with shutDown := .joining (i + 1) }, ?_, ?_⟩
          · rw [WorkerThreads.step, hstage, shutDownStep, dif_pos hi, hexited]
          · rw [rank, rank, hstage]
            exact Nat.add_lt_add_left (Nat.succ_lt_succ (Nat.sub_succ_lt_self n i hi)) _
        · exact h.thread_goesOn hexited
      · refine ⟨.shutDown, { s with shutDown := .returned }, ?_, ?_⟩
        · rw [WorkerThreads.step, hstage, shutDownStep, dif_neg hi]
        · rw [rank, rank, hstage]
          exact Nat.add_lt_add_left (Nat.succ_pos _) _
  | returned => exact absurd hstage hreturned
  | _ =>
      rw [hstage] at hjoining
      cases hjoining

theorem Awake.joinable {taskList : List P} {runingFlag : Bool} (h : Awake s) :
    Joinable (workerThreads n hook null taskList runingFlag) s := by
  refine ⟨fun w => (h.stages w).2, ?_⟩
  refine StepSystem.Steps.of_rank rank (fun s h hgoal => ?_) s h
  obtain ⟨a, s', hs, hlt⟩ := h.progress hgoal
  exact ⟨a, s', hs, h.step hs, hlt⟩

/-! ## The broadcast -/

omit [DecidableEq P] in
theorem woken_isWaiting (stage : RoutineStage P) : stage.woken.isWaiting = false := by
  cases stage with
  | _ => rfl

omit [DecidableEq P] in
theorem woken_isSleeping (stage : RoutineStage P) : stage.woken.isSleeping = stage.isSleeping := by
  cases stage with
  | _ => rfl

omit [DecidableEq P] in
theorem step_broadcasting (h : s.shutDown = .broadcasting) :
    s.shutDownStep s.shutDown = some s.broadcast := by
  rw [h]
  rfl

omit [DecidableEq P] in
theorem Inv.broadcast (h : Inv s) (hbroadcasting : s.shutDown = .broadcasting)
    (hsleeping : s.NoneSleeping) : Awake s.broadcast := by
  refine ⟨h.shutDown (.broadcast hbroadcasting), rfl, fun w => ⟨?_, woken_isWaiting _⟩⟩
  exact (woken_isSleeping _).trans (hsleeping w)

/-- A thread on its way to waiting gets there. -/
theorem isWaiting_of_isSleeping (h : (s.stage w).isSleeping = true) :
    ∃ s', s.step hook null (.goOn w) = some s' ∧ (s'.stage w).isWaiting = true := by
  cases hstage : s.stage w with
  | sleeping ret =>
      refine ⟨{ s with lock := none }.goto w (.waiting ret), ?_, ?_⟩
      · rw [WorkerThreads.step, hstage]
        rfl
      · rw [goto_stage_self]
        rfl
  | _ =>
      rw [hstage] at h
      cases h

/-- After the broadcast all threads stay awake, and `ShutDown` can come to its end, exactly when at the
broadcast no thread is between its tests and its wait. -/
theorem joinable_iff (hook : Option (P → Bool)) (null : P) (taskList : List P) (runingFlag : Bool)
    (as : List (ThreadsStep P n)) (s : WorkerThreads P n)
    (hr : (workerThreads n hook null taskList runingFlag).run (.start taskList runingFlag) as = some s)
    (hbroadcasting : s.shutDown = .broadcasting) :
    (∀ bs s', (workerThreads n hook null taskList runingFlag).run s (.shutDown :: bs) = some s' →
      Joinable (workerThreads n hook null taskList runingFlag) s') ↔ s.NoneSleeping := by
  have hs : (workerThreads n hook null taskList runingFlag).step s .shutDown = some s.broadcast :=
    step_broadcasting hbroadcasting
  constructor
  · intro hjoinable w
    refine Bool.eq_false_of_not_eq_true fun hsleeping => ?_
    have hsleeping : (s.broadcast.stage w).isSleeping = true := (woken_isSleeping _).trans hsleeping
    obtain ⟨s', hwait, hwaiting⟩ :
        ∃ s', s.broadcast.step hook null (.goOn w) = some s' ∧ (s'.stage w).isWaiting = true :=
      isWaiting_of_isSleeping hsleeping
    have hrun : (workerThreads n hook null taskList runingFlag).run s [.shutDown, .goOn w] = some s' := by
      rw [StepSystem.run_cons, hs]
      exact congrArg (fun o => o.bind some) hwait
    have hawake := (hjoinable [.goOn w] s' hrun).awake w
    rw [hwaiting] at hawake
    cases hawake
  · intro hsleeping bs s' hrun
    obtain ⟨s₁, hs₁, hrun⟩ := StepSystem.run_cons_eq_some _ |>.mp hrun
    cases hs.symm.trans hs₁
    have hawake := (inv_of_run hr).broadcast hbroadcasting hsleeping
    have hawake : Awake s' := StepSystem.run_invariant _ (fun _ _ _ h hs => h.step hs) hawake hrun
    exact hawake.joinable

/-- One thread has the lock at the broadcast, the other wants it. -/
theorem joinable_iff_twoThreads :
    ∃ s, (workerThreads 2 (none : Option (Nat → Bool)) 0 [] true).run (.start [] true)
        [.call 1 8, .goOn 1, .shutDown, .shutDown, .call 0 7, .shutDown, .shutDown] = some s ∧
      ∀ bs s', (workerThreads 2 none 0 [] true).run s (.shutDown :: bs) = some s' →
        Joinable (workerThreads 2 none 0 [] true) s' := by
  refine ⟨_, rfl, (joinable_iff none 0 [] true
    [.call 1 8, .goOn 1, .shutDown, .shutDown, .call 0 7, .shutDown, .shutDown] _ rfl rfl).mpr ?_⟩
  exact Fin.forall_fin_two.mpr ⟨rfl, rfl⟩

/-- A thread finds the list empty and `RuningFlag` true; then comes `ShutDown` up to the broadcast, and only
then the thread begins to wait. -/
theorem not_joinable_oneThread :
    ¬ ∀ as s bs s', (workerThreads 1 (none : Option (Nat → Bool)) 0 [] true).run (.start [] true) as = some s →
        s.shutDown = .broadcasting →
        (workerThreads 1 none 0 [] true).run s (.shutDown :: bs) = some s' →
        Joinable (workerThreads 1 none 0 [] true) s' := by
  intro h
  have hawake := (h [.call 0 7, .goOn 0, .goOn 0, .goOn 0, .shutDown, .shutDown, .shutDown, .shutDown] _
    [.goOn 0] _ rfl rfl rfl).awake 0
  cases hawake

end WorkerThreads

end CmdTran
