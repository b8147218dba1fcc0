import Mathlib.Algebra.BigOperators.Fin
import CmdTran.Lib.Tables
import CmdTran.Shutdown.Theorems
import CmdTran.Signals.Basic

/-!
# No signal is lost

A thread begins to wait only while the list is empty, and every task that comes after that brings a signal.
As long as the pool is not shut down, a task in the list is therefore attended to; and left alone, the
threads run everything there is to run, however they are scheduled.
-/

namespace CmdTran

/-! ## Stages -/

namespace RoutineStage

variable {P : Type}

/-- The thread has found the list empty, and has the lock. -/
def foundEmpty : RoutineStage P → Bool
  | checking _ | sleeping _ => true
  | _ => false

/-- What the thread has taken out of the list and not begun to run. -/
def inHand : RoutineStage P → List P
  | leaving ret | returned ret => [ret]
  | _ => []

/-- How many steps it is until the thread waits, at most, if it finds no task. -/
def toWaiting : RoutineStage P → Nat
  | leaving _ => 8
  | returned _ => 7
  | running _ => 6
  | calling => 5
  | locking _ => 4
  | testing _ => 3
  | checking _ | deciding _ => 2
  | sleeping _ | taking _ => 1
  | waiting _ | exited => 0

theorem holds_of_foundEmpty {stage : RoutineStage P} (h : stage.foundEmpty = true) : stage.holds = true := by
  cases stage with
  | checking ret | sleeping ret => rfl
  | _ => cases h

end RoutineStage

namespace WorkerThreads

variable {P : Type} {n : Nat} {null : P} {s s' : WorkerThreads P n} {w : Fin n}
  {stage stage' : RoutineStage P} {lock' : Option (Fin n)} {tasks : List P}

theorem Turn.foundEmpty (h : Turn none null s w stage stage' lock' tasks)
    (hs : stage.foundEmpty = true → s.taskList = []) (hfound : stage'.foundEmpty = true) : tasks = [] := by
  cases h with
  | empty hempty => exact hempty
  | sleep _ => exact hs rfl
  | _ => cases hfound

theorem Turn.exited (h : Turn none null s w stage .exited lock' tasks) : s.runingFlag = false := by
  cases h with
  | exit hflag => exact hflag

/-- A thread that is about to wait has found the list empty. -/
theorem Turn.isWaiting (h : Turn none null s w stage stage' lock' tasks) (hwaiting : stage'.isWaiting = true) :
    stage.foundEmpty = true ∧ tasks = s.taskList := by
  cases h with
  | wait => exact ⟨rfl, rfl⟩
  | _ => cases hwaiting

theorem selectTask_none {ret : P} {taskList : List P} {taken : P × List P}
    (h : selectTask none ret taskList = some taken) : taskList = taken.1 :: taken.2 := by
  cases taskList with
  | nil => cases h
  | cons task rest =>
      cases h
      rfl

theorem Turn.toWaiting_lt (h : Turn none null s w stage stage' lock' tasks) (hflag : s.runingFlag = true) :
    stage'.toWaiting + 8 * tasks.length < stage.toWaiting + 8 * s.taskList.length := by
  cases h with
  | endLoop hfalse | stop hfalse | exit hfalse =>
      rw [hflag] at hfalse
      cases hfalse
  | take htaken =>
      rw [selectTask_none htaken]
      simp only [RoutineStage.toWaiting, List.length_cons]
      omega
  | _ =>
      simp only [RoutineStage.toWaiting]
      omega

variable [DecidableEq P]

/-- A task is in the list, in the hands of a thread, or has begun to run. -/
theorem Turn.conserves (h : Turn none null s w stage stage' lock' tasks) (hflag : s.runingFlag = true)
    {t : P} (ht : t ≠ null) :
    stage'.started.count t + tasks.count t + stage'.inHand.count t =
      s.taskList.count t + stage.inHand.count t := by
  cases h with
  | endLoop hfalse | stop hfalse | exit hfalse =>
      rw [hflag] at hfalse
      cases hfalse
  | take htaken =>
      rw [selectTask_none htaken]
      simp only [RoutineStage.started, RoutineStage.inHand, List.count_cons, List.count_nil]
      omega
  | skip _ hnull =>
      have hne : ¬null = t := fun heq => ht heq.symm
      simp [RoutineStage.started, RoutineStage.inHand, ← hnull, hne]
  | _ =>
      simp only [RoutineStage.started, RoutineStage.inHand, List.count_nil]
      omega

end WorkerThreads

/-! ## The invariant -/

namespace SignalledThreads

variable {P : Type} [DecidableEq P] {n : Nat} {null : P} {s s' : SignalledThreads P n}

structure Inv (null : P) (s : SignalledThreads P n) : Prop where
  threads : s.threads.Inv
  foundEmpty : ∀ w, (s.threads.stage w).foundEmpty = true → s.threads.taskList = []
  exited : ∀ w, s.threads.stage w = .exited → s.threads.runingFlag = false
  attended : s.threads.runingFlag = true → s.threads.taskList ≠ [] → s.Attended
  conserved : s.threads.runingFlag = true → ∀ t, t ≠ null →
    s.threads.submitted.count t = s.threads.ran.count t + s.threads.taskList.count t +
      ∑ w, (s.threads.stage w).inHand.count t

theorem inv_start : Inv null (signalledThreads n null).start := by
  refine ⟨WorkerThreads.inv_start [] true, fun _ _ => rfl, nofun, fun _ hne => absurd rfl hne, ?_⟩
  intro _ t _
  simp [signalledThreads, WorkerThreads.start, RoutineStage.inHand]

/-- One thread moves. -/
theorem Inv.move (h : Inv null s) {w : Fin n} {stage' : RoutineStage P} {lock' : Option (Fin n)} {tasks : List P}
    {signals : Nat}
    (hthreads : ({ s.threads with lock := lock', taskList := tasks }.goto w stage').Inv)
    (hfound : stage'.foundEmpty = true → tasks = [])
    (hothers : tasks = s.threads.taskList ∨ (s.threads.stage w).holds = true)
    (hexited : stage' = .exited → s.threads.runingFlag = false)
    (hwaiting : stage'.isWaiting = true → tasks = [])
    (hconserves : s.threads.runingFlag = true → ∀ t, t ≠ null →
      stage'.started.count t + tasks.count t + stage'.inHand.count t =
        s.threads.taskList.count t + (s.threads.stage w).inHand.count t) :
    Inv null ⟨{ s.threads with lock := lock', taskList := tasks }.goto w stage', signals⟩ := by
  refine ⟨hthreads, ?_, ?_, ?_, ?_⟩
  · intro v hv
    by_cases hvw : v = w
    · subst hvw
      rw [WorkerThreads.goto_stage_self] at hv
      exact hfound hv
    · rw [WorkerThreads.goto_stage_of_ne hvw] at hv
      rcases hothers with rfl | hheld
      · exact h.foundEmpty v hv
      · have hother := (h.threads.lock v).mp (RoutineStage.holds_of_foundEmpty hv)
        rw [(h.threads.lock w).mp hheld] at hother
        exact absurd (Option.some.inj hother).symm hvw
  · intro v hv
    by_cases hvw : v = w
    · subst hvw
      rw [WorkerThreads.goto_stage_self] at hv
      exact hexited hv
    · rw [WorkerThreads.goto_stage_of_ne hvw] at hv
      exact h.exited v hv
  · intro _ hne
    refine .inr ⟨w, ?_⟩
    rw [WorkerThreads.goto_stage_self]
    exact Bool.eq_false_of_not_eq_true fun hw => hne (hwaiting hw)
  · intro hflag t ht
    have hold := h.conserved hflag t ht
    have hcount := hconserves hflag t ht
    have hsum := Table.sum_update (fun stage : RoutineStage P => stage.inHand.count t) s.threads.stage
      (Finset.mem_univ w) stage'
    simp only [WorkerThreads.goto, List.count_append] at hsum ⊢
    omega

/-- The threads stay where they are, and tasks are added. -/
theorem Inv.added (h : Inv null s) {threads : WorkerThreads P n} {tasks : List P}
    (hs : s.threads.addTaskBatch tasks = some threads) : Inv null ⟨threads, s.signals + 1⟩ := by
  rw [WorkerThreads.addTaskBatch] at hs
  split at hs
  · rename_i hfree
    cases hs
    have hlock : ∀ w, (s.threads.stage w).holds = false := by
      intro w
      refine Bool.eq_false_of_not_eq_true fun hholds => ?_
      have hw := (h.threads.lock w).mp hholds
      rw [hfree] at hw
      cases hw
    refine ⟨⟨h.threads.lock, ?_, h.threads.cleared⟩, ?_, h.exited, fun _ _ => .inl (Nat.succ_pos _), ?_⟩
    · intro w hw
      exact absurd ((hlock w).symm.trans (WorkerThreads.needsTask_holds hw)) Bool.false_ne_true
    · intro w hw
      exact absurd ((hlock w).symm.trans (RoutineStage.holds_of_foundEmpty hw)) Bool.false_ne_true
    · intro hflag t ht
      have hold := h.conserved hflag t ht
      simp only [List.count_append]
      omega
  · cases hs

/-- A waiting thread has to get the lock back. -/
theorem Inv.woken (h : Inv null s) {threads : WorkerThreads P n} {w : Fin n} {signals : Nat}
    (hs : s.threads.step none null (.wake w) = some threads) : Inv null ⟨threads, signals⟩ := by
  have hthreads := h.threads.step hs
  cases WorkerThreads.step_cases hs with
  | wake hwaiting =>
      cases hstage : s.threads.stage w with
      | waiting ret =>
          rw [hstage] at hthreads
          refine h.move hthreads nofun (.inl rfl) nofun nofun ?_
          intro _ t _
          rw [hstage]
          simp [RoutineStage.woken, RoutineStage.started, RoutineStage.inHand]
      | _ =>
          rw [hstage] at hwaiting
          cases hwaiting

theorem Inv.goOn (h : Inv null s) {threads : WorkerThreads P n} {w : Fin n}
    (hs : s.threads.step none null (.goOn w) = some threads) : Inv null ⟨threads, s.signals⟩ := by
  have hthreads := h.threads.step hs
  cases WorkerThreads.step_cases hs with
  | @goOn _ stage' lock' tasks hturn =>
      have hempty := hturn.foundEmpty (h.foundEmpty w)
      refine h.move hthreads hempty hturn.taskList ?_ ?_ fun hflag t ht => hturn.conserves hflag ht
      · rintro rfl
        exact hturn.exited
      · intro hwaiting
        obtain ⟨hfound, rfl⟩ := hturn.isWaiting hwaiting
        exact h.foundEmpty w hfound

theorem Inv.called (h : Inv null s) {threads : WorkerThreads P n} {w : Fin n} {ret : P}
    (hs : s.threads.step none null (.call w ret) = some threads) : Inv null ⟨threads, s.signals⟩ := by
  have hthreads := h.threads.step hs
  cases WorkerThreads.step_cases hs with
  | call hstage =>
      refine h.move hthreads nofun (.inl rfl) nofun nofun ?_
      intro _ t _
      rw [hstage]
      simp [RoutineStage.started, RoutineStage.inHand]

/-- Once `RuningFlag` is false, nothing more is promised. -/
theorem Inv.shutDown (h : Inv null s) {threads : WorkerThreads P n}
    (hs : s.threads.step none null .shutDown = some threads) : Inv null ⟨threads, s.signals⟩ := by
  have hthreads := h.threads.step hs
  cases WorkerThreads.step_cases hs with
  | shutDown hturn =>
      cases hturn with
      | goOn => exact ⟨hthreads, h.foundEmpty, h.exited, h.attended, h.conserved⟩
      | clear => exact ⟨hthreads, h.foundEmpty, fun _ _ => rfl, nofun, nofun⟩
      | broadcast hbroadcasting =>
          have hflag : s.threads.runingFlag = false := h.threads.cleared (by rw [hbroadcasting]; rfl)
          have hnot : ¬s.threads.broadcast.runingFlag = true := by
            rw [WorkerThreads.broadcast, hflag]
            exact Bool.false_ne_true
          refine ⟨hthreads, ?_, fun _ _ => hflag, fun htrue => absurd htrue hnot,
            fun htrue => absurd htrue hnot⟩
          intro w hw
          apply h.foundEmpty w
          cases hstage : s.threads.stage w with
          | checking ret | sleeping ret => rfl
          | _ =>
              simp only [WorkerThreads.broadcast, hstage] at hw
              cases hw

theorem Inv.signal (h : Inv null s) (hn : 0 < n) {w : Option (Fin n)} (hs : s.signal null w = some s') :
    Inv null s' := by
  cases w with
  | none =>
      rw [SignalledThreads.signal] at hs
      split at hs
      · rename_i hnone
        cases hs
        exact ⟨h.threads, h.foundEmpty, h.exited, fun _ _ => .inr ⟨⟨0, hn⟩, hnone _⟩, h.conserved⟩
      · cases hs
  | some w =>
      obtain ⟨threads, hthreads, rfl⟩ := Option.map_eq_some_iff.mp hs
      exact h.woken hthreads

theorem Inv.step (h : Inv null s) (hn : 0 < n) {a : SignalStep P n} (hs : s.step null a = some s') :
    Inv null s' := by
  cases a with
  | call w ret =>
      obtain ⟨threads, hthreads, rfl⟩ := Option.map_eq_some_iff.mp hs
      exact h.called hthreads
  | goOn w =>
      obtain ⟨threads, hthreads, rfl⟩ := Option.map_eq_some_iff.mp hs
      exact h.goOn hthreads
  | addTask task =>
      obtain ⟨threads, hthreads, rfl⟩ := Option.map_eq_some_iff.mp hs
      exact @Inv.added _ _ _ _ _ h threads [task] hthreads
  | addTaskBatch tasks =>
      obtain ⟨threads, hthreads, rfl⟩ := Option.map_eq_some_iff.mp hs
      exact h.added hthreads
  | signal w =>
      rw [SignalledThreads.step] at hs
      split at hs
      · exact h.signal hn hs
      · cases hs
  | spurious w =>
      obtain ⟨threads, hthreads, rfl⟩ := Option.map_eq_some_iff.mp hs
      exact h.woken hthreads
  | shutDown =>
      obtain ⟨threads, hthreads, rfl⟩ := Option.map_eq_some_iff.mp hs
      exact h.shutDown hthreads

theorem inv_of_run (hn : 0 < n) {as : List (SignalStep P n)}
    (hr : (signalledThreads n null).run (signalledThreads n null).start as = some s) : Inv null s :=
  (signalledThreads n null).run_invariant (fun _ _ _ h hs => h.step hn hs) inv_start hr

/-! ## Left alone -/

def rank (s : SignalledThreads P n) : Nat :=
  8 * s.threads.taskList.length + 5 * s.signals + ∑ w, (s.threads.stage w).toWaiting

omit [DecidableEq P] in
/-- One thread moves, with the list and the signals that are left. -/
theorem rank_move {w : Fin n} {stage' : RoutineStage P} {lock' : Option (Fin n)} {tasks : List P} {signals : Nat}
    (hlt : stage'.toWaiting + 8 * tasks.length + 5 * signals <
      (s.threads.stage w).toWaiting + 8 * s.threads.taskList.length + 5 * s.signals) :
    rank ⟨{ s.threads with lock := lock', taskList := tasks }.goto w stage', signals⟩ < s.rank := by
  have hsum := Table.sum_update RoutineStage.toWaiting s.threads.stage (Finset.mem_univ w) stage'
  simp only [rank, WorkerThreads.goto] at hsum ⊢
  omega

/-- Each step takes them closer to their rest. -/
theorem rank_lt (hflag : s.threads.runingFlag = true) {a : SignalStep P n}
    (ha : Quiet a) (hs : s.step null a = some s') : s'.threads.runingFlag = true ∧ s'.rank < s.rank := by
  cases a with
  | call w ret =>
      obtain ⟨threads, hthreads, rfl⟩ := Option.map_eq_some_iff.mp hs
      cases WorkerThreads.step_cases hthreads with
      | call hstage =>
          have hlt : (RoutineStage.locking ret).toWaiting + 8 * s.threads.taskList.length + 5 * s.signals <
              (s.threads.stage w).toWaiting + 8 * s.threads.taskList.length + 5 * s.signals := by
            rw [hstage]
            simp only [RoutineStage.toWaiting]
            omega
          exact ⟨hflag, rank_move hlt⟩
  | goOn w =>
      obtain ⟨threads, hthreads, rfl⟩ := Option.map_eq_some_iff.mp hs
      cases WorkerThreads.step_cases hthreads with
      | goOn hturn =>
          have hlt := hturn.toWaiting_lt hflag
          exact ⟨hflag, rank_move (Nat.add_lt_add_right hlt _)⟩
  | signal w =>
      rw [SignalledThreads.step] at hs
      split at hs
      · rename_i hsignals
        cases w with
        | none =>
            rw [SignalledThreads.signal] at hs
            split at hs
            · cases hs
              refine ⟨hflag, ?_⟩
              simp only [rank]
              omega
            · cases hs
        | some w =>
            obtain ⟨threads, hthreads, rfl⟩ := Option.map_eq_some_iff.mp hs
            cases WorkerThreads.step_cases hthreads with
            | wake hwaiting =>
                have hlt : (s.threads.stage w).woken.toWaiting + 8 * s.threads.taskList.length +
                    5 * (s.signals - 1) <
                      (s.threads.stage w).toWaiting + 8 * s.threads.taskList.length + 5 * s.signals := by
                  cases hstage : s.threads.stage w with
                  | waiting ret =>
                      simp only [RoutineStage.woken, RoutineStage.toWaiting]
                      omega
                  | _ =>
                      rw [hstage] at hwaiting
                      cases hwaiting
                exact ⟨hflag, rank_move hlt⟩
      · cases hs
  | addTask | addTaskBatch | spurious | shutDown => cases ha

/-- Nobody has the lock when no thread can go on. -/
theorem Inv.unlocked (h : Inv null s) (hrest : ∀ a, Quiet a → s.step null a = none) : s.threads.lock = none := by
  cases hlock : s.threads.lock with
  | none => rfl
  | some v =>
      obtain ⟨r, hr⟩ : ∃ r, s.threads.turn none null v (s.threads.stage v) = some r :=
        h.threads.turn_holds ((h.threads.lock v).mpr hlock)
      have hgoOn := hrest (.goOn v) trivial
      simp only [SignalledThreads.step, WorkerThreads.step, hr, Option.map_some] at hgoOn
      cases hgoOn

theorem Inv.waiting (h : Inv null s) (hflag : s.threads.runingFlag = true)
    (hrest : ∀ a, Quiet a → s.step null a = none) (w : Fin n) : (s.threads.stage w).isWaiting = true := by
  have hlock := h.unlocked hrest
  have hfree : (s.threads.stage w).holds = false := by
    refine Bool.eq_false_of_not_eq_true fun hholds => ?_
    have hw := (h.threads.lock w).mp hholds
    rw [hlock] at hw
    cases hw
  have hcall := hrest (.call w null) trivial
  have hgoOn := hrest (.goOn w) trivial
  cases hstage : s.threads.stage w with
  | waiting ret => rfl
  | exited =>
      have hfalse := h.exited w hstage
      rw [hflag] at hfalse
      cases hfalse
  | calling =>
      simp only [SignalledThreads.step, WorkerThreads.step, hstage, Option.map_some] at hcall
      cases hcall
  | locking ret | returned ret | running task =>
      simp only [SignalledThreads.step, WorkerThreads.step, hstage, WorkerThreads.turn, hlock, if_true,
        Option.map_some] at hgoOn
      cases hgoOn
  | _ =>
      rw [hstage] at hfree
      cases hfree

theorem Inv.atRest (h : Inv null s) (hn : 0 < n) (hflag : s.threads.runingFlag = true)
    (hrest : ∀ a, Quiet a → s.step null a = none) :
    s.threads.taskList = [] ∧ (∀ w, (s.threads.stage w).isWaiting = true) ∧ s.AllRan null := by
  have hwaiting := h.waiting hflag hrest
  have hsignals : s.signals = 0 := by
    by_contra hpos
    have hsignal := hrest (.signal (some ⟨0, hn⟩)) trivial
    rw [SignalledThreads.step, if_pos (Nat.pos_of_ne_zero hpos), SignalledThreads.signal,
      WorkerThreads.step, if_pos (hwaiting _)] at hsignal
    cases hsignal
  have hempty : s.threads.taskList = [] := by
    by_contra hne
    rcases h.attended hflag hne with hpos | ⟨w, hw⟩
    · omega
    · rw [hwaiting w] at hw
      cases hw
  refine ⟨hempty, hwaiting, ?_⟩
  rw [AllRan, List.perm_iff_count]
  intro t
  by_cases ht : t = null
  · subst ht
    rw [List.count_eq_zero_of_not_mem (by simp), List.count_eq_zero_of_not_mem (by simp)]
  · have hcount := h.conserved hflag t ht
    have hnone : ∑ w, (s.threads.stage w).inHand.count t = 0 := by
      apply Finset.sum_eq_zero
      intro w _
      have hw := hwaiting w
      cases hstage : s.threads.stage w with
      | waiting ret => rfl
      | _ =>
          rw [hstage] at hw
          cases hw
    rw [hempty, List.count_nil, hnone] at hcount
    rw [List.count_filter (by simpa using ht), List.count_filter (by simpa using ht)]
    omega

/-- Threads that wait stay where they are without a signal. -/
theorem rest_of_waiting (hwaiting : ∀ w, (s.threads.stage w).isWaiting = true) (hsignals : s.signals = 0)
    (a : SignalStep P n) (ha : Quiet a) : s.step null a = none := by
  have hstage : ∀ w, ∃ ret, s.threads.stage w = .waiting ret := by
    intro w
    have hw := hwaiting w
    cases hstage : s.threads.stage w with
    | waiting ret => exact ⟨ret, rfl⟩
    | _ =>
        rw [hstage] at hw
        cases hw
  cases a with
  | call w ret | goOn w =>
      obtain ⟨ret, hw⟩ := hstage w
      simp only [SignalledThreads.step, WorkerThreads.step, WorkerThreads.turn, hw, Option.map_none]
  | signal w => rw [SignalledThreads.step, hsignals, if_neg (Nat.lt_irrefl 0)]
  | addTask | addTaskBatch | spurious | shutDown => cases ha

end SignalledThreads

open SignalledThreads

variable {P : Type} [DecidableEq P] {n : Nat} {null : P}

/-- As long as the pool is not shut down, a task in the list is attended to. -/
theorem attended_of_run (hn : 0 < n) {as : List (SignalStep P n)} {s : SignalledThreads P n}
    (hr : (signalledThreads n null).run (signalledThreads n null).start as = some s)
    (hflag : s.threads.runingFlag = true) (htask : s.threads.taskList ≠ []) : s.Attended :=
  (inv_of_run hn hr).attended hflag htask

/-- A thread waits, and then there is a task. -/
def taskForWaiting : List (SignalStep Nat 1) :=
  [.call 0 9, .goOn 0, .goOn 0, .goOn 0, .goOn 0, .addTaskBatch [7]]

theorem attended_of_run_taskForWaiting :
    ∃ s, (signalledThreads 1 0).run (signalledThreads 1 0).start taskForWaiting = some s ∧
      s.threads.taskList ≠ [] ∧ s.Attended := by
  have hrun : (signalledThreads 1 0).run (signalledThreads 1 0).start taskForWaiting = some _ := rfl
  exact ⟨_, hrun, List.cons_ne_nil _ _, attended_of_run (by decide) hrun rfl (List.cons_ne_nil _ _)⟩

/-- From any state on, the threads can go on alone for so many steps and not more, whatever the schedule; and
where none of them can go on, all of them wait, and every task has been run. -/
theorem allRan_of_quiet (hn : 0 < n) {as : List (SignalStep P n)} {s : SignalledThreads P n}
    (hr : (signalledThreads n null).run (signalledThreads n null).start as = some s)
    (hflag : s.threads.runingFlag = true) {bs : List (SignalStep P n)} {s' : SignalledThreads P n}
    (hquiet : ∀ b ∈ bs, Quiet b) (hrest : (signalledThreads n null).run s bs = some s') :
    bs.length ≤ s.rank ∧ ((∀ a, Quiet a → (signalledThreads n null).step s' a = none) →
      s'.threads.taskList = [] ∧ (∀ w, (s'.threads.stage w).isWaiting = true) ∧ s'.AllRan null) := by
  have hstep : ∀ s a s', Inv null s ∧ s.threads.runingFlag = true → Quiet a →
      (signalledThreads n null).step s a = some s' →
        (Inv null s' ∧ s'.threads.runingFlag = true) ∧ s'.rank < s.rank := by
    rintro s a s' ⟨h, hflag⟩ ha hs
    obtain ⟨hflag', hlt⟩ := rank_lt hflag ha hs
    exact ⟨⟨h.step hn hs, hflag'⟩, hlt⟩
  have hmeets : (signalledThreads n null).Meets (fun _ b => Quiet b) s bs :=
    (signalledThreads n null).meets_of_forall_mem hquiet s
  have hs : Inv null s ∧ s.threads.runingFlag = true := ⟨inv_of_run hn hr, hflag⟩
  have hlength := hmeets.length_le _ rank hstep hs hrest
  obtain ⟨h', hflag'⟩ := hmeets.invariant _ (fun s a s' h ha hs => (hstep s a s' h ha hs).1) hs hrest
  exact ⟨by omega, h'.atRest hn hflag'⟩

/-- The thread is woken up, runs the task, and waits again. -/
def runAndWait : List (SignalStep Nat 1) :=
  .signal (some 0) :: List.replicate 7 (.goOn 0) ++ .call 0 9 :: List.replicate 4 (.goOn 0)

theorem allRan_of_quiet_runAndWait :
    ∃ s s', (signalledThreads 1 0).run (signalledThreads 1 0).start taskForWaiting = some s ∧
      (signalledThreads 1 0).run s runAndWait = some s' ∧ runAndWait.length ≤ s.rank ∧ s'.AllRan 0 := by
  have hruns : ((signalledThreads 1 0).run (signalledThreads 1 0).start taskForWaiting).any (fun s =>
      s.threads.runingFlag && ((signalledThreads 1 0).run s runAndWait).any fun s' =>
        (s'.threads.stage 0).isWaiting && s'.signals == 0) = true := by
    decide +kernel
  obtain ⟨s, hs, hruns⟩ := (Option.any_eq_true _ _).mp hruns
  obtain ⟨hflag, hruns⟩ := Bool.and_eq_true_iff.mp hruns
  obtain ⟨s', hs', hdone⟩ := (Option.any_eq_true _ _).mp hruns
  obtain ⟨hwaiting, hsignals⟩ := Bool.and_eq_true_iff.mp hdone
  have hquiet : ∀ b ∈ runAndWait, Quiet b := by decide
  obtain ⟨hlength, hrest⟩ := allRan_of_quiet (by decide) hs hflag hquiet hs'
  have hall : ∀ w, (s'.threads.stage w).isWaiting = true := by
    intro w
    obtain rfl : w = 0 := Subsingleton.elim _ _
    exact hwaiting
  exact ⟨s, s', hs, hs', hlength, (hrest (rest_of_waiting hall (beq_iff_eq.mp hsignals))).2.2⟩

end CmdTran
