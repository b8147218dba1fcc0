import Mathlib.Data.Bool.Basic
import CmdTran.Shutdown.Basic

/-!
# What a step of the threads does

One case for each step, and the invariant that `ShutDown` and `GetTask` rest on.
-/

namespace CmdTran

/-- The thread takes a task if `RuningFlag` is this when it tests it again. -/
def RoutineStage.needsTask {P : Type} (flag : Bool) : RoutineStage P → Bool
  | taking _ => true
  | deciding _ => flag
  | _ => false

/-- `ShutDown` has found `RuningFlag` false. -/
def ShutDownStage.isCleared : ShutDownStage → Bool
  | broadcasting | joining _ | returned => true
  | _ => false

/-- `ShutDown` has broadcast. -/
def ShutDownStage.isJoining : ShutDownStage → Bool
  | joining _ | returned => true
  | _ => false

namespace WorkerThreads

variable {P : Type} {n : Nat} {hook : Option (P → Bool)} {null : P} {s s' : WorkerThreads P n}
  {w : Fin n} {stage stage' : RoutineStage P} {lock' : Option (Fin n)} {tasks : List P}

/-! ## One step of a thread -/

/-- The steps of a thread from one stage to another, with the lock and the list after it. -/
inductive Turn (hook : Option (P → Bool)) (null : P) (s : WorkerThreads P n) (w : Fin n) :
    RoutineStage P → RoutineStage P → Option (Fin n) → List P → Prop where
  | getLock {ret : P} (h : s.lock = none) : Turn _ _ _ _ (.locking ret) (.testing ret) (some w) s.taskList
  | empty {ret : P} (h : s.taskList = []) : Turn _ _ _ _ (.testing ret) (.checking ret) s.lock s.taskList
  | found {ret : P} (h : s.taskList ≠ []) : Turn _ _ _ _ (.testing ret) (.deciding ret) s.lock s.taskList
  | sleep {ret : P} (h : s.runingFlag = true) :
      Turn _ _ _ _ (.checking ret) (.sleeping ret) s.lock s.taskList
  | endLoop {ret : P} (h : s.runingFlag = false) :
      Turn _ _ _ _ (.checking ret) (.deciding ret) s.lock s.taskList
  | wait {ret : P} : Turn _ _ _ _ (.sleeping ret) (.waiting ret) none s.taskList
  | decide {ret : P} (h : s.runingFlag = true) :
      Turn _ _ _ _ (.deciding ret) (.taking ret) s.lock s.taskList
  | stop {ret : P} (h : s.runingFlag = false) :
      Turn _ _ _ _ (.deciding ret) (.leaving ret) s.lock s.taskList
  | take {ret : P} {taken : P × List P} (h : selectTask hook ret s.taskList = some taken) :
      Turn _ _ _ _ (.taking ret) (.leaving taken.1) s.lock taken.2
  | unlock {ret : P} : Turn _ _ _ _ (.leaving ret) (.returned ret) none s.taskList
  | exit {ret : P} (h : s.runingFlag = false) : Turn _ _ _ _ (.returned ret) .exited s.lock s.taskList
  | skip {ret : P} (h : s.runingFlag = true) (hnull : null = ret) :
      Turn _ _ _ _ (.returned ret) .calling s.lock s.taskList
  | run {ret : P} (h : s.runingFlag = true) (hnull : null ≠ ret) :
      Turn _ _ _ _ (.returned ret) (.running ret) s.lock s.taskList
  | finish {task : P} : Turn _ _ _ _ (.running task) .calling s.lock s.taskList

theorem turn_cases [DecidableEq P] {r : RoutineStage P × Option (Fin n) × List P}
    (h : s.turn hook null w stage = some r) : Turn hook null s w stage r.1 r.2.1 r.2.2 := by
  cases stage with
  | calling | waiting ret | exited => cases h
  | locking ret =>
      rw [turn] at h
      split at h
      · rename_i hfree
        cases h
        exact .getLock hfree
      · cases h
  | testing ret =>
      cases h
      dsimp only
      split
      · rename_i hempty
        exact .empty (List.isEmpty_iff.mp hempty)
      · rename_i hsome
        exact .found fun hempty => hsome (List.isEmpty_iff.mpr hempty)
  | checking ret =>
      cases h
      dsimp only
      split
      · rename_i hflag
        exact .sleep hflag
      · rename_i hflag
        exact .endLoop (Bool.eq_false_of_not_eq_true hflag)
  | sleeping ret =>
      cases h
      exact .wait
  | deciding ret =>
      cases h
      dsimp only
      split
      · rename_i hflag
        exact .decide hflag
      · rename_i hflag
        exact .stop (Bool.eq_false_of_not_eq_true hflag)
  | taking ret =>
      obtain ⟨taken, htaken, rfl⟩ := Option.map_eq_some_iff.mp h
      exact .take htaken
  | leaving ret =>
      cases h
      exact .unlock
  | returned ret =>
      cases h
      dsimp only
      split
      · rename_i hflag
        exact .exit hflag
      · rename_i hflag
        have hflag : s.runingFlag = true := Bool.eq_true_of_not_eq_false hflag
        split
        · rename_i hnull
          exact .skip hflag hnull
        · rename_i hnull
          exact .run hflag hnull
  | running task =>
      cases h
      exact .finish

/-- A thread that takes the lock finds it free, and gives back only its own. -/
theorem Turn.lock (h : Turn hook null s w stage stage' lock' tasks) :
    lock' = s.lock ∧ stage'.holds = stage.holds ∨
      s.lock = none ∧ lock' = some w ∧ stage'.holds = true ∨
        stage.holds = true ∧ lock' = none ∧ stage'.holds = false := by
  cases h with
  | getLock hfree => exact .inr (.inl ⟨hfree, rfl, rfl⟩)
  | wait | unlock => exact .inr (.inr ⟨rfl, rfl, rfl⟩)
  | _ => exact .inl ⟨rfl, rfl⟩

/-- The list changes under the lock only. -/
theorem Turn.taskList (h : Turn hook null s w stage stage' lock' tasks) :
    tasks = s.taskList ∨ stage.holds = true := by
  cases h with
  | take => exact .inr rfl
  | _ => exact .inl rfl

/-! ## One step of the whole -/

/-- The state after the broadcast. -/
def broadcast (s : WorkerThreads P n) : WorkerThreads P n :=
  { s with stage := fun w => (s.stage w).woken, shutDown := .joining 0 }

/-- The steps of `ShutDown`. It gets to the broadcast only when it has found `RuningFlag` false, and does not
come back from there. -/
inductive ShutDownTurn (s : WorkerThreads P n) : WorkerThreads P n → Prop where
  | goOn {stage : ShutDownStage}
      (hcleared : stage.isCleared = true → s.shutDown.isCleared = true ∨ s.runingFlag = false)
      (hjoining : s.shutDown.isJoining = true → stage.isJoining = true) :
      ShutDownTurn s { s with shutDown := stage }
  | clear (h : s.shutDown = .clearing) : ShutDownTurn s { s with runingFlag := false, shutDown := .testing }
  | broadcast (h : s.shutDown = .broadcasting) : ShutDownTurn s s.broadcast

theorem shutDownStep_cases (hs : s.shutDownStep s.shutDown = some s') : ShutDownTurn s s' := by
  cases hstage : s.shutDown with
  | idle =>
      rw [hstage] at hs
      cases hs
      refine .goOn nofun fun hjoining => ?_
      rw [hstage] at hjoining
      cases hjoining
  | testing =>
      rw [hstage] at hs
      cases hs
      refine .goOn ?_ fun hjoining => ?_
      · split
        · nofun
        · rename_i hflag
          exact fun _ => .inr (Bool.eq_false_of_not_eq_true hflag)
      · rw [hstage] at hjoining
        cases hjoining
  | clearing =>
      rw [hstage] at hs
      cases hs
      exact .clear hstage
  | broadcasting =>
      rw [hstage] at hs
      cases hs
      exact .broadcast hstage
  | joining i =>
      rw [hstage, shutDownStep] at hs
      have hcleared : s.shutDown.isCleared = true := by rw [hstage]; rfl
      split at hs
      · split at hs
        · cases hs
          exact .goOn (fun _ => .inl hcleared) fun _ => rfl
        · cases hs
      · cases hs
        exact .goOn (fun _ => .inl hcleared) fun _ => rfl
  | returned =>
      rw [hstage] at hs
      cases hs

/-- The state after a step. -/
inductive StepsTo (hook : Option (P → Bool)) (null : P) (s : WorkerThreads P n) :
    ThreadsStep P n → WorkerThreads P n → Prop where
  | call {w : Fin n} {ret : P} (h : s.stage w = .calling) :
      StepsTo _ _ _ (.call w ret) (s.goto w (.locking ret))
  | goOn {w : Fin n} {stage' : RoutineStage P} {lock' : Option (Fin n)} {tasks : List P}
      (h : Turn hook null s w (s.stage w) stage' lock' tasks) :
      StepsTo _ _ _ (.goOn w) ({ s with lock := lock', taskList := tasks }.goto w stage')
  | wake {w : Fin n} (h : (s.stage w).isWaiting = true) :
      StepsTo _ _ _ (.wake w) (s.goto w (s.stage w).woken)
  | addTask {task : P} (h : s.lock = none) :
      StepsTo _ _ _ (.addTask task)
        { s with taskList := s.taskList ++ [task], submitted := s.submitted ++ [task] }
  | shutDown {s' : WorkerThreads P n} (h : ShutDownTurn s s') : StepsTo _ _ _ .shutDown s'

theorem step_cases [DecidableEq P] {a : ThreadsStep P n} (hs : s.step hook null a = some s') :
    StepsTo hook null s a s' := by
  cases a with
  | call w ret =>
      rw [WorkerThreads.step] at hs
      split at hs
      · rename_i hstage
        cases hs
        exact .call hstage
      · cases hs
  | goOn w =>
      obtain ⟨r, hturn, rfl⟩ := Option.map_eq_some_iff.mp hs
      exact .goOn (turn_cases hturn)
  | wake w =>
      rw [WorkerThreads.step] at hs
      split at hs
      · rename_i hwaiting
        cases hs
        exact .wake hwaiting
      · cases hs
  | addTask task =>
      rw [WorkerThreads.step] at hs
      split at hs
      · rename_i hfree
        cases hs
        exact .addTask hfree
      · cases hs
  | shutDown => exact .shutDown (shutDownStep_cases hs)

/-! ## The lock, the list and the flag -/

/-- Who has the lock is where the lock is needed; a thread that is to take a task finds one; `RuningFlag`
is false when the broadcast comes. -/
structure Inv (s : WorkerThreads P n) : Prop where
  lock : ∀ w, (s.stage w).holds = true ↔ s.lock = some w
  taskList : ∀ w, (s.stage w).needsTask s.runingFlag = true → s.taskList ≠ []
  cleared : s.shutDown.isCleared = true → s.runingFlag = false

theorem needsTask_holds {flag : Bool} (h : stage.needsTask flag = true) : stage.holds = true := by
  cases stage with
  | taking ret | deciding ret => rfl
  | _ => cases h

theorem needsTask_of_false (h : stage.needsTask false = true) (flag : Bool) :
    stage.needsTask flag = true := by
  cases stage with
  | taking ret => rfl
  | _ => cases h

theorem woken_holds (stage : RoutineStage P) : stage.woken.holds = stage.holds := by
  cases stage <;> rfl

theorem woken_needsTask (stage : RoutineStage P) (flag : Bool) :
    stage.woken.needsTask flag = stage.needsTask flag := by
  cases stage <;> rfl

@[simp] theorem goto_stage_self : (s.goto w stage').stage w = stage' := by
  simp only [goto, Function.update_self]

theorem goto_stage_of_ne {v : Fin n} (h : v ≠ w) : (s.goto w stage').stage v = s.stage v := by
  simp only [goto, Function.update_of_ne h]

theorem inv_start (taskList : List P) (runingFlag : Bool) : Inv (start taskList runingFlag : WorkerThreads P n) :=
  ⟨fun _ => iff_of_false Bool.false_ne_true nofun, nofun, nofun⟩

/-- One thread moves. -/
theorem Inv.move (h : Inv s)
    (hlock : lock' = s.lock ∧ stage'.holds = (s.stage w).holds ∨
      s.lock = none ∧ lock' = some w ∧ stage'.holds = true ∨
        (s.stage w).holds = true ∧ lock' = none ∧ stage'.holds = false)
    (htasks : tasks = s.taskList ∨ (s.stage w).holds = true)
    (hneeds : stage'.needsTask s.runingFlag = true → tasks ≠ []) :
    Inv ({ s with lock := lock', taskList := tasks }.goto w stage') := by
  have hw := h.lock w
  refine ⟨?_, ?_, h.cleared⟩
  · intro v
    have hv := h.lock v
    by_cases hvw : v = w
    · subst hvw
      rw [goto_stage_self]
      rcases hlock with ⟨rfl, hsame⟩ | ⟨_, rfl, hholds⟩ | ⟨_, rfl, hgone⟩
      · rw [hsame]
        exact hw
      · exact iff_of_true hholds rfl
      · rw [hgone]
        exact iff_of_false Bool.false_ne_true nofun
    · rw [goto_stage_of_ne hvw, hv]
      rcases hlock with ⟨rfl, _⟩ | ⟨hfree, rfl, _⟩ | ⟨hheld, rfl, _⟩
      · rfl
      · rw [hfree]
        exact iff_of_false nofun fun hsame => hvw (Option.some.inj hsame).symm
      · rw [hw.mp hheld]
        exact iff_of_false (fun hsame => hvw (Option.some.inj hsame).symm) nofun
  · intro v
    by_cases hvw : v = w
    · subst hvw
      rw [goto_stage_self]
      exact hneeds
    · rw [goto_stage_of_ne hvw]
      intro hv
      rcases htasks with rfl | hheld
      · exact h.taskList v hv
      · have hother := (h.lock v).mp (needsTask_holds hv)
        rw [hw.mp hheld] at hother
        exact absurd (Option.some.inj hother).symm hvw

/-- What is to be taken is there. -/
theorem Turn.needsTask (h : Turn hook null s w stage stage' lock' tasks)
    (hs : stage.needsTask s.runingFlag = true → s.taskList ≠ [])
    (hneeds : stage'.needsTask s.runingFlag = true) : tasks ≠ [] := by
  cases h with
  | found hsome => exact hsome
  | endLoop hflag =>
      rw [hflag] at hneeds
      cases hneeds
  | decide hflag => exact hs hflag
  | _ => cases hneeds

theorem Inv.shutDown (h : Inv s) (hturn : ShutDownTurn s s') : Inv s' := by
  cases hturn with
  | goOn hcleared _ => exact ⟨h.lock, h.taskList, fun hstage => (hcleared hstage).elim h.cleared id⟩
  | clear _ => exact ⟨h.lock, fun w hw => h.taskList w (needsTask_of_false hw _), fun _ => rfl⟩
  | broadcast hbroadcasting =>
      refine ⟨?_, ?_, fun _ => h.cleared (by rw [hbroadcasting]; rfl)⟩
      · intro w
        rw [broadcast, woken_holds]
        exact h.lock w
      · intro w hw
        rw [broadcast, woken_needsTask] at hw
        exact h.taskList w hw

variable [DecidableEq P]

theorem Inv.step {a : ThreadsStep P n} (h : Inv s) (hs : s.step hook null a = some s') : Inv s' := by
  cases step_cases hs with
  | call hstage => exact h.move (.inl ⟨rfl, by rw [hstage]; rfl⟩) (.inl rfl) nofun
  | goOn hturn => exact h.move hturn.lock hturn.taskList (hturn.needsTask (h.taskList _))
  | wake _ =>
      refine h.move (.inl ⟨rfl, woken_holds _⟩) (.inl rfl) ?_
      rw [woken_needsTask]
      exact h.taskList _
  | addTask _ => exact ⟨h.lock, fun _ _ => List.append_ne_nil_of_right_ne_nil _ nofun, h.cleared⟩
  | shutDown hturn => exact h.shutDown hturn

theorem inv_of_run {taskList : List P} {runingFlag : Bool} {as : List (ThreadsStep P n)}
    (hr : (workerThreads n hook null taskList runingFlag).run (.start taskList runingFlag) as = some s) :
    Inv s :=
  (workerThreads n hook null taskList runingFlag).run_invariant (fun _ _ _ h hs => h.step hs)
    (inv_start taskList runingFlag) hr

end WorkerThreads

end CmdTran
