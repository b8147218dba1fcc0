import Mathlib.Logic.Function.Basic
import CmdTran.Lib.System

/-!
# The threads of a worker pool

`_ThreadRoutine` and `GetTask` of all threads of one `CThreadPool`, and `ShutDown`, step by step: a step
takes or gives back `TaskListLock`, or reads or writes `RuningFlag` once. `AddTask` is one step, as nobody
sees the list while it has the lock. A signal, or none, is what wakes a thread up.

A task is a pointer, which may be `null`. The local variable `ret` of `GetTask` has any value at first.
-/

namespace CmdTran

variable {P : Type} {n : Nat}

/-! ## The selection -/

/-- The loop of `GetTask` with a `GetTask_Cust`. -/
def selectLoop (accepts : P → Bool) (ret : P) : List P → P × List P
  | [] => (ret, [])
  | task :: taskList =>
      if accepts task then (task, taskList)
      else
        let r := selectLoop accepts ret taskList
        (r.1, task :: r.2)

/-- What `GetTask` takes from the list; `hook` is `GetTask_Cust`. `none` is `front` of an empty list, which
C++ does not define. -/
def selectTask (hook : Option (P → Bool)) (ret : P) (taskList : List P) : Option (P × List P) :=
  match hook, taskList with
  | none, [] => none
  | none, task :: taskList => some (task, taskList)
  | some accepts, taskList => some (selectLoop accepts ret taskList)

/-! ## Threads -/

/-- What a thread does next. In `GetTask`: lock, test the list, test `RuningFlag`, wait, test `RuningFlag`
again, take a task, unlock. `waiting` is in `pthread_cond_wait`, `returned` back in `_ThreadRoutine`. -/
inductive RoutineStage (P : Type) where
  | calling
  | locking (ret : P)
  | testing (ret : P)
  | checking (ret : P)
  | sleeping (ret : P)
  | waiting (ret : P)
  | deciding (ret : P)
  | taking (ret : P)
  | leaving (ret : P)
  | returned (ret : P)
  | running (workTask : P)
  | exited
  deriving DecidableEq

namespace RoutineStage

/-- The thread has `TaskListLock`. -/
def holds : RoutineStage P → Bool
  | testing _ | checking _ | sleeping _ | deciding _ | taking _ | leaving _ => true
  | _ => false

/-- The thread has found the list empty and `RuningFlag` true, and has not begun to wait. -/
def isSleeping : RoutineStage P → Bool
  | sleeping _ => true
  | _ => false

def isWaiting : RoutineStage P → Bool
  | waiting _ => true
  | _ => false

/-- What the thread begins to run. -/
def started : RoutineStage P → List P
  | running workTask => [workTask]
  | _ => []

/-- A waiting thread has to get the lock back first. -/
def woken : RoutineStage P → RoutineStage P
  | waiting ret => locking ret
  | stage => stage

end RoutineStage

/-- What the caller of `ShutDown` does next. -/
inductive ShutDownStage where
  | idle
  | testing
  | clearing
  | broadcasting
  | joining (i : Nat)
  | returned
  deriving DecidableEq

/-- `submitted` has all tasks that were ever put in the list, `ran` those that were run, in order. No step
looks at these two. -/
structure WorkerThreads (P : Type) (n : Nat) where
  taskList : List P
  runingFlag : Bool
  lock : Option (Fin n)
  stage : Fin n → RoutineStage P
  shutDown : ShutDownStage
  submitted : List P
  ran : List P

/-- A thread calls `GetTask`, goes on, or comes back from waiting; some thread adds a task; the caller of
`ShutDown` goes on. -/
inductive ThreadsStep (P : Type) (n : Nat) where
  | call (w : Fin n) (ret : P)
  | goOn (w : Fin n)
  | wake (w : Fin n)
  | addTask (task : P)
  | shutDown

namespace WorkerThreads

def start (taskList : List P) (runingFlag : Bool) : WorkerThreads P n :=
  ⟨taskList, runingFlag, none, fun _ => .calling, .idle, taskList, []⟩

def goto (s : WorkerThreads P n) (w : Fin n) (stage : RoutineStage P) : WorkerThreads P n :=
  { s with stage := Function.update s.stage w stage, ran := s.ran ++ stage.started }

/-- What a thread at the stage does: its next stage, who has the lock then, and the list. -/
def turn [DecidableEq P] (hook : Option (P → Bool)) (null : P) (s : WorkerThreads P n) (w : Fin n) :
    RoutineStage P → Option (RoutineStage P × Option (Fin n) × List P)
  | .calling | .waiting _ | .exited => none
  | .locking ret => if s.lock = none then some (.testing ret, some w, s.taskList) else none
  | .testing ret =>
      some (if s.taskList.isEmpty then .checking ret else .deciding ret, s.lock, s.taskList)
  | .checking ret => some (if s.runingFlag then .sleeping ret else .deciding ret, s.lock, s.taskList)
  | .sleeping ret => some (.waiting ret, none, s.taskList)
  | .deciding ret => some (if s.runingFlag then .taking ret else .leaving ret, s.lock, s.taskList)
  | .taking ret => (selectTask hook ret s.taskList).map fun r => (.leaving r.1, s.lock, r.2)
  | .leaving ret => some (.returned ret, none, s.taskList)
  | .returned ret =>
      some (if s.runingFlag = false then .exited else if null = ret then .calling else .running ret,
        s.lock, s.taskList)
  | .running _ => some (.calling, s.lock, s.taskList)

/-- The caller of `ShutDown` is at the stage. -/
def shutDownStep (s : WorkerThreads P n) : ShutDownStage → Option (WorkerThreads P n)
  | .idle => some { s with shutDown := .testing }
  | .testing => some { s with shutDown := if s.runingFlag then .clearing else .broadcasting }
  | .clearing => some { s with runingFlag := false, shutDown := .testing }
  | .broadcasting => some { s with stage := fun w => (s.stage w).woken, shutDown := .joining 0 }
  | .joining i =>
      if h : i < n then
        match s.stage ⟨i, h⟩ with
        | .exited => some { s with shutDown := .joining (i + 1) }
        | _ => none
      else some { s with shutDown := .returned }
  | .returned => none

variable [DecidableEq P]

def step (hook : Option (P → Bool)) (null : P) (s : WorkerThreads P n) :
    ThreadsStep P n → Option (WorkerThreads P n)
  | .call w ret =>
      match s.stage w with
      | .calling => some (s.goto w (.locking ret))
      | _ => none
  | .goOn w =>
      (s.turn hook null w (s.stage w)).map fun r =>
        { s with lock := r.2.1, taskList := r.2.2 }.goto w r.1
  | .wake w => if (s.stage w).isWaiting then some (s.goto w (s.stage w).woken) else none
  | .addTask task =>
      if s.lock = none then
        some { s with taskList := s.taskList ++ [task], submitted := s.submitted ++ [task] }
      else none
  | .shutDown => s.shutDownStep s.shutDown

end WorkerThreads

def workerThreads [DecidableEq P] (n : Nat) (hook : Option (P → Bool)) (null : P) (taskList : List P)
    (runingFlag : Bool) : StepSystem (WorkerThreads P n) (ThreadsStep P n) where
  start := .start taskList runingFlag
  step := WorkerThreads.step hook null

namespace WorkerThreads

/-! ## What should hold -/

/-- No thread waits, and a run leads to the end of `ShutDown`. -/
structure Joinable (M : StepSystem (WorkerThreads P n) (ThreadsStep P n)) (s : WorkerThreads P n) :
    Prop where
  awake : ∀ w, (s.stage w).isWaiting = false
  returns : ∃ s', M.Steps s s' ∧ s'.shutDown = .returned

/-- No thread is between its tests, which sent it to sleep, and its wait. -/
def NoneSleeping (s : WorkerThreads P n) : Prop := ∀ w, (s.stage w).isSleeping = false

/-- The hook accepts the task; without one the first task is taken. -/
def Accepted (hook : Option (P → Bool)) (task : P) : Prop :=
  match hook with
  | none => True
  | some accepts => accepts task = true

/-- `ret` is the first accepted task of the list, and the list has lost just this. -/
def TakenFrom (hook : Option (P → Bool)) (taskList : List P) (ret : P) (taskList' : List P) : Prop :=
  ∃ us zs, taskList = us ++ ret :: zs ∧ taskList' = us ++ zs ∧ Accepted hook ret ∧
    ∀ task ∈ us, ¬Accepted hook task

/-- When `GetTask` comes to its end and `RuningFlag` is true, it has `NULL` and the list is as it was, or a
task that it took from the list; and what `_ThreadRoutine` runs has been submitted. -/
def HandsOut (hook : Option (P → Bool)) (null : P) (s : WorkerThreads P n) :
    ThreadsStep P n → WorkerThreads P n → Prop
  | .goOn w, s' =>
      (∀ ret, s'.stage w = .leaving ret → s'.runingFlag = true →
        ret = null ∧ s'.taskList = s.taskList ∨ TakenFrom hook s.taskList ret s'.taskList) ∧
      ∀ task, s'.stage w = .running task → task ∈ s'.submitted
  | _, _ => True

/-- When `GetTask` is to take a task and `RuningFlag` is true, there is no hook, or the hook accepts some
task of the list, or `ret` happens to be `NULL`. -/
def Selects (hook : Option (P → Bool)) (null : P) (s : WorkerThreads P n) : ThreadsStep P n → Prop
  | .goOn w => ∀ ret, s.stage w = .taking ret → s.runingFlag = true →
      (∃ task ∈ s.taskList, Accepted hook task) ∨ ret = null
  | _ => True

end WorkerThreads

end CmdTran
