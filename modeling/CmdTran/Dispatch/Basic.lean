import Mathlib.Logic.Function.Basic
import CmdTran.Lib.System

/-!
# The worker pools

`CMasterWorkPool`, its workers (`CThreadPool` with one thread each) and their steps under
`TaskListLock`. `GetTask_Cust` is never set, so a thread takes the first task.
-/

namespace CmdTran

variable {τ : Type}

/-! ## One worker -/

/-- Where the thread of a worker is: in `GetTask` before its test, in `pthread_cond_wait`, in
`ProcessTask`, or at its end. -/
inductive WorkerStage (τ : Type) where
  | getting
  | waiting
  | running (task : τ)
  | exited
  deriving DecidableEq

/-- `thread` is `none` until `InitPool(1)`. -/
structure CThreadPool (τ : Type) where
  taskList : List τ
  runingFlag : Bool
  thread : Option (WorkerStage τ)
  deriving DecidableEq

namespace CThreadPool

def new : CThreadPool τ := ⟨[], true, none⟩

/-- `InitPool(1)` -/
def initPool (p : CThreadPool τ) : CThreadPool τ := { p with thread := some .getting }

def addTask (p : CThreadPool τ) (task : τ) : CThreadPool τ :=
  { p with taskList := p.taskList ++ [task] }

/-- The body of `GetTask` after a test of the list, under the lock. -/
def getTask (p : CThreadPool τ) : CThreadPool τ :=
  if p.runingFlag then
    match p.taskList with
    | [] => { p with thread := some .waiting }
    | task :: taskList => { p with taskList, thread := some (.running task) }
  else { p with thread := some .exited }

/-- The thread takes its next step; in `ProcessTask` it returns from it. -/
def goOn (p : CThreadPool τ) : Option (CThreadPool τ) :=
  match p.thread with
  | some .getting => some p.getTask
  | some (.running _) => some { p with thread := some .getting }
  | _ => none

/-- `pthread_cond_wait` returns: after a signal, or for no reason. -/
def wake (p : CThreadPool τ) : Option (CThreadPool τ) :=
  match p.thread with
  | some .waiting => some { p with thread := some .getting }
  | _ => none

/-- The task in `ProcessTask`. -/
def running (p : CThreadPool τ) : List τ :=
  match p.thread with
  | some (.running task) => [task]
  | _ => []

/-- The task that the next step starts. -/
def next (p : CThreadPool τ) : List τ :=
  match p.thread, p.runingFlag with
  | some .getting, true => p.taskList.take 1
  | _, _ => []

end CThreadPool

/-! ## The pool -/

structure CMasterWorkPool (τ : Type) where
  workerCount : Nat
  threadMap : Nat → Option (CThreadPool τ)

/-- What `InitPool` does, write by write. -/
inductive InitStep where
  | setCount (workercount : Nat)
  | clear
  | insert (i : Nat)
  | initWorker (i : Nat)
  deriving DecidableEq

def initSteps (workercount : Nat) : List InitStep :=
  .setCount workercount :: .clear :: (List.range workercount).map .insert ++
    (List.range workercount).map .initWorker

namespace CMasterWorkPool

def new : CMasterWorkPool τ := ⟨0, fun _ => none⟩

/-- An entry that is there stays when it is inserted again. -/
def initStep (p : CMasterWorkPool τ) : InitStep → CMasterWorkPool τ
  | .setCount workercount => { p with workerCount := workercount }
  | .clear => { p with threadMap := fun _ => none }
  | .insert i =>
      { p with threadMap :=
        Function.update p.threadMap i (some ((p.threadMap i).getD CThreadPool.new)) }
  | .initWorker i =>
      { p with threadMap := Function.update p.threadMap i ((p.threadMap i).map .initPool) }

def initPool (p : CMasterWorkPool τ) (workercount : Nat) : CMasterWorkPool τ :=
  (initSteps workercount).foldl initStep p

def setWorker (p : CMasterWorkPool τ) (w : Nat) (worker : CThreadPool τ) : CMasterWorkPool τ :=
  { p with threadMap := Function.update p.threadMap w (some worker) }

/-- `none` is what C++ does not define: a division by zero, or the task of an entry that is not
there. -/
def addTask (p : CMasterWorkPool τ) (id : Nat) (task : τ) : Option (CMasterWorkPool τ) :=
  if p.workerCount = 0 then none
  else
    let workerId := id % p.workerCount
    (p.threadMap workerId).map fun worker => p.setWorker workerId (worker.addTask task)

end CMasterWorkPool

/-! ## The pool in use -/

/-- A task with the id that it was submitted with and its number among the submitted ones, which is
not in the code. -/
structure Ticket (α : Type) where
  id : Nat
  number : Nat
  task : α
  deriving DecidableEq

/-- `submitted` has the tasks in the order in which they were appended to a list, `started` and
`finished` in the order in which `ProcessTask` was called and returned. No step looks at them. -/
structure Dispatch (α : Type) where
  pool : CMasterWorkPool (Ticket α)
  submitted : List (Ticket α)
  started : List (Ticket α)
  finished : List (Ticket α)

/-- Some thread appends a task, the thread of a worker goes on, or it wakes up. -/
inductive DispatchStep (α : Type) where
  | addTask (id : Nat) (task : α)
  | goOn (w : Nat)
  | wake (w : Nat)

namespace Dispatch

variable {α : Type}

/-- `InitPool(workercount)` has returned. -/
def start (workercount : Nat) : Dispatch α :=
  ⟨CMasterWorkPool.new.initPool workercount, [], [], []⟩

def step (s : Dispatch α) : DispatchStep α → Option (Dispatch α)
  | .addTask id task =>
      let ticket := ⟨id, s.submitted.length, task⟩
      (s.pool.addTask id ticket).map fun pool =>
        { s with pool, submitted := s.submitted ++ [ticket] }
  | .goOn w =>
      (s.pool.threadMap w).bind fun worker =>
        worker.goOn.map fun worker' =>
          { s with
            pool := s.pool.setWorker w worker'
            started := s.started ++ worker.next
            finished := s.finished ++ worker.running }
  | .wake w =>
      (s.pool.threadMap w).bind fun worker =>
        worker.wake.map fun worker' => { s with pool := s.pool.setWorker w worker' }

/-! ## What should hold -/

def Queued (s : Dispatch α) (t : Ticket α) : Prop :=
  ∃ w worker, s.pool.threadMap w = some worker ∧ t ∈ worker.taskList

def Running (s : Dispatch α) (t : Ticket α) : Prop :=
  ∃ w worker, s.pool.threadMap w = some worker ∧ t ∈ worker.running

/-- The tasks with an id. -/
def ofId (id : Nat) (tickets : List (Ticket α)) : List (Ticket α) := tickets.filter (·.id = id)

/-- The tasks of each id are started in the order in which they were appended, each once at most, and
one at a time; a submitted task is in exactly one place. -/
structure Serial (s : Dispatch α) : Prop where
  order : ∀ id, ofId id s.started <+: ofId id s.submitted
  once : s.submitted.Nodup ∧ s.started.Nodup
  oneAtATime : ∀ id, ∃ current, ofId id s.started = ofId id s.finished ++ current ∧
    current.length ≤ 1 ∧ ∀ t, t ∈ current ↔ s.Running t ∧ t.id = id
  place : ∀ t ∈ s.submitted,
    s.Queued t ∧ ¬s.Running t ∧ t ∉ s.finished ∨ ¬s.Queued t ∧ s.Running t ∧ t ∉ s.finished ∨
      ¬s.Queued t ∧ ¬s.Running t ∧ t ∈ s.finished

/-- A task that a step starts comes after the end of every task with its id that was appended before. -/
def StartsInTurn (s s' : Dispatch α) : Prop :=
  ∀ t ∈ s'.started, t ∉ s.started → ∀ u ∈ s.submitted, u.id = t.id → u.number < t.number →
    u ∈ s.finished

end Dispatch

def dispatch {α : Type} (workercount : Nat) : StepSystem (Dispatch α) (DispatchStep α) where
  start := Dispatch.start workercount
  step := Dispatch.step

end CmdTran
