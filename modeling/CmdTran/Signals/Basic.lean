import CmdTran.Shutdown.Basic

/-!
# The signals of a worker pool

The threads of one `CThreadPool`, with what wakes them up. `AddTask` and `AddTaskBatch` append under the lock
and signal after they have given it back, so that a thread may look at the list in between. No
`GetTask_Cust` is set.
-/

namespace CmdTran

variable {P : Type} {n : Nat}

/-- `signals` callers of `AddTask` or `AddTaskBatch` are between the lock and `pthread_cond_signal`. -/
structure SignalledThreads (P : Type) (n : Nat) where
  threads : WorkerThreads P n
  signals : Nat

/-- A thread calls `GetTask` or goes on; tasks are added; a signal wakes up one thread, or none if none waits;
`pthread_cond_wait` returns for no reason; the caller of `ShutDown` goes on. -/
inductive SignalStep (P : Type) (n : Nat) where
  | call (w : Fin n) (ret : P)
  | goOn (w : Fin n)
  | addTask (task : P)
  | addTaskBatch (tasks : List P)
  | signal (w : Option (Fin n))
  | spurious (w : Fin n)
  | shutDown

namespace WorkerThreads

/-- `AddTaskBatch` up to the unlock. -/
def addTaskBatch (s : WorkerThreads P n) (tasks : List P) : Option (WorkerThreads P n) :=
  if s.lock = none then
    some { s with taskList := s.taskList ++ tasks, submitted := s.submitted ++ tasks }
  else none

def NoneWaiting (s : WorkerThreads P n) : Prop := ∀ w, (s.stage w).isWaiting = false

instance (s : WorkerThreads P n) : Decidable s.NoneWaiting := inferInstanceAs (Decidable (∀ _, _))

end WorkerThreads

namespace SignalledThreads

variable [DecidableEq P] (null : P)

/-- `pthread_cond_signal` -/
def signal (s : SignalledThreads P n) : Option (Fin n) → Option (SignalledThreads P n)
  | none => if s.threads.NoneWaiting then some { s with signals := s.signals - 1 } else none
  | some w =>
      (s.threads.step none null (.wake w)).map fun threads => ⟨threads, s.signals - 1⟩

def step (s : SignalledThreads P n) : SignalStep P n → Option (SignalledThreads P n)
  | .call w ret => (s.threads.step none null (.call w ret)).map fun threads => { s with threads }
  | .goOn w => (s.threads.step none null (.goOn w)).map fun threads => { s with threads }
  | .addTask task =>
      (s.threads.step none null (.addTask task)).map fun threads => ⟨threads, s.signals + 1⟩
  | .addTaskBatch tasks =>
      (s.threads.addTaskBatch tasks).map fun threads => ⟨threads, s.signals + 1⟩
  | .signal w => if 0 < s.signals then s.signal null w else none
  | .spurious w => (s.threads.step none null (.wake w)).map fun threads => { s with threads }
  | .shutDown => (s.threads.step none null .shutDown).map fun threads => { s with threads }

end SignalledThreads

/-- The threads have been created. -/
def signalledThreads [DecidableEq P] (n : Nat) (null : P) :
    StepSystem (SignalledThreads P n) (SignalStep P n) where
  start := ⟨.start [] true, 0⟩
  step := SignalledThreads.step null

/-! ## What should hold -/

namespace SignalledThreads

/-- Nobody adds a task, wakes up for no reason or shuts down; what there is to do is done. -/
def Quiet : SignalStep P n → Prop
  | .call _ _ | .goOn _ | .signal _ => True
  | _ => False

instance : (a : SignalStep P n) → Decidable (Quiet a)
  | .call _ _ | .goOn _ | .signal _ => isTrue trivial
  | .addTask _ | .addTaskBatch _ | .spurious _ | .shutDown => isFalse id

/-- Some thread that does not wait will look at the list, or a signal is about to come. -/
def Attended (s : SignalledThreads P n) : Prop :=
  0 < s.signals ∨ ∃ w, (s.threads.stage w).isWaiting = false

/-- Every task but `NULL` has been run as often as it was added. -/
def AllRan [DecidableEq P] (null : P) (s : SignalledThreads P n) : Prop :=
  (s.threads.ran.filter (· ≠ null)).Perm (s.threads.submitted.filter (· ≠ null))

end SignalledThreads

end CmdTran
