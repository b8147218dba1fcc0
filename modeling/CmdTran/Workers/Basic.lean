import CmdTran.Server.System

/-!
# The workers

The handlers behind the queues of the three worker pools: the epoll thread queues an event with the
worker of its descriptor, each worker takes the first task of its queue and runs it to its end.
-/

namespace CmdTran

open Server

variable {ω : Type} (env : World ω) (listenSocket : Nat)

/-- What happens next: an event is queued, or a worker of one of the pools takes its first task. -/
inductive Job where
  | deliver (ev : EpollEvent)
  | recv (w : Nat) (answers : Answers)
  | frame (w : Nat)
  | send (w : Nat) (results : List SendResult)

/-- The worker of a descriptor, in each of the pools. -/
def workerOf (fd : Nat) : Fin 4 := ⟨worker fd, Nat.mod_lt fd (by decide)⟩

namespace Server

def popFrame (s : Server ω) (w : Nat) : Server ω :=
  { s with frameTasks := Function.update s.frameTasks w (s.frameTasks w).tail }

def popRecv (s : Server ω) (w : Nat) : Server ω :=
  { s with recvTasks := Function.update s.recvTasks w (s.recvTasks w).tail }

def popSend (s : Server ω) (w : Nat) : Server ω :=
  { s with sendTasks := Function.update s.sendTasks w (s.sendTasks w).tail }

end Server

def Job.step (s : Server ω) : Job → Option (Server ω)
  | .deliver ev => some { s with recvTasks := addTask s.recvTasks ev.fd ev }
  | .recv w answers =>
      (s.recvTasks w).head?.bind fun ev =>
        (Handler.event ev answers).step env listenSocket (s.popRecv w)
  | .frame w =>
      (s.frameTasks w).head?.bind fun task =>
        (Handler.frame task).step env listenSocket (s.popFrame w)
  | .send w results =>
      (s.sendTasks w).head?.bind fun sock =>
        (Handler.sendTask sock results).step env listenSocket (s.popSend w)

def workers (w : ω) : StepSystem (Server ω) Job where
  start := Server.start w
  step := Job.step env listenSocket

/-- The descriptor of the accept that the next job makes, if it succeeds. -/
def Job.accepts (s : Server ω) : Job → Option Nat
  | .recv w answers =>
      (s.recvTasks w).head?.bind fun ev => (Handler.event ev answers).accepts listenSocket
  | _ => none

/-- No accept gives out a descriptor that a queued frame still has. -/
def KeepsFrames (s : Server ω) (job : Job) : Prop :=
  ∀ fd w, job.accepts listenSocket s = some fd → ∀ task ∈ s.frameTasks w, task.sock ≠ fd

end CmdTran
