import CmdTran.Lib.System
import CmdTran.Output.Basic

/-!
# The listening socket

Connections that the kernel has completed wait in its backlog until an `accept` takes them. The socket is
registered edge-triggered: the kernel owes one event after an arrival, and one event only for all the
arrivals before it is delivered. The events go to the queue of one recv worker, between those of other
descriptors.
-/

namespace CmdTran

/-! ## State -/

/-- A task of the recv worker: for the listening socket or for another descriptor. -/
inductive ListenTask where
  | listen
  | other
  deriving DecidableEq, Repr

/-- How far the accept branch of `ProcessRecvEnts` has got: before `accept`, or after it with its
connection, if it has one. -/
inductive ListenStage where
  | idle
  | accepting
  | registering (connfd : Option Conn)
  deriving DecidableEq, Repr

structure Listener where
  backlog : List Conn
  owed : Bool
  tasks : List ListenTask
  stage : ListenStage
  accepted : List Conn
  deriving DecidableEq

inductive ListenStep where
  | arrive (conn : Conn)
  | deliver (task : ListenTask)
  | take
  | accept (ok : Bool)
  | register

namespace Listener

/-- `AddLisSockEvent` has registered the socket while these connections were waiting. -/
def start (waiting : List Conn) : Listener := ⟨waiting, decide (waiting ≠ []), [], .idle, []⟩

/-! ## Steps -/

/-- The event of `_EventRecvFun` becomes the last task of its worker. -/
def addTask (s : Listener) (task : ListenTask) : Listener := { s with tasks := s.tasks ++ [task] }

/-- One `accept` for each event. It fails on an empty backlog, and when `ok` is false; a failure is
logged, and the branch goes on. -/
def acceptOnce (s : Listener) (ok : Bool) : Listener :=
  match s.backlog, ok with
  | conn :: backlog, true =>
      { s with backlog, accepted := s.accepted ++ [conn], stage := .registering (some conn) }
  | _, _ => { s with stage := .registering none }

def step (s : Listener) : ListenStep → Option Listener
  | .arrive conn => some { s with backlog := s.backlog ++ [conn], owed := true }
  | .deliver .listen => if s.owed then some ({ s with owed := false }.addTask .listen) else none
  | .deliver .other => some (s.addTask .other)
  | .take =>
      match s.stage, s.tasks with
      | .idle, .listen :: tasks => some { s with tasks, stage := .accepting }
      | .idle, .other :: tasks => some { s with tasks }
      | _, _ => none
  | .accept ok =>
      match s.stage with
      | .accepting => some (s.acceptOnce ok)
      | _ => none
  | .register =>
      match s.stage with
      | .registering _ => some { s with stage := .idle }
      | _ => none

/-! ## What should hold -/

/-- No listen event is owed, queued or being handled. -/
def Quiet (s : Listener) : Prop := s.owed = false ∧ .listen ∉ s.tasks ∧ s.stage = .idle

/-- What the server does with the events that there are, when its `accept` calls do not fail. -/
def Handles : ListenStep → Prop
  | .arrive _ => False
  | .accept ok => ok = true
  | _ => True

/-- A connection arrives when no event is owed, and an `accept` that finds a connection takes it. -/
def OneByOne (s : Listener) : ListenStep → Prop
  | .arrive _ => s.owed = false
  | .accept ok => ok = true ∨ s.backlog = []
  | _ => True

instance (s : Listener) : (a : ListenStep) → Decidable (s.OneByOne a)
  | .arrive _ => inferInstanceAs (Decidable (s.owed = false))
  | .accept ok => inferInstanceAs (Decidable (ok = true ∨ s.backlog = []))
  | .deliver _ | .take | .register => isTrue trivial

end Listener

def listener (waiting : List Conn) : StepSystem Listener ListenStep where
  start := Listener.start waiting
  step := Listener.step

end CmdTran
