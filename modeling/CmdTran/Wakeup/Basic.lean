import CmdTran.Lib.System
import CmdTran.Output.Lemmas.Round

/-!
# Waiting for the kernel

`CurrSendState` of one socket between the callers of `SendData`, the send tasks, the handler of its
events and the frame worker that rejects a login of it, each cut at its locks, at `send` and at the reads and
writes of the state. The call-backs and the pool are left out. When its number is given out again, the connection
after it begins with what is there.

The kernel owes an `EPOLLOUT` after a `send` that took too little. It may report one at any time, alone
or together with `EPOLLIN`.
-/

namespace CmdTran

/-! ## State -/

structure Readiness where
  epollin : Bool
  epollout : Bool
  deriving DecidableEq, Repr

/-- The handler has an event, or has written `SEND_STATE_ALLOW` and is about to add a send task. -/
inductive HandlerStage where
  | idle
  | taken (e : Readiness)
  | allowed
  deriving DecidableEq, Repr

/-- Who has `OutputChainLock`: a send task at the head of its loop, or one whose `send` returned. -/
inductive LoopStage where
  | unlocked
  | locked
  | sent (ret : Int)
  deriving DecidableEq, Repr

/-- Calls of `SendData` and send tasks are counted by how far they have got. -/
structure Wakeup where
  registered : Bool
  isOpen : Bool
  info : SocketInformation Unit
  owed : Bool
  events : List Readiness
  handler : HandlerStage
  callsFound : Nat
  callsPushed : Nat
  callsAllowed : Nat
  tasksQueued : Nat
  tasksFound : Nat
  loop : LoopStage
  deriving DecidableEq

inductive WakeupStep where
  | lookup
  | push (buf : Block) (len : Nat) (backfun : Bool)
  | readState
  | enqueue
  | find
  | lockChain
  | send (r : SendResult)
  | afterSend
  | deliver (e : Readiness)
  | take
  | handle (eof : Bool)
  | addTask
  | reject
  | accept

namespace Wakeup

/-- Right after the accept handler. -/
def start : Wakeup :=
  ⟨true, true, .new 0 0, false, [], .idle, 0, 0, 0, 0, 0, .unlocked⟩

/-! ## Steps -/

/-- `ProcessRecvEnts` for an event of a connection; `eof` is whether its reads come to an end of the
stream. -/
def processRecvEnts (s : Wakeup) (e : Readiness) (eof : Bool) : Option Wakeup :=
  if e.epollin then
    if eof then
      -- `close`, `QuitClient`, `RemoveSocket`
      if s.isOpen then some { s with registered := false, isOpen := false, owed := false, handler := .idle }
      else none
    else some { s with handler := .idle }
  else if e.epollout then
    if s.registered then
      some { s with info := { s.info with currSendState := .allow }, handler := .allowed }
    else some { s with handler := .idle }
  else
    -- `close`, `QuitClient`
    some { s with isOpen := false, owed := false, handler := .idle }

/-- `send` for the head of the chain, or the end of the loop. -/
def sendHead (s : Wakeup) (r : SendResult) : Wakeup :=
  match s.info.outputChain with
  | [] => { s with loop := .unlocked }
  | node :: _ =>
      let ret := if s.isOpen then r.ret node else -1
      { s with owed := s.owed || (0 ≤ ret && ret < node.rest), loop := .sent ret }

/-- The accept handler of the next connection with the number. The insert keeps an entry that is there; one that
has been removed is not in use any more. -/
def acceptAgain (s : Wakeup) : Option Wakeup :=
  if s.registered then some { s with isOpen := true }
  else if s.callsFound = 0 ∧ s.callsPushed = 0 ∧ s.tasksFound = 0 ∧ s.loop = .unlocked then
    some { s with registered := true, isOpen := true, info := .new 0 0 }
  else none

def step (s : Wakeup) : WakeupStep → Option Wakeup
  | .lookup => if s.registered then some { s with callsFound := s.callsFound + 1 } else some s
  | .push buf len backfun =>
      if 0 < s.callsFound ∧ s.loop = .unlocked then
        some { s with
          info := s.info.push (.new buf len backfun ())
          callsFound := s.callsFound - 1
          callsPushed := s.callsPushed + 1 }
      else none
  | .readState =>
      if 0 < s.callsPushed then
        if s.info.currSendState = .allow then
          some { s with callsPushed := s.callsPushed - 1, callsAllowed := s.callsAllowed + 1 }
        else some { s with callsPushed := s.callsPushed - 1 }
      else none
  | .enqueue =>
      if 0 < s.callsAllowed then
        some { s with callsAllowed := s.callsAllowed - 1, tasksQueued := s.tasksQueued + 1 }
      else none
  | .find =>
      if 0 < s.tasksQueued then
        if s.registered then
          some { s with tasksQueued := s.tasksQueued - 1, tasksFound := s.tasksFound + 1 }
        else some { s with tasksQueued := s.tasksQueued - 1 }
      else none
  | .lockChain =>
      if 0 < s.tasksFound ∧ s.loop = .unlocked then
        some { s with tasksFound := s.tasksFound - 1, loop := .locked }
      else none
  | .send r => if s.loop = .locked then some (s.sendHead r) else none
  | .afterSend =>
      match s.loop with
      | .sent ret =>
          let after := CmdTran.afterSend s.info ret
          some { s with info := after.info, loop := if after.again then .locked else .unlocked }
      | _ => none
  | .deliver e =>
      if s.isOpen then some { s with events := s.events ++ [e], owed := s.owed && !e.epollout }
      else none
  | .take =>
      match s.handler, s.events with
      | .idle, e :: events => some { s with events, handler := .taken e }
      | _, _ => none
  | .handle eof =>
      match s.handler with
      | .taken e => s.processRecvEnts e eof
      | _ => none
  | .addTask =>
      if s.handler = .allowed then
        some { s with tasksQueued := s.tasksQueued + 1, handler := .idle }
      else none
  -- `QuitClient` and `close` in `CommandProc`, with no `RemoveSocket`
  | .reject => some { s with isOpen := false, owed := false }
  | .accept => if s.isOpen then none else s.acceptAgain

/-! ## Wake-ups -/

/-- A delivered `EPOLLOUT` waits for the handler. -/
def Delivered (s : Wakeup) : Prop := ∃ e ∈ s.events, e.epollout = true

/-- The handler has taken an `EPOLLOUT` and not looked at it. -/
def Taken (s : Wakeup) : Prop :=
  match s.handler with
  | .taken e => e.epollout = true
  | _ => False

/-- The `EPOLLOUT` is undelivered, or its event is unhandled. -/
def Outstanding (s : Wakeup) : Prop := s.owed = true ∨ s.Delivered ∨ s.Taken

/-- A `send` took too little and its task has not written `SEND_STATE_WAITING` yet. -/
def Short (s : Wakeup) : Prop :=
  match s.loop, s.info.outputChain with
  | .sent ret, node :: _ => 0 < ret ∧ ret < node.rest
  | _, _ => False

def NeedsWake (s : Wakeup) : Prop := s.info.currSendState = .waiting ∨ s.Short

/-- An event that needs its `EPOLLOUT` is not handled in another branch, the state is not set back in
the middle of a short `send`, and the descriptor of a connection that waits is not closed, by a hang-up or a
rejected login, unless another `EPOLLOUT` is on its way. -/
def InTime (s : Wakeup) : WakeupStep → Prop
  | .handle eof =>
      match s.handler with
      | .taken ⟨true, epollout⟩ =>
          epollout = true → eof = false → s.NeedsWake → s.owed = true ∨ s.Delivered
      | .taken ⟨false, true⟩ => s.Short → s.owed = true ∨ s.Delivered
      | .taken ⟨false, false⟩ => s.NeedsWake → s.Delivered
      | _ => True
  | .reject => s.NeedsWake → s.Delivered ∨ s.Taken
  | _ => True

instance (s : Wakeup) : Decidable s.Delivered :=
  inferInstanceAs (Decidable (∃ e ∈ s.events, e.epollout = true))

instance (s : Wakeup) : Decidable s.Taken := by
  unfold Taken
  split <;> infer_instance

instance (s : Wakeup) : Decidable s.Outstanding :=
  inferInstanceAs (Decidable (_ ∨ _ ∨ _))

instance (s : Wakeup) : Decidable s.Short := by
  unfold Short
  split <;> infer_instance

instance (s : Wakeup) : Decidable s.NeedsWake :=
  inferInstanceAs (Decidable (_ ∨ _))

instance (s : Wakeup) (a : WakeupStep) : Decidable (s.InTime a) := by
  unfold InTime
  split
  · split <;> infer_instance
  · infer_instance
  · infer_instance

end Wakeup

end CmdTran
