import CmdTran.Lib.System
import CmdTran.Output.Lemmas.Round
import CmdTran.Server.Basic

/-!
# Handing a buffer over

`SendData`, the send tasks and `RemoveSocket` for one socket, cut at their locks. The socket is in
`m_SocketInfo` at first, and it is removed once.

A call of `SendData` keeps the pointer that its lookup found. The send loop deletes a completed node and
reads its fields after that, so what they are is up to whoever has the memory by then.
-/

namespace CmdTran

/-! ## State -/

inductive SocketStage where
  | registered
  | erased
  | drained
  | deleted
  deriving DecidableEq, Repr

/-- How far a call of `SendData` has got; in `allowed` it has read `SEND_STATE_ALLOW`. -/
inductive CallStage where
  | copied
  | found
  | pushed
  | allowed
  | returned (ok : Bool)
  deriving DecidableEq, Repr

structure SendCall where
  buf : Option Block
  len : Int
  backfun : Bool
  stage : CallStage
  deriving DecidableEq

/-- What happened to the buffer of a call. -/
inductive Outcome where
  | sent (call : Nat) (bytes : List UInt8)
  | callBack (call : Nat) (code : Nat)
  | freeBlock (call : Nat)
  deriving DecidableEq, Repr

def Outcome.call : Outcome → Nat
  | sent call _ => call
  | callBack call _ => call
  | freeBlock call => call

/-- The tag of a node is its call. `queued` send tasks wait for their worker, `found` of them have
looked the socket up, and one may be in its loop. -/
structure Handover (ω : Type) where
  pool : ω
  socket : SocketStage
  info : SocketInformation Nat
  sending : Bool
  queued : Nat
  found : Nat
  calls : Nat → Option SendCall
  log : List Outcome

inductive HandoverStep where
  | sendData (call : Nat) (buffer : List UInt8) (len : Int) (backfun : Bool)
  | lookup (call : Nat)
  | push (call : Nat)
  | readState (call : Nat)
  | enqueue (call : Nat)
  | writable
  | find
  | lockChain
  | send (r : SendResult) (freed : MemNode Nat)
  | erase
  | drain
  | delete

def sendFaild : Nat := 1

/-- The call-back of a node, if it has one, and its block goes back to the pool. -/
def resolve (code : Nat) (node : MemNode Nat) : List Outcome :=
  if node.callBackFun then [.callBack node.tag code, .freeBlock node.tag] else [.freeBlock node.tag]

namespace Handover

variable {ω : Type}

def start (w : ω) (sock : Nat) : Handover ω :=
  ⟨w, .registered, .new sock 0, false, 0, 0, fun _ => none, []⟩

/-! ## Steps -/

def setCall (s : Handover ω) (call : Nat) (c : SendCall) : Handover ω :=
  { s with calls := Function.update s.calls call (some c) }

/-- The next state, when the call is at `stage`. -/
def atStage (s : Handover ω) (call : Nat) (stage : CallStage)
    (next : SendCall → Block → Handover ω × CallStage) : Option (Handover ω) :=
  match s.calls call with
  | some ⟨some buf, len, backfun, at'⟩ =>
      if at' = stage then
        let r := next ⟨some buf, len, backfun, stage⟩ buf
        some (r.1.setCall call ⟨some buf, len, backfun, r.2⟩)
      else none
  | _ => none

variable (env : World ω)

/-- `freed` is what the fields of the head of the chain read as, if it has been deleted. -/
def sendOnce (s : Handover ω) (r : SendResult) (freed : MemNode Nat) : Handover ω :=
  match s.info.outputChain with
  | [] => { s with sending := false }
  | node :: _ =>
      let ret := r.ret node
      let after := afterSend s.info ret
      let s := { s with
        info := after.info
        sending := after.again
        log := s.log ++ if 0 < ret then [.sent node.tag (node.unsent.take ret.toNat)] else [] }
      match after.done with
      | none => s
      | some _ =>
          { s with pool := env.freeBlock s.pool freed.pBuffer, log := s.log ++ resolve 0 freed }

def step (s : Handover ω) : HandoverStep → Option (Handover ω)
  | .sendData call buffer len backfun =>
      if (s.calls call).isSome then none
      else if len ≤ 0 ∨ len > memPoolBlockSize then
        some (s.setCall call ⟨none, len, backfun, .returned false⟩)
      else
        match env.getBlock s.pool with
        | (none, pool) => some ({ s with pool }.setCall call ⟨none, len, backfun, .returned false⟩)
        | (some buf, pool) =>
            let buf := buf.put (buffer.take len.toNat)
            some ({ s with pool }.setCall call ⟨some buf, len, backfun, .copied⟩)
  | .lookup call =>
      s.atStage call .copied fun _ buf =>
        if s.socket = .registered then (s, .found)
        else
          ({ s with pool := env.freeBlock s.pool buf, log := s.log ++ [.freeBlock call] },
            .returned false)
  | .push call =>
      if s.sending then none
      else
        s.atStage call .found fun c buf =>
          ({ s with info := s.info.push (.new buf c.len.toNat c.backfun call) }, .pushed)
  | .readState call =>
      s.atStage call .pushed fun _ _ =>
        (s, if s.info.currSendState = .allow then .allowed else .returned true)
  | .enqueue call =>
      s.atStage call .allowed fun _ _ => ({ s with queued := s.queued + 1 }, .returned true)
  | .writable =>
      if s.socket = .registered then
        some { s with info := { s.info with currSendState := .allow }, queued := s.queued + 1 }
      else some s
  | .find =>
      if s.queued = 0 then none
      else if s.socket = .registered then
        some { s with queued := s.queued - 1, found := s.found + 1 }
      else some { s with queued := s.queued - 1 }
  | .lockChain =>
      if s.found = 0 ∨ s.sending then none
      else some { s with found := s.found - 1, sending := true }
  | .send r freed => if s.sending then some (s.sendOnce env r freed) else none
  | .erase => if s.socket = .registered then some { s with socket := .erased } else none
  | .drain =>
      if s.socket = .erased ∧ ¬s.sending then
        some { s with
          socket := .drained
          pool := s.info.outputChain.foldl (fun w node => env.freeBlock w node.pBuffer) s.pool
          info := { s.info with outputChain := [] }
          log := s.log ++ s.info.outputChain.flatMap (resolve sendFaild) }
      else none
  | .delete => if s.socket = .drained then some { s with socket := .deleted } else none

/-! ## What a call can rely on -/

def nodes (s : Handover ω) (call : Nat) : List (MemNode Nat) :=
  s.info.outputChain.filter (·.tag = call)

def history (s : Handover ω) (call : Nat) : List Outcome := s.log.filter (·.call = call)

/-- The buffer is in the chain of the registered socket, once, and what is missing of it has been
sent. -/
def Kept (s : Handover ω) (call : Nat) (c : SendCall) : Prop :=
  s.socket = .registered ∧
    ∃ (buf : Block) (begin : Nat) (pieces : List (List UInt8)), c.buf = some buf ∧
      s.nodes call = [{ MemNode.new buf c.len.toNat c.backfun call with begin }] ∧
      s.history call = pieces.map (.sent call) ∧
      pieces.flatten = (buf.toList.take c.len.toNat).take begin

/-- If the `send` completes the head of the chain, its memory reads as before. -/
def ReadsBack (s : Handover ω) (r : SendResult) (freed : MemNode Nat) : Prop :=
  ∀ node ∈ s.info.outputChain.head?, 0 < r.ret node → r.ret node = node.rest → freed = node

instance (s : Handover ω) (r : SendResult) (freed : MemNode Nat) : Decidable (s.ReadsBack r freed) :=
  match h : s.info.outputChain.head? with
  | none => isTrue (by simp [ReadsBack, h])
  | some node => decidable_of_iff (0 < r.ret node → r.ret node = node.rest → freed = node)
      (by simp [ReadsBack, h])

/-- Nobody who has found the socket pushes to it once it is drained or uses it once it is deleted, and a
completed node has not changed when it is read. -/
def InTime (s : Handover ω) : HandoverStep → Prop
  | .push _ => s.socket = .registered ∨ s.socket = .erased
  | .readState _ => s.socket ≠ .deleted
  | .lockChain => s.socket ≠ .deleted
  | .delete => s.sending = false
  | .send r freed => s.ReadsBack r freed
  | _ => True

instance (s : Handover ω) : (a : HandoverStep) → Decidable (s.InTime a)
  | .push _ => inferInstanceAs (Decidable (s.socket = .registered ∨ s.socket = .erased))
  | .readState _ => inferInstanceAs (Decidable (s.socket ≠ .deleted))
  | .lockChain => inferInstanceAs (Decidable (s.socket ≠ .deleted))
  | .delete => inferInstanceAs (Decidable (s.sending = false))
  | .send r freed => inferInstanceAs (Decidable (s.ReadsBack r freed))
  | .sendData .. | .lookup _ | .enqueue _ | .writable | .find | .erase | .drain => isTrue trivial

end Handover

end CmdTran
