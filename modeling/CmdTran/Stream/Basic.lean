import CmdTran.Handover.Basic
import CmdTran.Pool.Basic
import CmdTran.Stream.Chain

/-!
# The bytes of one socket

`SendData` and the send tasks of a registered socket, each run as a whole, with the blocks of
`SendDataMem` at their addresses and the chain as it is in memory. Other sockets take and free blocks of
the same pool in between.

Whether a call of `SendData` queues a send task, or an event does, is left open: a run of one may come at
any time. A call-back does nothing to the server.
-/

namespace CmdTran

/-- The buffer of a `SendData` that returned true, and whether it has a call-back. -/
structure Given where
  bytes : List UInt8
  backfun : Bool
  deriving DecidableEq

/-- What becomes of the call when its last byte has been accepted. -/
def Given.resolve (g : Given) (call : Nat) : List Outcome :=
  if g.backfun then [.callBack call 0, .freeBlock call] else [.freeBlock call]

/-- The bytes that the kernel accepts. -/
def Outcome.bytes : Outcome → List UInt8
  | sent _ bytes => bytes
  | callBack _ _ | freeBlock _ => []

/-- `memory` is what the blocks hold, by address, and `others` has the blocks of the other sockets.
`given` has the buffers of the calls of `SendData` that returned true, in their order, and `log` what
happened to them. No step looks at these two. -/
structure Stream where
  pool : CMemPool
  memory : Nat → Block
  chain : CMemChain
  others : List Nat
  given : List Given
  log : List Outcome

/-- A `SendData` gets a pointer to at least `len` bytes, or `NULL`. A send task gets what its calls of
`send` return, one after another. -/
inductive StreamStep where
  | sendData (buffer : Option (List UInt8)) (len : Int) (backfun : Bool)
  | sendTask (results : List Int)
  | othersGet (content : Block)
  | othersFree (addr : Nat)

def StreamNode.given (memory : Nat → Block) (node : StreamNode) : Given :=
  ⟨(memory node.pBuffer).toList.take node.len, node.callBackFun⟩

namespace Stream

def start (p : CMemPool) (memory : Nat → Block) : Stream := ⟨p, memory, .new, [], [], []⟩

/-! ## Steps -/

/-- `none` is a `memcpy` from behind the end of the buffer, or a step of the pool or of the chain that is
not defined. -/
def sendData (s : Stream) (buffer : Option (List UInt8)) (len : Int) (backfun : Bool) :
    Option (Stream × Bool) :=
  match buffer with
  | none => some (s, false)
  | some buffer =>
      if len ≤ 0 ∨ len > memPoolBlockSize then some (s, false)
      else if buffer.length < len then none
      else
        s.pool.getBlock.bind fun
          | (pool, none) => some ({ s with pool }, false)
          | (pool, some buf) =>
              let bytes := buffer.take len.toNat
              (s.chain.push buf len.toNat backfun s.given.length).map fun chain =>
                ({ s with
                    pool
                    memory := Function.update s.memory buf ((s.memory buf).put bytes)
                    chain
                    given := s.given ++ [⟨bytes, backfun⟩] }, true)

/-- The kernel takes the next bytes of the node. -/
def accept (s : Stream) (node : StreamNode) (ret : Nat) : Stream :=
  { s with log := s.log ++
      [.sent node.tag (((s.memory node.pBuffer).toList.drop node.begin).take ret)] }

/-- The loop of `ProcessTask` from `GetHead` on, and whether it goes on. `send` returns neither 0 nor more
than it is asked for. -/
def sendOnce (s : Stream) (ret : Int) : Option (Stream × Bool) :=
  s.chain.head.bind fun node =>
    let rest : Int := (node.len : Int) - node.begin
    if ret < 0 then some (s, false)
    else if 0 < ret ∧ ret < rest then
      some ({ s.accept node ret.toNat with chain := s.chain.advance ret.toNat }, false)
    else if 0 < ret ∧ ret = rest then
      s.chain.deleteHead.bind fun chain =>
        (s.pool.freeBlock node.pBuffer).map fun r =>
          let s := s.accept node ret.toNat
          ({ s with
              chain
              pool := r.1
              log := s.log ++ (node.given s.memory).resolve node.tag }, true)
    else none

/-- The loop, with as many results as it calls `send`. -/
def sendTask (s : Stream) : List Int → Option Stream
  | [] => if s.chain.size > 0 then none else some s
  | ret :: results =>
      if s.chain.size > 0 then
        (s.sendOnce ret).bind fun
          | (s, true) => sendTask s results
          | (s, false) => if results = [] then some s else none
      else none

def step (s : Stream) : StreamStep → Option Stream
  | .sendData buffer len backfun => (s.sendData buffer len backfun).map Prod.fst
  | .sendTask results => s.sendTask results
  | .othersGet content =>
      s.pool.getBlock.map fun
        | (pool, none) => { s with pool }
        | (pool, some buf) =>
            { s with
              pool
              memory := Function.update s.memory buf content
              others := buf :: s.others }
  | .othersFree addr =>
      if addr ∈ s.others then
        (s.pool.freeBlock addr).map fun r => { s with pool := r.1, others := s.others.erase addr }
      else none

/-! ## What should hold -/

def bytesOf (calls : List Given) : List UInt8 := calls.flatMap Given.bytes

/-- What the kernel has accepted. -/
def accepted (s : Stream) : List UInt8 := s.log.flatMap Outcome.bytes

/-- What is left of the chain. -/
def unsent (s : Stream) : List UInt8 :=
  s.chain.contents.flatMap fun node => (node.given s.memory).bytes.drop node.begin

def history (s : Stream) (call : Nat) : List Outcome := s.log.filter (·.call = call)

/-- The blocks that are free. -/
def unused (s : Stream) : List Nat := s.pool.unUsedBlockQueue.contents

/-- All bytes of the call are among those that the kernel has accepted. -/
def Completed (s : Stream) (call : Nat) : Prop :=
  (bytesOf (s.given.take (call + 1))).length ≤ s.accepted.length

instance (s : Stream) (call : Nat) : Decidable (s.Completed call) :=
  inferInstanceAs (Decidable (_ ≤ _))

/-- The bytes go out in the order in which they came; each call is sent piece by piece, called back with
the code 0 once, if it wants to, and its block freed once, after its last byte and not before; no block is
lost. -/
structure Intact (s : Stream) : Prop where
  stream : s.accepted ++ s.unsent = bytesOf s.given
  calls : ∀ (call : Nat) g, s.given[call]? = some g → ∃ pieces : List (List UInt8),
    s.history call = pieces.map (.sent call) ++
      (if s.Completed call then g.resolve call else []) ∧
    pieces.flatten =
      g.bytes.take (s.accepted.length - (bytesOf (s.given.take call)).length)
  only : ∀ call, s.given.length ≤ call → s.history call = []
  blocks : (s.unused.length : Int) + s.chain.size + s.others.length = s.pool.blockTotalCount

/-- Each call of `SendData` and each round of a send task is defined. -/
structure Goes (s : Stream) : Prop where
  sendData : ∀ (buffer : List UInt8) (len : Int) backfun, len ≤ buffer.length →
    (s.sendData (some buffer) len backfun).isSome
  sendOnce : 0 < s.chain.size → ∃ node, s.chain.head = some node ∧
    ∀ ret : Int, ret < 0 ∨ 1 ≤ ret ∧ ret ≤ (node.len : Int) - node.begin →
      (s.sendOnce ret).isSome

/-- A `SendData` that returns false changes neither the chain nor the number of free blocks. -/
def KeepsWhenFalse (s : Stream) : Prop :=
  ∀ buffer len backfun s', s.sendData buffer len backfun = some (s', false) →
    s'.chain = s.chain ∧ s'.unused = s.unused ∧
      s'.pool.getBlockFreeCount = s.pool.getBlockFreeCount

end Stream

/-- A socket that has just been registered, and the pool of its server. -/
def streams (p : CMemPool) (memory : Nat → Block) : StepSystem Stream StreamStep where
  start := Stream.start p memory
  step := Stream.step

end CmdTran
