import CmdTran.Parser.Lemmas.TwoBuffers

/-!
# The output of one socket

`SocketInformation` with its chain of buffers, and the pieces of `SendData`,
`CSocketSendTask::ProcessTask` and `RemoveSocket` that work on it. A chain is the list of its nodes,
head first.

A node has a tag that the code does not have. It says where the node came from.
-/

namespace CmdTran

/-- A connection: the number of connections accepted before it. The code knows descriptors only. -/
abbrev Conn := Nat

inductive SendState where
  | allow
  | waiting
  deriving DecidableEq, Repr

structure MemNode (τ : Type) where
  pBuffer : Block
  /-- Whether `CallBackFun` is not `NULL`. -/
  callBackFun : Bool
  begin : Nat
  len : Nat
  tag : τ
  deriving DecidableEq

/-- `conn` is the connection whose accept made the entry; it is not in the code. -/
structure SocketInformation (τ : Type) where
  sockId : Nat
  outputChain : List (MemNode τ)
  currSendState : SendState
  enableRead : Bool
  conn : Conn
  deriving DecidableEq

variable {τ : Type}

namespace MemNode

/-- The node that `Push` makes. -/
def new (buf : Block) (len : Nat) (backfun : Bool) (tag : τ) : MemNode τ :=
  ⟨buf, backfun, 0, len, tag⟩

/-- `node->len - node->begin` -/
def rest (node : MemNode τ) : Int := (node.len : Int) - node.begin

def unsent (node : MemNode τ) : List UInt8 := (node.pBuffer.toList.take node.len).drop node.begin

end MemNode

namespace SocketInformation

/-- `new SocketInformation()` and `sockId = connfd` of the accept branch. -/
def new (sockId : Nat) (conn : Conn) : SocketInformation τ := ⟨sockId, [], .allow, true, conn⟩

/-- `OutputChain.Push` -/
def push (info : SocketInformation τ) (node : MemNode τ) : SocketInformation τ :=
  { info with outputChain := info.outputChain ++ [node] }

end SocketInformation

/-- What the send loop does with the result of one `send`: the socket after it, the node to call
back and to free, and whether the loop goes on. -/
structure AfterSend (τ : Type) where
  info : SocketInformation τ
  done : Option (MemNode τ)
  again : Bool

/-- The body of the loop of `CSocketSendTask::ProcessTask` after `send`. -/
def afterSend (info : SocketInformation τ) (ret : Int) : AfterSend τ :=
  match info.outputChain with
  | [] => ⟨info, none, false⟩
  | node :: chain =>
      if ret < 0 then ⟨info, none, false⟩
      else if 0 < ret ∧ ret < node.rest then
        ⟨{ info with
            outputChain := { node with begin := node.begin + ret.toNat } :: chain
            currSendState := .waiting }, none, false⟩
      else if 0 < ret ∧ ret = node.rest then
        ⟨{ info with outputChain := chain }, some node, true⟩
      else ⟨info, none, true⟩

/-- What the kernel makes of a `send`: an error, or at most `n` bytes. -/
inductive SendResult where
  | failed
  | took (n : Nat)
  deriving DecidableEq, Repr

/-- The return value of `send` for a node. -/
def SendResult.ret (node : MemNode τ) : SendResult → Int
  | .failed => -1
  | .took n => min n node.rest

end CmdTran
