import Std.Data.TreeMap
import Mathlib.Logic.Function.Basic
import CmdTran.Parser.Bounded
import CmdTran.Output.Basic

/-!
# The server

`CEpollServer` and `CRecvDataProc` over one state: the two tables, the queues of the workers and the
part of the kernel that they see. Each function of the source is a function on that state, run as one
step.

Connections, the source of a buffer and the log are not in the code. No function looks at them.
-/

namespace CmdTran

/-! ## State -/

/-- What the server calls and does not define: the two block pools, and whether `EPOLL_CTL_MOD`
succeeds on an open descriptor. `freeSent` is `FreeBlock(node->pBuffer)` of the send loop for a node with this
block: the loop has deleted the node by then, so the address is what the freed memory has. -/
structure World (ω : Type) where
  getBuff : ω → Option Block × ω
  freeBuff : ω → Block → ω
  getBlock : ω → Option Block × ω
  freeBlock : ω → Block → ω
  epollCtlMod : ω → Bool × ω
  freeSent : ω → Block → ω := freeBlock

/-- Pools that are never empty and an `epoll_ctl` that never fails. -/
def plentiful : World Unit where
  getBuff w := (some (Buffer.fill memPoolBlockSize 0), w)
  freeBuff w _ := w
  getBlock w := (some (Buffer.fill memPoolBlockSize 0), w)
  freeBlock w _ := w
  epollCtlMod w := (true, w)

/-- The descriptors that are open, the connection behind each, whether its interest mask has
`EPOLLIN`, and the number of connections accepted. -/
structure Kernel where
  fds : Nat → Option Conn
  readable : Nat → Bool
  accepted : Nat

/-- `conn` is the connection whose accept made the entry; it is not in the code. -/
structure ClientInfo where
  socket : Nat
  clientType : Int
  cameraId : Nat
  frameRestruct : Parser
  frameCount : Int
  enableRead : Bool
  conn : Conn

/-- `conn` is the connection whose bytes made the frame; it is not in the code. -/
structure CFrameProcTask where
  sock : Nat
  frame : Block
  frameLen : Int
  conn : Option Conn

/-- `epoll_event`: the descriptor, `EPOLLIN` and `EPOLLOUT`. -/
structure EpollEvent where
  fd : Nat
  epollin : Bool
  epollout : Bool
  deriving DecidableEq

/-- What happened: bytes read from a connection; bytes that `SendData` put in the chain of a socket,
with the connection behind it and, for a picture, the one it came from; bytes that the kernel took
for a connection, with the number of connections that had been accepted at their `SendData`. -/
inductive Event where
  | received (conn : Conn) (bytes : List UInt8)
  | queued (conn : Option Conn) (source : Option Conn) (bytes : List UInt8)
  | sent (conn : Conn) (made : Nat) (bytes : List UInt8)
  deriving DecidableEq

/-- The tag of a node is the number of connections accepted at its `SendData`. -/
abbrev Socket := SocketInformation Nat

structure Server (ω : Type) where
  world : ω
  kernel : Kernel
  clientMap : Std.TreeMap Nat ClientInfo
  socketInfo : Std.TreeMap Nat Socket
  recvTasks : Nat → List EpollEvent
  frameTasks : Nat → List CFrameProcTask
  sendTasks : Nat → List Nat
  log : List Event

/-! ## The kernel -/

namespace Kernel

def start : Kernel := ⟨fun _ => none, fun _ => false, 0⟩

/-- `accept` gives out the descriptor `fd`, `EPOLL_CTL_ADD` puts `EPOLLIN` in its mask. -/
def accept (k : Kernel) (fd : Nat) : Kernel :=
  ⟨Function.update k.fds fd (some k.accepted), Function.update k.readable fd true, k.accepted + 1⟩

/-- `close`: nothing happens to a descriptor that is not open. -/
def close (k : Kernel) (fd : Nat) : Kernel := { k with fds := Function.update k.fds fd none }

end Kernel

namespace Server

variable {ω : Type}

def start (w : ω) : Server ω :=
  ⟨w, Kernel.start, ∅, ∅, fun _ => [], fun _ => [], fun _ => [], []⟩

/-! ## Worker queues -/

/-- `id % m_iWorkerCount`, with `InitPool(4)` for each of the three pools. -/
def worker (id : Nat) : Nat := id % 4

def addTask {α : Type} (queues : Nat → List α) (id : Nat) (task : α) : Nat → List α :=
  Function.update queues (worker id) (queues (worker id) ++ [task])

def addFrameProcTask (s : Server ω) (sock : Nat) (frame : Block) (len : Int) : Server ω :=
  { s with frameTasks := addTask s.frameTasks sock ⟨sock, frame, len, s.kernel.fds sock⟩ }

def addSendTask (s : Server ω) (sock : Nat) : Server ω :=
  { s with sendTasks := addTask s.sendTasks sock sock }

/-! ## The tables -/

/-- `AddClient`; an entry that is there stays. -/
def addClient (s : Server ω) (sock : Nat) (conn : Conn) : Server ω :=
  { s with clientMap := s.clientMap.insertIfNew sock ⟨sock, -1, 0, Parser.new, 0, true, conn⟩ }

def quitClient (s : Server ω) (sock : Nat) : Server ω :=
  { s with clientMap := s.clientMap.erase sock }

/-- The insert of the accept branch; an entry that is there stays. -/
def insertSocket (s : Server ω) (sock : Nat) (conn : Conn) : Server ω :=
  { s with socketInfo := s.socketInfo.insertIfNew sock (.new sock conn) }

def close (s : Server ω) (fd : Nat) : Server ω := { s with kernel := s.kernel.close fd }

variable (env : World ω)

/-- The call-backs that are set do nothing. -/
def removeSocket (s : Server ω) (sock : Nat) : Server ω :=
  match s.socketInfo[sock]? with
  | none => s
  | some info =>
      { s with
        socketInfo := s.socketInfo.erase sock
        world := info.outputChain.foldl (fun w node => env.freeBlock w node.pBuffer) s.world }

/-! ## `SendData` -/

/-- `source` is the connection a picture came from; the code does not have it. -/
def sendData (s : Server ω) (sock : Nat) (buffer : List UInt8) (len : Int) (backfun : Bool)
    (source : Option Conn) : Server ω × Bool :=
  if len ≤ 0 ∨ len > memPoolBlockSize then (s, false)
  else
    match env.getBlock s.world with
    | (none, world) => ({ s with world }, false)
    | (some buf, world) =>
        let buf := buf.put (buffer.take len.toNat)
        match s.socketInfo[sock]? with
        | none => ({ s with world := env.freeBlock world buf }, false)
        | some info =>
            let s := { s with
              world
              socketInfo := s.socketInfo.insert sock
                (info.push (.new buf len.toNat backfun s.kernel.accepted))
              log := s.log ++ [.queued (s.kernel.fds sock) source (buf.toList.take len.toNat)] }
            (if info.currSendState = .allow then s.addSendTask sock else s, true)

/-! ## Flow control -/

/-- `epoll_ctl(EPOLL_CTL_MOD)` with `EPOLLIN` in the mask or not, and whether it succeeds. -/
def epollCtlMod (s : Server ω) (sock : Nat) (enable : Bool) : Server ω × Bool :=
  match s.kernel.fds sock, env.epollCtlMod s.world with
  | none, _ => (s, false)
  | some _, (false, world) => ({ s with world }, false)
  | some _, (true, world) =>
      ({ s with
        world
        kernel := { s.kernel with readable := Function.update s.kernel.readable sock enable } }, true)

def modifyRead (s : Server ω) (sock : Nat) (enable : Bool) : Server ω × Bool :=
  match s.socketInfo[sock]? with
  | none => (s, true)
  | some info =>
      if enable = info.enableRead then (s, true)
      else
        { s with socketInfo := s.socketInfo.insert sock { info with enableRead := enable } }.epollCtlMod
          env sock enable

def enableRead (s : Server ω) (sock : Nat) : Server ω × Bool := s.modifyRead env sock true

def disableRead (s : Server ω) (sock : Nat) : Server ω × Bool := s.modifyRead env sock false

def flowControlHigh : Int := 1024 * 300

def flowControlLow : Int := 512

def increaseFrameCount (s : Server ω) (sock : Nat) (count : Int) : Server ω × Int :=
  match s.clientMap[sock]? with
  | none => (s, 0)
  | some client =>
      let frameCount := client.frameCount + count
      if frameCount > flowControlHigh ∧ client.enableRead = true then
        let s := (s.disableRead env sock).1
        let client := { client with frameCount, enableRead := false }
        ({ s with clientMap := s.clientMap.insert sock client }, frameCount)
      else ({ s with clientMap := s.clientMap.insert sock { client with frameCount } }, frameCount)

def decreaseFrameCount (s : Server ω) (sock : Nat) : Server ω × Int :=
  match s.clientMap[sock]? with
  | none => (s, 0)
  | some client =>
      let frameCount := client.frameCount - 1
      if frameCount < flowControlLow ∧ client.enableRead = false then
        let s := (s.enableRead env sock).1
        let client := { client with frameCount, enableRead := true }
        ({ s with clientMap := s.clientMap.insert sock client }, frameCount)
      else ({ s with clientMap := s.clientMap.insert sock { client with frameCount } }, frameCount)

/-! ## Received bytes -/

def addRecvData (s : Server ω) (sock : Nat) (buff : ReadBuff) : Server ω × Bool :=
  match s.clientMap[sock]? with
  | none => (s, false)
  | some client =>
      let r := client.frameRestruct.call env.getBuff s.world buff
      let client := { client with
        frameRestruct := client.frameRestruct.next env.getBuff s.world buff }
      let s := { s with world := r.pool, clientMap := s.clientMap.insert sock client }
      let s := r.queued.foldl (fun s t => s.addFrameProcTask sock t.1 t.2) s
      ((s.increaseFrameCount env sock r.frameCount).1, true)

end Server

end CmdTran
