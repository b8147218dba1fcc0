import CmdTran.Server.Basic

/-!
# The handlers

The tasks of the three worker pools: what a frame does (`CFrameProcTask::ProcessTask`), what an event
does (`CSocketRecvTask::ProcessRecvEnts`) and the send loop (`CSocketSendTask::ProcessTask`), each run
from its start to its end.
-/

namespace CmdTran

namespace Server

variable {ω : Type} (env : World ω)

/-! ## Frames -/

/-- `pFrame[i]` of a block, for the few places below its size that the commands read. -/
def byteAt (frame : Block) (i : Nat) : UInt8 := frame.toList.getD i 0

def clientTypePhone : UInt8 := 0

def clientTypePC : UInt8 := 1

def loginAckFrame : List UInt8 := [0x7E, 0x00, 0x05, 0x90, 0xA5]

def cameraIdAt (frame : Block) (i : Nat) : Nat :=
  (byteAt frame i).toNat * 256 + (byteAt frame (i + 1)).toNat

def newClient (s : Server ω) (sock : Nat) (frame : Block) : Server ω × Bool :=
  if byteAt frame 4 = clientTypePhone ∨ byteAt frame 4 = clientTypePC then
    match s.clientMap[sock]? with
    | none => (s, false)
    | some client =>
        let client := { client with
          clientType := (byteAt frame 4).toNat
          cameraId := cameraIdAt frame 5 }
        let s := { s with clientMap := s.clientMap.insert sock client }
        ((s.sendData env sock loginAckFrame 5 false none).1, true)
  else (s, false)

def resetCameraId (s : Server ω) (sock : Nat) (frame : Block) : Server ω :=
  match s.clientMap[sock]? with
  | none => s
  | some client =>
      { s with clientMap := s.clientMap.insert sock { client with cameraId := cameraIdAt frame 4 } }

/-- Whether `PicDataRecv` sends a picture of `sock` with this camera id to the client at `fd`. -/
def isViewer (sock cameraId fd : Nat) (client : ClientInfo) : Bool :=
  fd ≠ sock ∧ client.clientType = clientTypePC.toNat ∧ cameraId = client.cameraId

/-- The acknowledgement that the source makes here is never sent. -/
def picDataRecv (s : Server ω) (sock : Nat) (frame : Block) (frameLen : Int)
    (source : Option Conn) : Server ω :=
  match s.clientMap[sock]? with
  | none => s
  | some phone =>
      s.clientMap.toList.foldl (fun s entry =>
        if isViewer sock phone.cameraId entry.1 entry.2 then
          (s.sendData env entry.1 frame.toList frameLen true source).1
        else s) s

def commandProc (s : Server ω) (sock : Nat) (frame : Block) (frameLen : Int)
    (source : Option Conn) : Server ω :=
  if byteAt frame 3 = 0x00 then
    let (s, accepted) := s.newClient env sock frame
    if accepted then s else (s.quitClient sock).close sock
  else if byteAt frame 3 = 0x01 then s.resetCameraId sock frame
  else if byteAt frame 3 = 0x10 then s.picDataRecv env sock frame frameLen source
  else s

/-- `CFrameProcTask::ProcessTask` -/
def frameTask (s : Server ω) (task : CFrameProcTask) : Server ω :=
  let s := s.commandProc env task.sock task.frame task.frameLen task.conn
  let s := { s with world := env.freeBuff s.world task.frame }
  (s.decreaseFrameCount env task.sock).1

/-! ## Events -/

/-- The result of a `read`: an error, or bytes (none of them at the end of the stream). -/
inductive ReadResult where
  | failed
  | data (buff : ReadBuff)

/-- What the kernel answers to the calls of a recv task: the descriptor of `accept` (if any), whether
`EPOLL_CTL_ADD` succeeds, and the results of the reads. -/
structure Answers where
  connfd : Option Nat
  added : Bool
  reads : List ReadResult

/-- The accept branch. A failed `accept` goes on with a descriptor of -1, which `EPOLL_CTL_ADD`
refuses. -/
def acceptClient (s : Server ω) (connfd : Option Nat) (added : Bool) : Server ω :=
  match connfd with
  | none => s
  | some fd =>
      let conn := s.kernel.accepted
      let s := { s with kernel := s.kernel.accept fd }
      if added then (s.insertSocket fd conn).addClient fd conn else s.close fd

/-- The end of the stream: the descriptor is closed, then both tables forget it. -/
def eof (s : Server ω) (fd : Nat) : Server ω :=
  ((s.close fd).quitClient fd).removeSocket env fd

/-- The loop of `ProcessRecvData`. A descriptor that is not open cannot be read, and neither can one
that the kernel has no more answers for. -/
def processRecvData (s : Server ω) (fd : Nat) : List ReadResult → Server ω
  | [] => s
  | r :: reads =>
      match s.kernel.fds fd, r with
      | none, _ => s
      | some _, .failed => s
      | some conn, .data buff =>
          if buff.bytes.length = 0 then s.eof env fd
          else
            let s := { s with log := s.log ++ [Event.received conn buff.bytes] }
            processRecvData (s.addRecvData env fd buff).1 fd reads

/-- The `EPOLLOUT` branch. -/
def writable (s : Server ω) (fd : Nat) : Server ω :=
  match s.socketInfo[fd]? with
  | none => s
  | some info =>
      let info := { info with currSendState := .allow }
      { s with socketInfo := s.socketInfo.insert fd info }.addSendTask fd

/-- The last branch: the descriptor is closed and `m_SocketInfo` keeps its entry. -/
def hangUp (s : Server ω) (fd : Nat) : Server ω := (s.close fd).quitClient fd

/-- `CSocketRecvTask::ProcessRecvEnts`, for a server that listens on `listenSocket`. -/
def processRecvEnts (listenSocket : Nat) (s : Server ω) (event : EpollEvent) (answers : Answers) :
    Server ω :=
  if event.fd = listenSocket then s.acceptClient answers.connfd answers.added
  else if event.epollin then s.processRecvData env event.fd answers.reads
  else if event.epollout then s.writable event.fd
  else s.hangUp event.fd

/-! ## Sending -/

/-- `send` on a descriptor that is not open fails. -/
def sendRet (s : Server ω) (sock : Nat) (node : MemNode Nat) (r : SendResult) : Int :=
  match s.kernel.fds sock with
  | none => -1
  | some _ => r.ret node

/-- What a `send` leaves in the log. -/
def sentBytes (s : Server ω) (sock : Nat) (node : MemNode Nat) (ret : Int) : List Event :=
  match s.kernel.fds sock with
  | some conn => if 0 < ret then [.sent conn node.tag (node.unsent.take ret.toNat)] else []
  | none => []

/-- One round of the send loop, and whether it goes on. -/
def sendOnce (s : Server ω) (sock : Nat) (info : Socket) (r : SendResult) : Server ω × Bool :=
  match info.outputChain with
  | [] => (s, false)
  | node :: _ =>
      let ret := s.sendRet sock node r
      let after := afterSend info ret
      let s := { s with
        socketInfo := s.socketInfo.insert sock after.info
        log := s.log ++ s.sentBytes sock node ret }
      match after.done with
      | none => (s, after.again)
      | some node => ({ s with world := env.freeSent s.world node.pBuffer }, after.again)

/-- `CSocketSendTask::ProcessTask`; a kernel without answers refuses the rest. -/
def sendTask (s : Server ω) (sock : Nat) : List SendResult → Server ω
  | [] => s
  | r :: results =>
      match s.socketInfo[sock]? with
      | none => s
      | some info =>
          match s.sendOnce env sock info r with
          | (s, false) => s
          | (s, true) => sendTask s sock results

end Server

end CmdTran
