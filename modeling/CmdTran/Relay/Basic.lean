import CmdTran.Workers.Basic

/-!
# Relaying, step by step

The workers of the three pools, cut inside their tasks: each part of the accept handler, each `read` with the
lookup of its `AddRecvData`, each frame of `RestructFrame`, each part of the closing handlers, each access to
`ClientMap` of the fan-out, each `SendData` and each `send` is a step of its own, and the steps of all workers
interleave. A worker takes its tasks in order.

`PicDataRecv` goes over `ClientMap` with an iterator and without the lock, and `RestructFrame` works in the
`ClientInfo` that was found under it. A worker whose entry or `ClientInfo` has been deleted reads what the memory
has by then, which may be anything: its steps are the ones that go astray.

`number` is the descriptor that each connection was given; no step looks at it.
-/

namespace CmdTran

open Server

/-! ## Stages -/

/-- What a recv worker is in the middle of: an accepted connection before `EPOLL_CTL_ADD`, before the
insert into `m_SocketInfo`, before `AddClient`; the loop of `ProcessRecvData`; `RestructFrame`, with the frames
that it has still to save and the number of those saved; the same, but in a deleted `ClientInfo`; `AddRecvData`
before `IncreaseFrameCount`; a closed descriptor before `QuitClient` and, at the end of a stream, before
`RemoveSocket`. The connection of a frame is not in the code. -/
inductive RecvStage where
  | accepted (fd : Nat) (conn : Conn)
  | polled (fd : Nat) (conn : Conn)
  | inserted (fd : Nat) (conn : Conn)
  | reading (fd : Nat)
  | saving (fd : Nat) (conn : Conn) (frames : List (List UInt8)) (count : Nat)
  | lost (fd : Nat) (count : Nat)
  | counting (fd : Nat) (count : Nat)
  | closed (fd : Nat) (removes : Bool)
  | quit (fd : Nat)
  deriving DecidableEq

namespace RecvStage

def fd : RecvStage → Nat
  | accepted fd _ | polled fd _ | inserted fd _ | reading fd | saving fd _ _ _ | lost fd _ | counting fd _
  | closed fd _ | quit fd => fd

/-- The descriptor and the connection whose accept handler has not done `AddClient` yet. -/
def accepting : RecvStage → Option (Nat × Conn)
  | accepted fd conn | polled fd conn | inserted fd conn => some (fd, conn)
  | _ => none

/-- The descriptor whose `ClientInfo` the worker has in `RestructFrame`. -/
def saves : RecvStage → Option Nat
  | saving fd _ _ _ => some fd
  | _ => none

/-- `QuitClient` deletes the `ClientInfo` of a descriptor. -/
def forget (sock : Nat) : RecvStage → RecvStage
  | saving fd conn frames count => if fd = sock then lost fd count else saving fd conn frames count
  | stage => stage

end RecvStage

/-- An iterator of `ClientMap`: at an entry, at the end, or at an entry that has been erased. -/
inductive MapIter where
  | entry (sock : Nat)
  | ended
  | erased
  deriving DecidableEq

def MapIter.forget (sock : Nat) : MapIter → MapIter
  | entry fd => if fd = sock then erased else entry fd
  | it => it

/-- What a frame worker does next in `CFrameProcTask::ProcessTask`: look at the command; send the
acknowledgement of a login; `QuitClient` and then `close` after a rejected one; read the camera id at
`v_clientIt`; begin with the clients, compare the one at the iterator, go on to the next; or `FreeBuff` and
`DecreaseFrameCount`. -/
inductive FrameStage where
  | taken
  | acking
  | rejected
  | closing
  | found (it : MapIter)
  | beginning (cameraId : Nat)
  | relaying (cameraId : Nat) (it : MapIter)
  | relayed (cameraId : Nat) (it : MapIter)
  | finishing
  deriving DecidableEq

namespace FrameStage

/-- Where the iterator of the worker is. -/
def iter : FrameStage → Option MapIter
  | found it | relaying _ it | relayed _ it => some it
  | _ => none

def forget (sock : Nat) : FrameStage → FrameStage
  | found it => found (it.forget sock)
  | relaying cameraId it => relaying cameraId (it.forget sock)
  | relayed cameraId it => relayed cameraId (it.forget sock)
  | stage => stage

end FrameStage

structure Relay (ω : Type) where
  server : Server ω
  recv : Fin 4 → Option RecvStage
  frame : Fin 4 → Option (CFrameProcTask × FrameStage)
  send : Fin 4 → Option Nat
  number : Conn → Nat

/-- What the memory of an erased entry reads as: a key, whether a picture goes to such a client, a camera id,
and the entry that `it++` comes to, if it does not come to the end. -/
structure ErasedEntry where
  first : Nat
  viewer : Bool
  cameraId : Nat
  next : Option Nat

/-- A step of a worker, with what the kernel answers if it asks: the descriptor of `accept`, whether
`EPOLL_CTL_ADD` succeeds, the result of a `read` or a `send`. In a deleted `ClientInfo` a worker saves something or
comes to the end; at an erased entry it reads something. -/
inductive RelayStep where
  | deliver (ev : EpollEvent)
  | recv (w : Fin 4) (connfd : Option Nat) (added : Bool) (r : ReadResult)
  | frame (w : Fin 4)
  | send (w : Fin 4) (r : SendResult)
  | recvAstray (w : Fin 4) (frame : Option (Block × Int))
  | frameAstray (w : Fin 4) (entry : ErasedEntry)

namespace Server

variable {ω : Type}

/-- `NewClient` up to its acknowledgement. -/
def setClient (s : Server ω) (sock : Nat) (frame : Block) : Option (Server ω) :=
  if byteAt frame 4 = clientTypePhone ∨ byteAt frame 4 = clientTypePC then
    (s.clientMap[sock]?).map fun client =>
      { s with clientMap := s.clientMap.insert sock { client with
          clientType := (byteAt frame 4).toNat
          cameraId := cameraIdAt frame 5 } }
  else none

def clientFrom (s : Server ω) (next : Nat) : Option (Nat × ClientInfo) :=
  s.clientMap.toList.find? (next ≤ ·.1)

/-- `begin()` from 0 on, `it++` from behind the key of its entry. -/
def iterFrom (s : Server ω) (next : Nat) : MapIter :=
  (s.clientFrom next).elim .ended fun entry => .entry entry.1

/-- `AddToList` for a frame that came from `conn`. -/
def queueFrame (s : Server ω) (sock : Nat) (conn : Option Conn) (frame : Block) (len : Int) : Server ω :=
  { s with frameTasks := addTask s.frameTasks sock ⟨sock, frame, len, conn⟩ }

end Server

namespace Relay

variable {ω : Type}

def start (w : ω) : Relay ω :=
  ⟨Server.start w, fun _ => none, fun _ => none, fun _ => none, fun _ => 0⟩

variable (env : World ω) (listenSocket : Nat)

/-- `QuitClient`, and what becomes of the workers that have the client. -/
def quitClient (s : Relay ω) (fd : Nat) : Relay ω :=
  { s with
    server := s.server.quitClient fd
    recv := fun w => (s.recv w).map (·.forget fd)
    frame := fun w => (s.frame w).map fun p => (p.1, p.2.forget fd) }

/-! ## Recv workers -/

def setRecv (s : Relay ω) (w : Fin 4) (server : Server ω) (stage : Option RecvStage) : Relay ω :=
  { s with server, recv := Function.update s.recv w stage }

def takeEvent (s : Relay ω) (w : Fin 4) (ev : EpollEvent) (connfd : Option Nat) : Option (Relay ω) :=
  let server := s.server.popRecv w
  if ev.fd = listenSocket then
    match connfd with
    | none => some (s.setRecv w server none)
    | some fd =>
        if fd ≠ listenSocket ∧ server.kernel.fds fd = none then
          let conn := server.kernel.accepted
          some { s.setRecv w { server with kernel := server.kernel.accept fd }
              (some (.accepted fd conn)) with
            number := Function.update s.number conn fd }
        else none
  else if ev.epollin then some (s.setRecv w server (some (.reading ev.fd)))
  else if ev.epollout then some (s.setRecv w (server.writable ev.fd) none)
  else some (s.setRecv w (server.close ev.fd) (some (.closed ev.fd false)))

/-- One round of the loop of `ProcessRecvData`, up to the first frame that `RestructFrame` saves. Which frames it
finds, and what its parser keeps, does not depend on the answers of `GetBuff` (`Calm.dropsOnly`). -/
def readOnce (s : Relay ω) (w : Fin 4) (fd : Nat) (r : ReadResult) : Relay ω :=
  match s.server.kernel.fds fd, r with
  | none, _ => s.setRecv w s.server none
  | some _, .failed => s.setRecv w s.server none
  | some conn, .data buff =>
      if buff.bytes.length = 0 then s.setRecv w (s.server.close fd) (some (.closed fd true))
      else
        let server := { s.server with log := s.server.log ++ [Event.received conn buff.bytes] }
        match server.clientMap[fd]? with
        | none => s.setRecv w server (some (.reading fd))
        | some client =>
            let frames := (client.frameRestruct.call cleanPool () buff).queued.map taskFrame
            let client := { client with
              frameRestruct := client.frameRestruct.next env.getBuff server.world buff }
            s.setRecv w { server with clientMap := server.clientMap.insert fd client }
              (some (.saving fd conn frames 0))

/-- `SaveFrame` and `AddToList`. -/
def saveOnce (s : Relay ω) (w : Fin 4) (fd : Nat) (conn : Conn) (frame : List UInt8)
    (frames : List (List UInt8)) (count : Nat) : Relay ω :=
  match env.getBuff s.server.world with
  | (none, world) => s.setRecv w { s.server with world } (some (.saving fd conn frames count))
  | (some b, world) =>
      s.setRecv w ({ s.server with world }.queueFrame fd (some conn) (b.put frame) frame.length)
        (some (.saving fd conn frames (count + 1)))

def recvStep (s : Relay ω) (w : Fin 4) (connfd : Option Nat) (added : Bool) (r : ReadResult) :
    Option (Relay ω) :=
  match s.recv w with
  | none => (s.server.recvTasks w).head?.bind fun ev => s.takeEvent listenSocket w ev connfd
  | some (.accepted fd conn) =>
      if added then some (s.setRecv w s.server (some (.polled fd conn)))
      else some (s.setRecv w (s.server.close fd) none)
  | some (.polled fd conn) =>
      some (s.setRecv w (s.server.insertSocket fd conn) (some (.inserted fd conn)))
  | some (.inserted fd conn) => some (s.setRecv w (s.server.addClient fd conn) none)
  | some (.reading fd) => some (s.readOnce env w fd r)
  | some (.saving fd conn (frame :: frames) count) => some (s.saveOnce env w fd conn frame frames count)
  | some (.saving fd _ [] count) => some (s.setRecv w s.server (some (.counting fd count)))
  | some (.lost _ _) => none
  | some (.counting fd count) =>
      some (s.setRecv w (s.server.increaseFrameCount env fd count).1 (some (.reading fd)))
  | some (.closed fd removes) =>
      let s := s.quitClient fd
      some (s.setRecv w s.server (if removes then some (.quit fd) else none))
  | some (.quit fd) => some (s.setRecv w (s.server.removeSocket env fd) none)

def recvAstray (s : Relay ω) (w : Fin 4) (frame : Option (Block × Int)) : Option (Relay ω) :=
  match s.recv w, frame with
  | some (.lost fd count), none => some (s.setRecv w s.server (some (.counting fd count)))
  | some (.lost fd count), some (b, len) =>
      some (s.setRecv w (s.server.queueFrame fd (s.server.kernel.fds fd) b len)
        (some (.lost fd (count + 1))))
  | _, _ => none

/-! ## Frame workers -/

def setFrame (s : Relay ω) (w : Fin 4) (server : Server ω)
    (stage : Option (CFrameProcTask × FrameStage)) : Relay ω :=
  { s with server, frame := Function.update s.frame w stage }

/-- `CommandProc` up to the first call that others can see. -/
def command (s : Relay ω) (w : Fin 4) (task : CFrameProcTask) : Relay ω :=
  if byteAt task.frame 3 = 0x00 then
    match s.server.setClient task.sock task.frame with
    | none => s.setFrame w s.server (some (task, .rejected))
    | some server => s.setFrame w server (some (task, .acking))
  else if byteAt task.frame 3 = 0x01 then
    s.setFrame w (s.server.resetCameraId task.sock task.frame) (some (task, .finishing))
  else if byteAt task.frame 3 = 0x10 then
    match s.server.clientMap[task.sock]? with
    | none => s.setFrame w s.server (some (task, .finishing))
    | some _ => s.setFrame w s.server (some (task, .found (.entry task.sock)))
  else s.setFrame w s.server (some (task, .finishing))

/-- The body of the loop of `PicDataRecv` at an entry with the key `fd`, which then has the iterator `it`. -/
def relayTo (s : Relay ω) (w : Fin 4) (task : CFrameProcTask) (cameraId fd : Nat) (viewer : Bool)
    (it : MapIter) : Relay ω :=
  if viewer then
    s.setFrame w (s.server.sendData env fd task.frame.toList task.frameLen true task.conn).1
      (some (task, .relayed cameraId it))
  else s.setFrame w s.server (some (task, .relayed cameraId it))

def frameStep (s : Relay ω) (w : Fin 4) : Option (Relay ω) :=
  match s.frame w with
  | none =>
      (s.server.frameTasks w).head?.map fun task =>
        s.setFrame w (s.server.popFrame w) (some (task, .taken))
  | some (task, .taken) => some (s.command w task)
  | some (task, .acking) =>
      some (s.setFrame w (s.server.sendData env task.sock loginAckFrame 5 false none).1
        (some (task, .finishing)))
  | some (task, .rejected) =>
      let s := s.quitClient task.sock
      some (s.setFrame w s.server (some (task, .closing)))
  | some (task, .closing) =>
      some (s.setFrame w (s.server.close task.sock) (some (task, .finishing)))
  | some (task, .found (.entry fd)) =>
      (s.server.clientMap[fd]?).map fun phone =>
        s.setFrame w s.server (some (task, .beginning phone.cameraId))
  | some (task, .beginning cameraId) =>
      some (s.setFrame w s.server (some (task, .relaying cameraId (s.server.iterFrom 0))))
  | some (task, .relaying cameraId (.entry fd)) =>
      (s.server.clientMap[fd]?).map fun client =>
        s.relayTo env w task cameraId fd (isViewer task.sock cameraId fd client) (.entry fd)
  | some (task, .relaying _ .ended) => some (s.setFrame w s.server (some (task, .finishing)))
  | some (task, .relayed cameraId (.entry fd)) =>
      some (s.setFrame w s.server (some (task, .relaying cameraId (s.server.iterFrom (fd + 1)))))
  | some (task, .finishing) =>
      let server := { s.server with world := env.freeBuff s.server.world task.frame }
      some (s.setFrame w (server.decreaseFrameCount env task.sock).1 none)
  | some (_, .found _) | some (_, .relaying _ _) | some (_, .relayed _ _) => none

def frameAstray (s : Relay ω) (w : Fin 4) (entry : ErasedEntry) : Option (Relay ω) :=
  match s.frame w with
  | some (task, .found .erased) => some (s.setFrame w s.server (some (task, .beginning entry.cameraId)))
  | some (task, .relaying cameraId .erased) =>
      some (s.relayTo env w task cameraId entry.first entry.viewer .erased)
  | some (task, .relayed cameraId .erased) =>
      let it := match entry.next with
        | none => .ended
        | some fd => if (s.server.clientMap[fd]?).isSome then .entry fd else .erased
      some (s.setFrame w s.server (some (task, .relaying cameraId it)))
  | _ => none

/-! ## Send workers -/

/-- The worker takes a task and, when the socket is there, its `OutputChainLock`; then one `send` a
step. -/
def sendStep (s : Relay ω) (w : Fin 4) (r : SendResult) : Option (Relay ω) :=
  match s.send w with
  | none =>
      (s.server.sendTasks w).head?.map fun sock =>
        { s with
          server := s.server.popSend w
          send := Function.update s.send w
            (if (s.server.socketInfo[sock]?).isSome then some sock else none) }
  | some sock =>
      match s.server.socketInfo[sock]? with
      | none => some { s with send := Function.update s.send w none }
      | some info =>
          let r := s.server.sendOnce env sock info r
          some { s with
            server := r.1
            send := Function.update s.send w (if r.2 then some sock else none) }

def step (s : Relay ω) : RelayStep → Option (Relay ω)
  | .deliver ev =>
      some { s with server := { s.server with recvTasks := addTask s.server.recvTasks ev.fd ev } }
  | .recv w connfd added r => s.recvStep env listenSocket w connfd added r
  | .frame w => s.frameStep env w
  | .send w r => s.sendStep env w r
  | .recvAstray w frame => s.recvAstray w frame
  | .frameAstray w entry => s.frameAstray env w entry

/-! ## What happened to a connection -/

def received (log : List Event) (conn : Conn) : List UInt8 :=
  (log.filterMap fun
    | .received c bytes => if c = conn then some bytes else none
    | _ => none).flatten

/-- The buffers that `SendData` queued for a connection. -/
def queued (log : List Event) (conn : Conn) : List (List UInt8) :=
  log.filterMap fun
    | .queued c _ bytes => if c = some conn then some bytes else none
    | _ => none

/-- The pictures of `phone` among them. -/
def relayed (log : List Event) (phone conn : Conn) : List (List UInt8) :=
  log.filterMap fun
    | .queued c source bytes => if c = some conn ∧ source = some phone then some bytes else none
    | _ => none

/-- The bytes that the kernel took for a connection. -/
def sent (log : List Event) (conn : Conn) : List UInt8 :=
  (log.filterMap fun
    | .sent c _ bytes => if c = conn then some bytes else none
    | _ => none).flatten

def isPicture (frame : List UInt8) : Bool := frame.getD 3 0 = 0x10

/-- All that is queued for a connection is complete frames, what was sent is a prefix of it, and the
pictures from a phone are some of those that it sent, in their order. -/
def Transparent (s : Relay ω) (phone conn : Conn) : Prop :=
  (∀ f ∈ queued s.server.log conn, WellFormed f) ∧
    sent s.server.log conn <+: (queued s.server.log conn).flatten ∧
    (relayed s.server.log phone conn).Sublist
      ((framesOf (received s.server.log phone)).filter isPicture)

/-! ## Guards -/

/-- The descriptor that the step accepts. -/
def accepts (s : Relay ω) : RelayStep → Option Nat
  | .recv w connfd _ _ =>
      if s.recv w = none ∧ (s.server.recvTasks w).head?.any (·.fd = listenSocket) then connfd
      else none
  | _ => none

/-- Something of an earlier connection at the descriptor is unfinished: its handler, a frame, or its
output. -/
def Outstanding (s : Relay ω) (fd : Nat) : Prop :=
  (∃ w, (s.recv w).any (·.fd = fd)) ∨
    (∃ w, (s.frame w).any (·.1.sock = fd)) ∨
    (∃ w : Fin 4, ∃ task ∈ s.server.frameTasks w, task.sock = fd) ∨
    ((s.server.socketInfo[fd]?).any (·.outputChain ≠ []))

/-- No descriptor is reused while work of its earlier connection is outstanding. -/
def KeepsNumbers (s : Relay ω) (a : RelayStep) : Prop :=
  ∀ fd ∈ s.accepts listenSocket a, ¬s.Outstanding fd

/-- Nothing is read from a connection before its accept handler has done `AddClient`. -/
def ReadsClients (s : Relay ω) : RelayStep → Prop
  | .recv w _ _ (.data buff) =>
      match s.recv w with
      | some (.reading fd) =>
          buff.bytes ≠ [] →
            ∀ w', ((s.recv w').bind RecvStage.accepting).map Prod.fst ≠ some fd
      | _ => True
  | _ => True

/-- The descriptor whose client the step removes. -/
def quits (s : Relay ω) : RelayStep → Option Nat
  | .recv w _ _ _ =>
      match s.recv w with
      | some (.closed fd _) => some fd
      | _ => none
  | .frame w =>
      match s.frame w with
      | some (task, .rejected) => some task.sock
      | _ => none
  | _ => none

/-- No client is removed while `RestructFrame` works in it. -/
def KeepsParsers (s : Relay ω) (a : RelayStep) : Prop :=
  ∀ fd ∈ s.quits a, ∀ w, (s.recv w).bind RecvStage.saves ≠ some fd

/-- No client is removed while an iterator of `PicDataRecv` is at its entry. -/
def KeepsEntries (s : Relay ω) (a : RelayStep) : Prop :=
  ∀ fd ∈ s.quits a, ∀ w, (s.frame w).bind (·.2.iter) ≠ some (.entry fd)

instance (s : Relay ω) (fd : Nat) : Decidable (s.Outstanding fd) :=
  inferInstanceAs (Decidable (_ ∨ _ ∨ _ ∨ _))

instance (s : Relay ω) (a : RelayStep) : Decidable (s.KeepsNumbers listenSocket a) :=
  inferInstanceAs (Decidable (∀ fd ∈ s.accepts listenSocket a, ¬s.Outstanding fd))

instance (s : Relay ω) (a : RelayStep) : Decidable (s.KeepsParsers a) :=
  inferInstanceAs (Decidable (∀ fd ∈ s.quits a, ∀ w, (s.recv w).bind RecvStage.saves ≠ some fd))

instance (s : Relay ω) (a : RelayStep) : Decidable (s.KeepsEntries a) :=
  inferInstanceAs (Decidable (∀ fd ∈ s.quits a, ∀ w, (s.frame w).bind (·.2.iter) ≠ some (.entry fd)))

instance (s : Relay ω) (a : RelayStep) : Decidable (s.ReadsClients a) := by
  unfold ReadsClients
  split
  · split <;> infer_instance
  · infer_instance

end Relay

def relays {ω : Type} (env : World ω) (listenSocket : Nat) (w : ω) :
    StepSystem (Relay ω) RelayStep where
  start := Relay.start w
  step := Relay.step env listenSocket

end CmdTran
