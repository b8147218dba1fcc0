import Mathlib.Algebra.BigOperators.Group.Finset.Basic
import Mathlib.Data.Fintype.Basic
import CmdTran.Workers.Basic

/-!
# Flow control, step by step

The recv workers cut where a frame worker can come between: before each `read`, before `AddRecvData`,
before each `AddFrameProcTask` of `RestructFrame`, and before `IncreaseFrameCount`. A frame worker runs
`CommandProc`, and then `FreeBuff` and `DecreaseFrameCount`. The handlers that open and close
connections are one step each.

`number` is the descriptor that each connection was given; no step looks at it.
-/

namespace CmdTran

open Server

/-! ## State -/

/-- What a recv worker is in the middle of: the loop of `ProcessRecvData`, before a `read`; `AddRecvData`
with the bytes of a connection; or its frames, those still to be queued, before they are counted. -/
inductive RecvPhase where
  | reading (fd : Nat)
  | received (fd : Nat) (conn : Conn) (buff : ReadBuff)
  | queueing (fd : Nat) (conn : Conn) (todo : List (Block × Int)) (frameCount : Int)

/-- The worker has bytes or frames for the descriptor. -/
def RecvPhase.worksOn (fd : Nat) : RecvPhase → Bool
  | reading _ => false
  | received k _ _ => k = fd
  | queueing k _ _ _ => k = fd

/-- What a frame worker does next with its task. -/
inductive FramePhase where
  | command
  | finish
  deriving DecidableEq

structure Flow (ω : Type) where
  server : Server ω
  recv : Fin 4 → Option RecvPhase
  frame : Fin 4 → Option (CFrameProcTask × FramePhase)
  number : Conn → Nat

/-- A step of the epoll thread or of a worker, with what the kernel answers if it asks. -/
inductive FlowStep where
  | deliver (ev : EpollEvent)
  | recv (w : Fin 4) (connfd : Option Nat) (added : Bool) (r : ReadResult)
  | frame (w : Fin 4)

namespace Flow

variable {ω : Type}

def start (w : ω) : Flow ω := ⟨Server.start w, fun _ => none, fun _ => none, fun _ => 0⟩

variable (env : World ω) (listenSocket : Nat)

/-! ## Recv workers -/

def setRecv (s : Flow ω) (w : Fin 4) (server : Server ω) (phase : Option RecvPhase) : Flow ω :=
  { s with server, recv := Function.update s.recv w phase }

@[simp] theorem recv_setRecv (s : Flow ω) (w : Fin 4) (server : Server ω)
    (phase : Option RecvPhase) : (s.setRecv w server phase).recv w = phase := by
  simp only [setRecv, Function.update_self]

/-- The accept handler, for a descriptor that is not open. -/
def accept (s : Flow ω) (w : Fin 4) (fd : Nat) (added : Bool) : Flow ω :=
  { s.setRecv w ((s.server.popRecv w).acceptClient (some fd) added) none with
    number := Function.update s.number s.server.kernel.accepted fd }

def takeEvent (s : Flow ω) (w : Fin 4) (ev : EpollEvent) (connfd : Option Nat) (added : Bool) :
    Option (Flow ω) :=
  let server := s.server.popRecv w
  if ev.fd = listenSocket then
    match connfd with
    | none => some (s.setRecv w server none)
    | some fd =>
        if fd ≠ listenSocket ∧ server.kernel.fds fd = none then some (s.accept w fd added) else none
  else if ev.epollin then some (s.setRecv w server (some (.reading ev.fd)))
  else if ev.epollout then some (s.setRecv w (server.writable ev.fd) none)
  else some (s.setRecv w (server.hangUp ev.fd) none)

/-- The `read` of one round of the loop of `ProcessRecvData`. -/
def readOnce (s : Flow ω) (w : Fin 4) (fd : Nat) (r : ReadResult) : Flow ω :=
  match s.server.kernel.fds fd, r with
  | none, _ => s.setRecv w s.server none
  | some _, .failed => s.setRecv w s.server none
  | some conn, .data buff =>
      if buff.bytes.length = 0 then s.setRecv w (s.server.eof env fd) none
      else
        s.setRecv w { s.server with log := s.server.log ++ [.received conn buff.bytes] }
          (some (.received fd conn buff))

/-- `AddRecvData` up to the first frame that `RestructFrame` queues. -/
def restruct (s : Flow ω) (w : Fin 4) (fd : Nat) (conn : Conn) (buff : ReadBuff) : Flow ω :=
  match s.server.clientMap[fd]? with
  | none => s.setRecv w s.server (some (.reading fd))
  | some client =>
      let r := client.frameRestruct.call env.getBuff s.server.world buff
      let client := { client with
        frameRestruct := client.frameRestruct.next env.getBuff s.server.world buff }
      s.setRecv w { s.server with world := r.pool, clientMap := s.server.clientMap.insert fd client }
        (some (.queueing fd conn r.queued r.frameCount))

/-- `AddFrameProcTask`; the connection is not in the code. -/
def queueFrame (s : Server ω) (sock : Nat) (conn : Conn) (t : Block × Int) : Server ω :=
  { s with frameTasks := addTask s.frameTasks sock ⟨sock, t.1, t.2, some conn⟩ }

def recvStep (s : Flow ω) (w : Fin 4) (connfd : Option Nat) (added : Bool) (r : ReadResult) :
    Option (Flow ω) :=
  match s.recv w with
  | none => (s.server.recvTasks w).head?.bind fun ev => s.takeEvent listenSocket w ev connfd added
  | some (.reading fd) => some (s.readOnce env w fd r)
  | some (.received fd conn buff) => some (s.restruct env w fd conn buff)
  | some (.queueing fd conn (t :: todo) frameCount) =>
      some (s.setRecv w (queueFrame s.server fd conn t) (some (.queueing fd conn todo frameCount)))
  | some (.queueing fd _ [] frameCount) =>
      some (s.setRecv w (s.server.increaseFrameCount env fd frameCount).1 (some (.reading fd)))

/-! ## Frame workers -/

def setFrame (s : Flow ω) (w : Fin 4) (server : Server ω)
    (phase : Option (CFrameProcTask × FramePhase)) : Flow ω :=
  { s with server, frame := Function.update s.frame w phase }

def frameStep (s : Flow ω) (w : Fin 4) : Option (Flow ω) :=
  match s.frame w with
  | none =>
      (s.server.frameTasks w).head?.map fun task =>
        s.setFrame w (s.server.popFrame w) (some (task, .command))
  | some (task, .command) =>
      some (s.setFrame w (s.server.commandProc env task.sock task.frame task.frameLen task.conn)
        (some (task, .finish)))
  | some (task, .finish) =>
      let server := { s.server with world := env.freeBuff s.server.world task.frame }
      some (s.setFrame w (server.decreaseFrameCount env task.sock).1 none)

/-! ## The epoll thread -/

/-- `epoll_wait` reports a descriptor that is open, and `EPOLLIN` only when its mask has it. -/
def reports (s : Flow ω) (ev : EpollEvent) : Bool :=
  ev.fd = listenSocket ∨
    (s.server.kernel.fds ev.fd).isSome ∧ (ev.epollin = true → s.server.kernel.readable ev.fd = true)

def step (s : Flow ω) : FlowStep → Option (Flow ω)
  | .deliver ev =>
      if s.reports listenSocket ev then
        some { s with server := { s.server with recvTasks := addTask s.server.recvTasks ev.fd ev } }
      else none
  | .recv w connfd added r => s.recvStep env listenSocket w connfd added r
  | .frame w => s.frameStep env w

/-! ## Frames that are pending -/

/-- The tasks of a frame worker that have not run `DecreaseFrameCount` yet. -/
def tasks (s : Flow ω) (w : Fin 4) : List CFrameProcTask :=
  ((s.frame w).map Prod.fst).toList ++ s.server.frameTasks w

/-- The frames of a connection that were queued and have not run `DecreaseFrameCount` yet. -/
def pending (s : Flow ω) (conn : Conn) : Nat :=
  ∑ w, (s.tasks w).countP fun task => task.conn = some conn

/-- The frames that a recv worker has queued for a connection and not counted yet. -/
def queuedBy (phase : Option RecvPhase) (conn : Conn) : Nat :=
  match phase with
  | some (.queueing _ c todo frameCount) => if c = conn then frameCount.toNat - todo.length else 0
  | _ => 0

/-- The frames of a connection that were queued and are not counted yet. -/
def uncounted (s : Flow ω) (conn : Conn) : Nat := ∑ w, queuedBy (s.recv w) conn

/-! ## What should hold -/

/-- The most frames of a single `AddRecvData`: `(1123 + 1280) / 5`. -/
def framesMax : Int := 480

/-- No worker has bytes for a client whose reading is off, and no count is further above the mark than
the frames of one `AddRecvData`. -/
structure Throttled (s : Flow ω) : Prop where
  held : ∀ w fd conn buff (client : ClientInfo), s.recv w = some (.received fd conn buff) →
    s.server.clientMap[fd]? = some client → client.enableRead = true
  bounded : ∀ (fd : Nat) (client : ClientInfo), s.server.clientMap[fd]? = some client →
    client.frameCount ≤ flowControlHigh + framesMax

/-- A read that is made while reading is off finds nothing. -/
def ReadsNothingOff (s : Flow ω) : FlowStep → Prop
  | .recv w _ _ (.data buff) =>
      match s.recv w with
      | some (.reading fd) => ∀ client, s.server.clientMap[fd]? = some client →
          client.enableRead = false → buff.bytes.length = 0
      | _ => True
  | _ => True

/-- With the reading of the client off there are frames pending that will switch it on again. -/
def NotStranded (s : Flow ω) (fd : Nat) : Prop :=
  ∀ client, s.server.clientMap[fd]? = some client → client.enableRead = false →
    flowControlLow ≤ client.frameCount ∧ flowControlLow ≤ s.pending client.conn

/-- A recv worker has bytes or frames for the descriptor, or a frame worker has a task for it. -/
def Outstanding (s : Flow ω) (fd : Nat) : Prop :=
  ∃ w, (s.recv w).any (·.worksOn fd) = true ∨ ∃ task ∈ s.tasks w, task.sock = fd

instance (s : Flow ω) (fd : Nat) : Decidable (s.Outstanding fd) :=
  inferInstanceAs (Decidable (∃ w, _ ∨ ∃ task ∈ s.tasks w, task.sock = fd))

/-- The descriptor that the step accepts. -/
def accepts (s : Flow ω) : FlowStep → Option Nat
  | .recv w connfd _ _ =>
      if (s.recv w).isNone ∧ (s.server.recvTasks w).head?.any (·.fd = listenSocket) then connfd
      else none
  | _ => none

/-- `fd` is not given out while work of an earlier connection is outstanding. -/
def KeepsNumber (fd : Nat) (s : Flow ω) (a : FlowStep) : Prop :=
  s.accepts listenSocket a = some fd → ¬s.Outstanding fd

instance (fd : Nat) (s : Flow ω) (a : FlowStep) : Decidable (KeepsNumber listenSocket fd s a) :=
  inferInstanceAs (Decidable (_ → ¬s.Outstanding fd))

/-- `FrameCount` is between 0 and the number of frames of the connection that are pending. -/
def CountsOwn (s : Flow ω) : Prop :=
  ∀ (fd : Nat) (client : ClientInfo), s.server.clientMap[fd]? = some client →
    0 ≤ client.frameCount ∧ client.frameCount ≤ s.pending client.conn

/-- The worker is about to count the frames of a call. -/
def counting (s : Flow ω) (w : Fin 4) : Option (Nat × Conn × Int) :=
  match s.recv w with
  | some (.queueing fd conn [] frameCount) => some (fd, conn, frameCount)
  | _ => none

/-- The worker is about to count a frame down. -/
def finishing (s : Flow ω) (w : Fin 4) : Option CFrameProcTask :=
  match s.frame w with
  | some (task, .finish) => some task
  | _ => none

/-- Frames are counted, up or down, for the client of their own connection, if there is one. -/
def FindsOwn (s : Flow ω) : FlowStep → Prop
  | .recv w _ _ _ => ∀ call ∈ s.counting w, call.2.2 ≠ 0 →
      ∀ client ∈ s.server.clientMap[call.1]?, client.conn = call.2.1
  | .frame w => ∀ task ∈ s.finishing w,
      ∀ client ∈ s.server.clientMap[task.sock]?, some client.conn = task.conn
  | .deliver _ => True

/-- No frame of a connection runs `DecreaseFrameCount` while all that are pending are uncounted. -/
def CountsFirst (s : Flow ω) : FlowStep → Prop
  | .frame w => ∀ task ∈ s.finishing w,
      ∀ client ∈ s.server.clientMap[task.sock]?, s.uncounted client.conn < s.pending client.conn
  | _ => True

instance (s : Flow ω) : (a : FlowStep) → Decidable (s.FindsOwn a)
  | .recv w _ _ _ => inferInstanceAs (Decidable (∀ call ∈ s.counting w, call.2.2 ≠ 0 →
      ∀ client ∈ s.server.clientMap[call.1]?, client.conn = call.2.1))
  | .frame w => inferInstanceAs (Decidable (∀ task ∈ s.finishing w,
      ∀ client ∈ s.server.clientMap[task.sock]?, some client.conn = task.conn))
  | .deliver _ => isTrue trivial

end Flow

def flows {ω : Type} (env : World ω) (listenSocket : Nat) (w : ω) :
    StepSystem (Flow ω) FlowStep where
  start := Flow.start w
  step := Flow.step env listenSocket

end CmdTran
