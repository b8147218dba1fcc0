import CmdTran.Pool.Users
import CmdTran.Server.Basic

/-!
# The blocks of received frames

From the bytes of a `read` to the end of `CommandProc`, with the blocks of `RecvFrameMP` at their addresses:
`SaveFrame` gets a block and copies the frame to it, a task with the pointer goes through the queue of a
frame worker, `CommandProc` reads the block, and `FreeBuff` gives it back. The workers run at the same time,
each step of the pool and of its queue on its own.

Which frames `RestructFrame` finds does not depend on the answers of `GetBuff` (`Calm.dropsOnly`); it saves
them one by one. A connection has its own parser, from its `AddClient` on.
-/

namespace CmdTran

/-! ## State -/

/-- The threads of `RecvThreadManager` and of `RecvFrameProcTM`, by their worker. -/
inductive Worker where
  | recv (w : Nat)
  | frame (w : Nat)
  deriving DecidableEq

/-- A `CFrameProcTask` with its pointer. `conn` and `frame`, the connection and what was copied to the
block, are not in the code. -/
structure BlockTask where
  sock : Nat
  pFrame : Nat
  frameLen : Int
  conn : Conn
  frame : List UInt8
  deriving DecidableEq

/-- A receive worker between two reads, or in `RestructFrame`: about to save the next of `frames`; in
`GetBuffer` for a frame; with a block for it; with the frame in the block, before `AddToList`. -/
inductive SaveStage where
  | idle
  | saving (conn : Conn) (frames : List (List UInt8))
  | getting (conn : Conn) (frame : List UInt8) (frames : List (List UInt8))
  | copying (task : BlockTask) (frames : List (List UInt8))
  | queueing (task : BlockTask) (frames : List (List UInt8))

/-- A frame worker without a task, in `CommandProc`, before `FreeBuff`, or in it. -/
inductive WorkStage where
  | idle
  | handling (task : BlockTask)
  | handled (task : BlockTask)
  | freeing

/-- `received` has the bytes that went to the parser of each connection, `handled` what `CommandProc` read,
and `lost` counts the frames for which `GetBuffer` returned `NULL`. No step looks at them. -/
structure FrameBlocks where
  users : PoolUsers Worker
  memory : Nat → Block
  parsers : Conn → Parser
  recv : Nat → SaveStage
  queues : Nat → List BlockTask
  work : Nat → WorkStage
  received : Conn → List UInt8
  handled : List (Conn × List UInt8)
  lost : Conn → Nat

inductive FrameStep where
  | addRecvData (conn : Conn) (buff : ReadBuff)
  | recv (w : Nat)
  | frame (w : Nat)

namespace FrameBlocks

def start (p : CMemPool) (memory : Nat → Block) : FrameBlocks :=
  ⟨.start p, memory, fun _ => .new, fun _ => .idle, fun _ => [], fun _ => .idle, fun _ => [], [], fun _ => 0⟩

/-! ## Steps -/

def setRecv (s : FrameBlocks) (w : Nat) (stage : SaveStage) : FrameBlocks :=
  { s with recv := Function.update s.recv w stage }

def setWork (s : FrameBlocks) (w : Nat) (stage : WorkStage) : FrameBlocks :=
  { s with work := Function.update s.work w stage }

/-- A step of the worker in the pool. -/
def poolStep (s : FrameBlocks) (a : PoolStep Worker) : Option FrameBlocks :=
  (s.users.step a).map fun users => { s with users }

/-- `RestructFrame`, up to what it saves. -/
def restruct (s : FrameBlocks) (conn : Conn) (buff : ReadBuff) : List (List UInt8) :=
  ((s.parsers conn).call cleanPool () buff).queued.map taskFrame

def read (s : FrameBlocks) (w : Nat) (conn : Conn) (buff : ReadBuff) : FrameBlocks :=
  { s with
    parsers := Function.update s.parsers conn ((s.parsers conn).next cleanPool () buff)
    received := Function.update s.received conn (s.received conn ++ buff.bytes) }.setRecv w
      (.saving conn (s.restruct conn buff))

/-- What `GetBuffer` returns decides whether the frame is saved. -/
def gotBlock (s : FrameBlocks) (w : Nat) (sock : Nat) (conn : Conn) (frame : List UInt8)
    (frames : List (List UInt8)) : Option Nat → FrameBlocks
  | none =>
      { s with lost := Function.update s.lost conn (s.lost conn + 1) }.setRecv w (.saving conn frames)
  | some addr => s.setRecv w (.copying ⟨sock, addr, frame.length, conn, frame⟩ frames)

/-- `memcpy` to the block of the task. -/
def copy (s : FrameBlocks) (task : BlockTask) : FrameBlocks :=
  { s with memory := Function.update s.memory task.pFrame ((s.memory task.pFrame).put task.frame) }

def recvStep (sockOf : Conn → Nat) (s : FrameBlocks) (w : Nat) : Option FrameBlocks :=
  match s.recv w with
  | .idle => none
  | .saving _ [] => some (s.setRecv w .idle)
  | .saving conn (frame :: frames) =>
      (s.poolStep (.getBlock (.recv w))).map (setRecv · w (.getting conn frame frames))
  | .getting conn frame frames =>
      (s.poolStep (.goOn (.recv w))).map fun s' =>
        match s.users.pool.returnsBlock (.recv w) with
        | none => s'
        | some ret => s'.gotBlock w (sockOf conn) conn frame frames ret
  | .copying task frames => some ((s.copy task).setRecv w (.queueing task frames))
  | .queueing task frames =>
      some ({ s with queues := Server.addTask s.queues task.sock task }.setRecv w
        (.saving task.conn frames))

/-- What is in the block of the task, as far as `m_FrameLen` goes. -/
def content (s : FrameBlocks) (task : BlockTask) : List UInt8 :=
  taskFrame (s.memory task.pFrame, task.frameLen)

def frameStep (s : FrameBlocks) (w : Nat) : Option FrameBlocks :=
  match s.work w with
  | .idle =>
      match s.queues w with
      | [] => none
      | task :: tasks =>
          some ({ s with queues := Function.update s.queues w tasks }.setWork w (.handling task))
  | .handling task =>
      some ({ s with handled := s.handled ++ [(task.conn, s.content task)] }.setWork w (.handled task))
  | .handled task =>
      (s.poolStep (.freeBlock (.frame w) task.pFrame)).map (setWork · w .freeing)
  | .freeing =>
      (s.poolStep (.goOn (.frame w))).map fun s' =>
        if s'.users.pool.stage (.frame w) = .idle then s'.setWork w .idle else s'

def step (sockOf : Conn → Nat) (s : FrameBlocks) : FrameStep → Option FrameBlocks
  | .addRecvData conn buff =>
      match s.recv (Server.worker (sockOf conn)) with
      | .idle => some (s.read (Server.worker (sockOf conn)) conn buff)
      | _ => none
  | .recv w => s.recvStep sockOf w
  | .frame w => s.frameStep w

end FrameBlocks

/-- `sockOf` has the descriptor of each connection; two may have the same, one after the other. -/
def frameBlocks (sockOf : Conn → Nat) (p : CMemPool) (memory : Nat → Block) :
    StepSystem FrameBlocks FrameStep where
  start := FrameBlocks.start p memory
  step := FrameBlocks.step sockOf

/-! ## What should hold -/

namespace SaveStage

/-- The task that only the worker knows. -/
def task : SaveStage → Option BlockTask
  | copying task _ | queueing task _ => some task
  | _ => none

/-- The frames of the connection that `RestructFrame` has found and that have still to get a block. -/
def todo (conn : Conn) : SaveStage → List (List UInt8)
  | saving c frames => if c = conn then frames else []
  | getting c frame frames => if c = conn then frame :: frames else []
  | copying task frames | queueing task frames => if task.conn = conn then frames else []
  | idle => []

end SaveStage

namespace WorkStage

/-- The task whose block the worker still has. -/
def task : WorkStage → Option BlockTask
  | handling task | handled task => some task
  | _ => none

/-- The task in `CommandProc`. -/
def current : WorkStage → List BlockTask
  | handling task => [task]
  | _ => []

end WorkStage

/-- Where the pointer of a task is. -/
inductive Place where
  | recv (w : Nat)
  | queue (w : Nat)
  | work (w : Nat)
  deriving DecidableEq

namespace FrameBlocks

def At (s : FrameBlocks) : Place → BlockTask → Prop
  | .recv w, task => (s.recv w).task = some task
  | .queue w, task => task ∈ s.queues w
  | .work w, task => (s.work w).task = some task

/-- A queued or handled task has its frame in its block. No other task has the block, which is neither free
nor in a call of the pool; and every block that is out belongs to a task. -/
structure Intact (s : FrameBlocks) : Prop where
  content : ∀ w task, task ∈ s.queues w ∨ (s.work w).task = some task → s.content task = task.frame
  one : ∀ place task place' task', s.At place task → s.At place' task' → task.pFrame = task'.pFrame →
    place = place' ∧ task = task'
  queues : ∀ w, (s.queues w).Nodup
  out : ∀ addr, addr ∈ s.users.outstanding ↔ ∃ place task, s.At place task ∧ task.pFrame = addr
  separate : s.users.Separate

/-- What `CommandProc` has read of a connection. -/
def handledOf (s : FrameBlocks) (conn : Conn) : List (List UInt8) :=
  (s.handled.filter (·.1 = conn)).map (·.2)

/-- The tasks on the way to a frame worker, the oldest first. -/
def tasks (s : FrameBlocks) (w : Nat) : List BlockTask :=
  (s.work w).current ++ s.queues w ++ (s.recv w).task.toList

/-- The frames of a connection on their way. -/
def underWay (s : FrameBlocks) (sockOf : Conn → Nat) (conn : Conn) : List (List UInt8) :=
  ((s.tasks (Server.worker (sockOf conn))).filter (·.conn = conn)).map BlockTask.frame

/-- `CommandProc` reads the frames of a connection whole, in the order in which they were sent and each once;
the others are on their way, or still to be saved, or `GetBuffer` returned `NULL` for them. -/
def InOrder (s : FrameBlocks) (sockOf : Conn → Nat) (conn : Conn) : Prop :=
  ∃ saved, framesOf (s.received conn) = saved ++ (s.recv (Server.worker (sockOf conn))).todo conn ∧
    (s.handledOf conn ++ s.underWay sockOf conn).Sublist saved ∧
    saved.length = (s.handledOf conn ++ s.underWay sockOf conn).length + s.lost conn

end FrameBlocks

end CmdTran
