import CmdTran.Server.System

/-!
# The end of a connection

The life of one connection from its registration on: the events of the kernel for its descriptor, and
whatever else the server does meanwhile. The calls of `close` for the descriptor are counted, also those
that find it closed.
-/

namespace CmdTran

open Server

variable {ω : Type} (env : World ω) (listenSocket fd : Nat)

/-- An event of the connection and the results of the reads that it leads to. `epollerr` is `EPOLLERR`
or `EPOLLHUP`; the code looks at neither. -/
structure ConnEvent where
  epollin : Bool
  epollout : Bool
  epollerr : Bool
  reads : List ReadResult

/-- The server and the number of calls of `close` for the descriptor. -/
structure Watched (ω : Type) extends Server ω where
  closeCalls : Nat

/-! ## The recv task -/

namespace Watched

def close (s : Watched ω) : Watched ω := ⟨s.toServer.close fd, s.closeCalls + 1⟩

def eof (s : Watched ω) : Watched ω :=
  let s := s.close fd
  { s with toServer := (s.toServer.quitClient fd).removeSocket env fd }

def processRecvData (s : Watched ω) : List ReadResult → Watched ω
  | [] => s
  | r :: reads =>
      match s.kernel.fds fd, r with
      | none, _ => s
      | some _, .failed => s
      | some conn, .data buff =>
          if buff.bytes.length = 0 then s.eof env fd
          else
            let s := { s with log := s.log ++ [Event.received conn buff.bytes] }
            processRecvData { s with toServer := (s.toServer.addRecvData env fd buff).1 } reads

def hangUp (s : Watched ω) : Watched ω :=
  let s := s.close fd
  { s with toServer := s.toServer.quitClient fd }

def processRecvEnts (s : Watched ω) (ev : ConnEvent) : Watched ω :=
  if ev.epollin then s.processRecvData env fd ev.reads
  else if ev.epollout then { s with toServer := s.toServer.writable fd }
  else s.hangUp fd

end Watched

/-! ## The server meanwhile -/

namespace Handler

/-- An event of the connection, or an accept that gives its number out again. -/
def Concerns : Handler → Prop
  | .event ev answers => ev.fd = fd ∨ ev.fd = listenSocket ∧ answers.connfd = some fd
  | _ => False

instance : (a : Handler) → Decidable (a.Concerns listenSocket fd)
  | .event _ _ => inferInstanceAs (Decidable (_ ∨ _))
  | .frame _ => isFalse id
  | .sendData _ _ _ _ => isFalse id
  | .sendTask _ _ => isFalse id

/-- A login of the connection that `NewClient` rejects. -/
def RejectsLogin (s : Server ω) : Handler → Prop
  | .frame task => task.sock = fd ∧ s.Rejected task.sock task.frame
  | _ => False

instance (s : Server ω) : (a : Handler) → Decidable (a.RejectsLogin fd s)
  | .event _ _ => isFalse id
  | .frame task => inferInstanceAs
      (Decidable (_ ∧ byteAt task.frame 3 = 0x00 ∧ (¬(_ ∨ _) ∨ s.clientMap[task.sock]? = none)))
  | .sendData _ _ _ _ => isFalse id
  | .sendTask _ _ => isFalse id

end Handler

inductive ConnStep where
  | event (ev : ConnEvent)
  | other (a : Handler)

namespace ConnStep

/-- The life of the connection goes on until its number is given out again. -/
def step (s : Watched ω) : ConnStep → Option (Watched ω)
  | .event ev => some (s.processRecvEnts env fd ev)
  | .other a =>
      if a.Concerns listenSocket fd then none
      else (a.step env listenSocket s.toServer).map fun s' =>
        ⟨s', s.closeCalls + if a.RejectsLogin fd s.toServer then 1 else 0⟩

/-- The step does not close the descriptor without removing its socket. -/
def Careful (s : Watched ω) : ConnStep → Prop
  | .event ev => ev.epollin = true ∨ ev.epollout = true
  | .other a => ¬a.RejectsLogin fd s.toServer

end ConnStep

def connection (s : Server ω) : StepSystem (Watched ω) ConnStep where
  start := ⟨s, 0⟩
  step := ConnStep.step env listenSocket fd

/-! ## What should hold -/

/-- The connection is open and registered. -/
structure Live (s : Server ω) : Prop where
  isOpen : s.kernel.fds fd ≠ none
  client : fd ∈ s.clientMap
  socket : fd ∈ s.socketInfo

/-- The descriptor was closed once, and the tables have forgotten it. -/
structure Released (s : Watched ω) : Prop where
  closed : s.closeCalls = 1 ∧ s.kernel.fds fd = none
  client : fd ∉ s.clientMap
  socket : fd ∉ s.socketInfo

/-- A read gives the end of the stream. -/
def endsStream : List ReadResult → Bool
  | [] => false
  | .failed :: _ => false
  | .data buff :: reads => buff.bytes.length = 0 || endsStream reads

/-- The end of the stream is read in the handler of the event. -/
def ConnStep.EndsStream : ConnStep → Prop
  | .event ev => ev.epollin = true ∧ endsStream ev.reads = true
  | .other _ => False

/-- The end of the stream is read. -/
def StreamEnds (steps : List ConnStep) : Prop := ∃ a ∈ steps, a.EndsStream

/-- The kernel has ended the connection: the end of its stream was read, or an event reported an error
or a hang-up. -/
def Ended (steps : List ConnStep) : Prop :=
  StreamEnds steps ∨ ∃ ev, .event ev ∈ steps ∧ ev.epollerr = true

end CmdTran
