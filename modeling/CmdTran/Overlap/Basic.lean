import CmdTran.Lib.System
import CmdTran.Server.Lemmas.Tables

/-!
# Handlers that overlap

The accept handler and the handler of the end of a stream, cut where another worker can come between:
`accept`, `EPOLL_CTL_ADD`, the insert into `m_SocketInfo` and `AddClient` on the one side; `close`,
`QuitClient` and `RemoveSocket` on the other.
-/

namespace CmdTran

open Server

variable {ω : Type}

/-! ## State -/

/-- How far the accept handler of a connection has got. -/
inductive AcceptStage where
  | accepted
  | polled
  | inserted
  | done
  deriving DecidableEq, Repr

/-- How far the handler of the end of its stream has got. -/
inductive CloseStage where
  | open
  | closed
  | quit
  | removed
  deriving DecidableEq, Repr

structure Progress where
  fd : Nat
  accept : AcceptStage
  close : CloseStage
  deriving DecidableEq, Repr

structure Overlap (ω : Type) where
  server : Server ω
  progress : Conn → Option Progress

inductive OverlapStep where
  | accept (fd : Nat)
  | epollAdd (conn : Conn) (added : Bool)
  | insertSocket (conn : Conn)
  | addClient (conn : Conn)
  | close (conn : Conn)
  | quitClient (conn : Conn)
  | removeSocket (conn : Conn)

namespace Overlap

def start (w : ω) : Overlap ω := ⟨Server.start w, fun _ => none⟩

/-- The next state, when the handlers of `conn` are as `ready` says. -/
def move (s : Overlap ω) (conn : Conn) (ready : Progress → Bool)
    (next : Progress → Server ω × Progress) : Option (Overlap ω) :=
  (s.progress conn).bind fun p =>
    if ready p then some ⟨(next p).1, Function.update s.progress conn (some (next p).2)⟩ else none

variable (env : World ω)

/-- The stream of a connection can end as soon as its descriptor is polled. -/
def step (s : Overlap ω) : OverlapStep → Option (Overlap ω)
  | .accept fd =>
      if s.server.kernel.fds fd = none then
        some ⟨{ s.server with kernel := s.server.kernel.accept fd },
          Function.update s.progress s.server.kernel.accepted (some ⟨fd, .accepted, .open⟩)⟩
      else none
  | .epollAdd conn added =>
      s.move conn (fun p => p.accept = .accepted) fun p =>
        if added then (s.server, { p with accept := .polled })
        else (s.server.close p.fd, ⟨p.fd, .done, .removed⟩)
  | .insertSocket conn =>
      s.move conn (fun p => p.accept = .polled) fun p =>
        (s.server.insertSocket p.fd conn, { p with accept := .inserted })
  | .addClient conn =>
      s.move conn (fun p => p.accept = .inserted) fun p =>
        (s.server.addClient p.fd conn, { p with accept := .done })
  | .close conn =>
      s.move conn (fun p => p.accept ≠ .accepted ∧ p.close = .open) fun p =>
        (s.server.close p.fd, { p with close := .closed })
  | .quitClient conn =>
      s.move conn (fun p => p.close = .closed) fun p =>
        (s.server.quitClient p.fd, { p with close := .quit })
  | .removeSocket conn =>
      s.move conn (fun p => p.close = .quit) fun p =>
        (s.server.removeSocket env p.fd, { p with close := .removed })

def Idle (s : Overlap ω) : Prop :=
  ∀ conn p, s.progress conn = some p → p.accept = .done ∧ (p.close = .open ∨ p.close = .removed)

/-- Each connection that is open has an entry of its own in both tables. -/
def OwnEntries (s : Overlap ω) : Prop :=
  ∀ fd conn, s.server.kernel.fds fd = some conn →
    (∃ info, s.server.socketInfo[fd]? = some info ∧ info.conn = conn) ∧
    ∃ client, s.server.clientMap[fd]? = some client ∧ client.conn = conn

/-- Nobody else is between `close` and `RemoveSocket` on the descriptor of an insert, or between
`close` and `QuitClient` on that of an `AddClient`, and a connection is registered before it quits. -/
def InTurn (s : Overlap ω) : OverlapStep → Prop
  | .insertSocket conn => ∀ p other q, s.progress conn = some p → s.progress other = some q →
      other ≠ conn → q.fd = p.fd → q.close ≠ .closed ∧ q.close ≠ .quit
  | .addClient conn => ∀ p other q, s.progress conn = some p → s.progress other = some q →
      other ≠ conn → q.fd = p.fd → q.close ≠ .closed
  | .quitClient conn => ∀ p, s.progress conn = some p → p.accept = .done
  | _ => True

end Overlap

def overlaps (env : World ω) (w : ω) : StepSystem (Overlap ω) OverlapStep where
  start := Overlap.start w
  step := Overlap.step env

end CmdTran
