import CmdTran.Lib.System
import CmdTran.Server.Lemmas.Tables

/-!
# Read interest

`CEpollServer` with its switch for all sockets. Whether a socket is read is kept in three places: its
own flag, the switch, and the interest mask of the kernel.
-/

namespace CmdTran

variable {ω : Type} (env : World ω)

/-- The server and `EnableReading` of `CEpollServer`. -/
structure CEpollServer (ω : Type) extends Server ω where
  enableReading : Bool

namespace CEpollServer

def start (w : ω) : CEpollServer ω := ⟨Server.start w, true⟩

/-! ## All sockets -/

/-- The loop over `m_SocketInfo`; it goes on after an `epoll_ctl` that fails. -/
def modifyEach (enable : Bool) : List (Nat × Socket) → Server ω → Server ω × Bool
  | [], s => (s, true)
  | entry :: rest, s =>
      let r := s.epollCtlMod env entry.2.sockId enable
      let all := modifyEach enable rest r.1
      (all.1, r.2 && all.2)

def modifyAll (s : CEpollServer ω) (enable : Bool) : CEpollServer ω × Bool :=
  if s.enableReading = enable then (s, true)
  else
    let r := modifyEach env enable s.socketInfo.toList s.toServer
    (⟨r.1, enable⟩, r.2)

/-- `EnableRead()` -/
def enableReadAll (s : CEpollServer ω) : CEpollServer ω × Bool := s.modifyAll env true

/-- `DisableRead()` -/
def disableReadAll (s : CEpollServer ω) : CEpollServer ω × Bool := s.modifyAll env false

end CEpollServer

/-! ## The calls -/

inductive ReadCall where
  | accept (connfd : Option Nat) (added : Bool)
  | eof (fd : Nat)
  | enableRead (sock : Nat)
  | disableRead (sock : Nat)
  | enableReadAll
  | disableReadAll
  deriving DecidableEq

namespace ReadCall

/-- `accept` gives out a descriptor that is not open, and only an open one comes to its end. -/
def step (s : CEpollServer ω) : ReadCall → Option (CEpollServer ω)
  | .accept connfd added =>
      if connfd.all (fun fd => (s.kernel.fds fd).isNone) then
        some { s with toServer := s.toServer.acceptClient connfd added }
      else none
  | .eof fd =>
      if (s.kernel.fds fd).isSome then some { s with toServer := s.toServer.eof env fd } else none
  | .enableRead sock => some { s with toServer := (s.toServer.enableRead env sock).1 }
  | .disableRead sock => some { s with toServer := (s.toServer.disableRead env sock).1 }
  | .enableReadAll => some (s.enableReadAll env).1
  | .disableReadAll => some (s.disableReadAll env).1

end ReadCall

def readCalls (w : ω) : StepSystem (CEpollServer ω) ReadCall where
  start := CEpollServer.start w
  step := ReadCall.step env

/-! ## Agreement -/

namespace CEpollServer

/-- For every registered socket the mask of the kernel has `EPOLLIN` exactly when the flag and the
switch are both on. -/
def InterestAgrees (s : CEpollServer ω) : Prop :=
  ∀ (sock : Nat) (info : Socket), s.socketInfo[sock]? = some info →
    (s.kernel.readable sock = true ↔ info.enableRead = true ∧ s.enableReading = true)

end CEpollServer

/-- What the next `n` calls of `epoll_ctl` answer. -/
def nextAnswers : Nat → ω → List Bool
  | 0, _ => []
  | n + 1, w => (env.epollCtlMod w).1 :: nextAnswers n (env.epollCtlMod w).2

/-- The entries of `m_SocketInfo` with the answer that each gets from `epoll_ctl`. -/
def answers (s : Server ω) : List ((Nat × Socket) × Bool) :=
  s.socketInfo.toList.zip (nextAnswers env s.socketInfo.toList.length s.world)

/-- The call does not take the flags and the mask apart: nothing is accepted while the switch is off;
a socket's change of flag reaches the kernel as the switch says; and the switch is turned on for just
the sockets whose flag is on, and off for all of them. -/
def KeepsInterest (s : CEpollServer ω) : ReadCall → Prop
  | .accept connfd added => connfd.isSome = true → added = true → s.enableReading = true
  | .eof _ => True
  | .enableRead sock => ∀ info, s.socketInfo[sock]? = some info → info.enableRead = false →
      (env.epollCtlMod s.world).1 = s.enableReading
  | .disableRead sock => ∀ info, s.socketInfo[sock]? = some info → info.enableRead = true →
      s.enableReading = true → (env.epollCtlMod s.world).1 = true
  | .enableReadAll => s.enableReading = false → ∀ p ∈ answers env s.toServer, p.2 = p.1.2.enableRead
  | .disableReadAll => s.enableReading = true → ∀ p ∈ answers env s.toServer,
      p.1.2.enableRead = true → p.2 = true

end CmdTran
