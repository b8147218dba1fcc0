import CmdTran.Relay.Basic
import CmdTran.Server.Lemmas.Quiet

/-!
# What the relay depends on

Of the whole state the relay depends on the open descriptors, the chains, the pending bytes of the
parsers, the queued events and frames, the stages of the workers and the log. Most functions of the
server change none of it.
-/

namespace CmdTran

open Server

variable {ω : Type}

/-! ## Views -/

/-- A descriptor without a socket has an empty chain. -/
structure View where
  fds : Nat → Option Conn
  accepted : Nat
  number : Conn → Nat
  chain : Nat → List (MemNode Nat)
  pending : Nat → Option (List UInt8)
  events : Nat → List EpollEvent
  tasks : Nat → List CFrameProcTask
  recv : Fin 4 → Option RecvStage
  frame : Fin 4 → Option (CFrameProcTask × FrameStage)
  log : List Event

namespace Server

def chain (s : Server ω) (fd : Nat) : List (MemNode Nat) :=
  (s.socketInfo[fd]?).elim [] SocketInformation.outputChain

def pending (s : Server ω) (fd : Nat) : Option (List UInt8) :=
  (s.clientMap[fd]?).map fun client => client.frameRestruct.state.pending

/-- The servers look the same to the relay. -/
structure Same (s s' : Server ω) : Prop where
  fds : s'.kernel.fds = s.kernel.fds
  accepted : s'.kernel.accepted = s.kernel.accepted
  chain : s'.chain = s.chain
  pending : s'.pending = s.pending
  events : s'.recvTasks = s.recvTasks
  tasks : s'.frameTasks = s.frameTasks
  log : s'.log = s.log

end Server

namespace Relay

def view (s : Relay ω) : View :=
  ⟨s.server.kernel.fds, s.server.kernel.accepted, s.number, s.server.chain, s.server.pending,
    s.server.recvTasks, s.server.frameTasks, s.recv, s.frame, s.server.log⟩

theorem view_of_same {s s' : Relay ω} (h : Same s.server s'.server) (hnumber : s'.number = s.number)
    (hrecv : s'.recv = s.recv) (hframe : s'.frame = s.frame) : s'.view = s.view := by
  simp only [view, h.fds, h.accepted, h.chain, h.pending, h.events, h.tasks, h.log,
    hnumber, hrecv, hframe]

end Relay

/-! ## Functions that change nothing of it -/

namespace Server

variable {env : World ω} {s s' s'' : Server ω}

theorem Same.refl (s : Server ω) : Same s s := ⟨rfl, rfl, rfl, rfl, rfl, rfl, rfl⟩

theorem Same.trans (h : Same s s') (h' : Same s' s'') : Same s s'' :=
  ⟨h'.fds.trans h.fds, h'.accepted.trans h.accepted, h'.chain.trans h.chain,
    h'.pending.trans h.pending, h'.events.trans h.events, h'.tasks.trans h.tasks,
    h'.log.trans h.log⟩

theorem pending_insert {sock : Nat} {client client' : ClientInfo}
    (h : s.clientMap[sock]? = some client) (hparser : client'.frameRestruct = client.frameRestruct) :
    { s with clientMap := s.clientMap.insert sock client' }.pending = s.pending := by
  funext k
  simp only [pending, get_insert]
  split
  · rename_i heq
    subst heq
    rw [h, Option.map_some, Option.map_some, hparser]
  · rfl

theorem same_client {sock : Nat} {client : ClientInfo} (client' : ClientInfo)
    (h : s.clientMap[sock]? = some client) (hparser : client'.frameRestruct = client.frameRestruct) :
    Same s { s with clientMap := s.clientMap.insert sock client' } :=
  ⟨rfl, rfl, rfl, pending_insert h hparser, rfl, rfl, rfl⟩

theorem same_socket {sock : Nat} {info : Socket} (info' : Socket)
    (h : s.socketInfo[sock]? = some info) (hchain : info'.outputChain = info.outputChain) :
    Same s { s with socketInfo := s.socketInfo.insert sock info' } := by
  refine ⟨rfl, rfl, ?_, rfl, rfl, rfl, rfl⟩
  funext k
  simp only [chain, get_insert]
  split
  · rename_i heq
    subst heq
    rw [h, Option.elim_some, Option.elim_some, hchain]
  · rfl

theorem same_epollCtlMod (s : Server ω) (sock : Nat) (enable : Bool) :
    Same s (s.epollCtlMod env sock enable).1 := by
  unfold epollCtlMod
  split <;> exact ⟨rfl, rfl, rfl, rfl, rfl, rfl, rfl⟩

theorem same_modifyRead (s : Server ω) (sock : Nat) (enable : Bool) :
    Same s (s.modifyRead env sock enable).1 := by
  unfold modifyRead
  split
  · exact Same.refl s
  · rename_i info hinfo
    split
    · exact Same.refl s
    · exact (same_socket { info with enableRead := enable } hinfo rfl).trans (same_epollCtlMod _ _ _)

theorem same_recounted {s s' : Server ω} {sock : Nat} (h : Recounted env s sock s') : Same s s' := by
  cases h with
  | missing => exact Same.refl s
  | counted client frameCount hclient => exact same_client _ hclient rfl
  | switched client frameCount enable hclient =>
      exact (same_modifyRead s sock enable).trans (same_client _ hclient rfl)

theorem same_writable (s : Server ω) (fd : Nat) : Same s (s.writable fd) := by
  unfold writable
  split
  · exact Same.refl s
  · rename_i info hinfo
    have hstate := same_socket { info with currSendState := .allow } hinfo rfl
    exact hstate.trans ⟨rfl, rfl, rfl, rfl, rfl, rfl, rfl⟩

theorem same_resetCameraId (s : Server ω) (sock : Nat) (frame : Block) :
    Same s (s.resetCameraId sock frame) := by
  unfold resetCameraId
  split
  · exact Same.refl s
  · rename_i client hclient
    exact same_client _ hclient rfl

theorem same_setClient {sock : Nat} {frame : Block} (h : s.setClient sock frame = some s') :
    Same s s' := by
  unfold setClient at h
  split at h
  · obtain ⟨client, hclient, rfl⟩ := Option.map_eq_some_iff.mp h
    exact same_client _ hclient rfl
  · cases h

theorem same_insertSocket (s : Server ω) (sock : Nat) (conn : Conn) :
    Same s (s.insertSocket sock conn) := by
  refine ⟨rfl, rfl, ?_, rfl, rfl, rfl, rfl⟩
  funext k
  simp only [chain, get_insertSocket]
  split
  · rename_i heq
    subst heq
    cases s.socketInfo[sock]? with
    | none => rfl
    | some info => rfl
  · rfl

end Server

/-! ## The log -/

namespace Relay

variable (log : List Event) (phone conn c : Conn) (c' source : Option Conn) (made : Nat)
  (bytes : List UInt8)

@[simp] theorem received_received :
    received (log ++ [.received c bytes]) conn =
      received log conn ++ if c = conn then bytes else [] := by
  by_cases h : c = conn <;> simp [received, h]

@[simp] theorem received_queued : received (log ++ [.queued c' source bytes]) conn = received log conn := by
  simp [received]

@[simp] theorem received_sent : received (log ++ [.sent c made bytes]) conn = received log conn := by
  simp [received]

@[simp] theorem queued_received : queued (log ++ [.received c bytes]) conn = queued log conn := by
  simp [queued]

@[simp] theorem queued_queued :
    queued (log ++ [.queued c' source bytes]) conn =
      queued log conn ++ if c' = some conn then [bytes] else [] := by
  by_cases h : c' = some conn <;> simp [queued, h]

@[simp] theorem queued_sent : queued (log ++ [.sent c made bytes]) conn = queued log conn := by
  simp [queued]

@[simp] theorem relayed_received :
    relayed (log ++ [.received c bytes]) phone conn = relayed log phone conn := by
  simp [relayed]

@[simp] theorem relayed_queued :
    relayed (log ++ [.queued c' source bytes]) phone conn =
      relayed log phone conn ++ if c' = some conn ∧ source = some phone then [bytes] else [] := by
  by_cases h : c' = some conn ∧ source = some phone <;> simp [relayed, h]

@[simp] theorem relayed_sent :
    relayed (log ++ [.sent c made bytes]) phone conn = relayed log phone conn := by
  simp [relayed]

@[simp] theorem sent_received : sent (log ++ [.received c bytes]) conn = sent log conn := by
  simp [sent]

@[simp] theorem sent_queued : sent (log ++ [.queued c' source bytes]) conn = sent log conn := by
  simp [sent]

@[simp] theorem sent_sent :
    sent (log ++ [.sent c made bytes]) conn = sent log conn ++ if c = conn then bytes else [] := by
  by_cases h : c = conn <;> simp [sent, h]

end Relay

end CmdTran
