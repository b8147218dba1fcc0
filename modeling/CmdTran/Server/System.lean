import CmdTran.Lib.System
import CmdTran.Server.Lemmas.Handlers

/-!
# Any sequence of handlers

The handlers in any order, each run as one step, over a kernel that gives out any descriptor that is
not open.
-/

namespace CmdTran

open Server

variable {ω : Type} (env : World ω) (listenSocket : Nat)

/-! ## The system -/

/-- A handler and what it is run on. -/
inductive Handler where
  | event (ev : EpollEvent) (answers : Answers)
  | frame (task : CFrameProcTask)
  | sendData (sock : Nat) (buffer : List UInt8) (len : Int) (backfun : Bool)
  | sendTask (sock : Nat) (results : List SendResult)

/-- `accept` gives out a descriptor that is not open. -/
def Server.mayAccept (s : Server ω) (connfd : Option Nat) : Bool :=
  connfd.all fun fd => fd ≠ listenSocket ∧ s.kernel.fds fd = none

namespace Handler

def step (s : Server ω) : Handler → Option (Server ω)
  | .event ev answers =>
      if ev.fd = listenSocket ∧ s.mayAccept listenSocket answers.connfd = false then none
      else some (s.processRecvEnts env listenSocket ev answers)
  | .frame task => some (s.frameTask env task)
  | .sendData sock buffer len backfun => some (s.sendData env sock buffer len backfun none).1
  | .sendTask sock results => some (s.sendTask env sock results)

/-- The descriptor of an accept that succeeds. -/
def accepts : Handler → Option Nat
  | .event ev answers => if ev.fd = listenSocket ∧ answers.added = true then answers.connfd else none
  | _ => none

/-- The handler is an event with neither bit on a registered descriptor, or a registered
descriptor's login of another type than phone or PC. -/
def Forgets (s : Server ω) : Handler → Prop
  | .event ev _ => ev.fd ≠ listenSocket ∧ ev.epollin = false ∧ ev.epollout = false ∧
      ev.fd ∈ s.socketInfo
  | .frame task => byteAt task.frame 3 = 0x00 ∧ BadType task.frame ∧ task.sock ∈ s.socketInfo
  | _ => False

instance (s : Server ω) (a : Handler) : Decidable (a.Forgets listenSocket s) := by
  unfold Forgets BadType
  split <;> infer_instance

end Handler

def handlers (w : ω) : StepSystem (Server ω) Handler where
  start := Server.start w
  step := Handler.step env listenSocket

/-! ## What a handler does -/

/-- What a handler leaves behind: it was quiet, accepted a connection or refused it, came to the end
of a stream, or hung up. -/
inductive Effect (s : Server ω) (a : Handler) (s' : Server ω) : Prop where
  | quiet (hquiet : Quiet s s') (haccepts : a.accepts listenSocket = none)
      (hforgets : ¬a.Forgets listenSocket s)
  | accepted (fd : Nat) (hfree : s.kernel.fds fd = none)
      (haccepts : a.accepts listenSocket = some fd) (hforgets : ¬a.Forgets listenSocket s)
      (hstate : s' = (({ s with kernel := s.kernel.accept fd }).insertSocket fd
        s.kernel.accepted).addClient fd s.kernel.accepted)
  | refused (fd : Nat) (hfree : s.kernel.fds fd = none) (haccepts : a.accepts listenSocket = none)
      (hforgets : ¬a.Forgets listenSocket s)
      (hstate : s' = ({ s with kernel := s.kernel.accept fd }).close fd)
  | eof (fd : Nat) (s₁ : Server ω) (hquiet : Quiet s s₁) (haccepts : a.accepts listenSocket = none)
      (hforgets : ¬a.Forgets listenSocket s) (hstate : s' = s₁.eof env fd)
  | hangUp (fd : Nat) (hquiet : Quiet (s.hangUp fd) s') (haccepts : a.accepts listenSocket = none)
      (hforgets : a.Forgets listenSocket s → fd ∈ s.socketInfo)
      (hkept : fd ∈ s.clientMap → fd ∈ s.socketInfo → a.Forgets listenSocket s)

variable {env listenSocket}

theorem effect_event {s s' : Server ω} {ev : EpollEvent} {answers : Answers}
    (h : (Handler.event ev answers).step env listenSocket s = some s') :
    Effect env listenSocket s (.event ev answers) s' := by
  simp only [Handler.step] at h
  split at h
  · cases h
  · rename_i hmay
    cases h
    unfold processRecvEnts
    by_cases hlisten : ev.fd = listenSocket
    · rw [if_pos hlisten]
      have hforgets : ¬(Handler.event ev answers).Forgets listenSocket s := fun hf => hf.1 hlisten
      cases hfd : answers.connfd with
      | none =>
          refine .quiet (Quiet.refl s) ?_ hforgets
          simp [Handler.accepts, hfd]
      | some fd =>
          have hfree : s.kernel.fds fd = none := by
            simp only [hlisten, true_and, Bool.not_eq_false, mayAccept, hfd, Option.all_some,
              decide_eq_true_eq] at hmay
            exact hmay.2
          unfold acceptClient
          cases hadded : answers.added with
          | false =>
              refine .refused fd hfree ?_ hforgets rfl
              simp [Handler.accepts, hadded]
          | true =>
              refine .accepted fd hfree ?_ hforgets rfl
              simp [Handler.accepts, hlisten, hadded, hfd]
    · rw [if_neg hlisten]
      have haccepts : (Handler.event ev answers).accepts listenSocket = none := by
        simp [Handler.accepts, hlisten]
      split
      · rename_i hin
        have hforgets : ¬(Handler.event ev answers).Forgets listenSocket s := by
          rintro ⟨_, hno, _⟩
          rw [hin] at hno
          cases hno
        obtain ⟨s₁, hs₁, hgo | ⟨_, heof⟩⟩ := processRecvData_spec env s ev.fd answers.reads
        · rw [hgo]
          exact .quiet hs₁ haccepts hforgets
        · exact .eof ev.fd s₁ hs₁ haccepts hforgets heof
      · rename_i hin
        split
        · rename_i hout
          refine .quiet (quiet_writable s ev.fd) haccepts ?_
          rintro ⟨_, _, hno, _⟩
          rw [hout] at hno
          cases hno
        · rename_i hout
          refine .hangUp ev.fd (Quiet.refl _) haccepts (fun hf => hf.2.2.2) fun _ hsock => ?_
          exact ⟨hlisten, by simpa using hin, by simpa using hout, hsock⟩

theorem effect_frame (s : Server ω) (task : CFrameProcTask) :
    Effect env listenSocket s (.frame task) (s.frameTask env task) := by
  by_cases hrej : s.Rejected task.sock task.frame
  · refine .hangUp task.sock (frameTask_rejected hrej) rfl (fun hf => hf.2.2) fun hclient hsock => ?_
    refine ⟨hrej.1, ?_, hsock⟩
    rcases hrej.2 with hbad | hnone
    · exact hbad
    · rw [Std.TreeMap.mem_iff_isSome_getElem?, hnone] at hclient
      cases hclient
  · refine .quiet (quiet_frameTask hrej) rfl ?_
    rintro ⟨hcode, hbad, _⟩
    exact hrej ⟨hcode, Or.inl hbad⟩

theorem effect_of_step {s s' : Server ω} {a : Handler} (h : a.step env listenSocket s = some s') :
    Effect env listenSocket s a s' := by
  cases a with
  | event ev answers => exact effect_event h
  | frame task =>
      cases h
      exact effect_frame s task
  | sendData sock buffer len backfun =>
      cases h
      exact .quiet (quiet_sendData _ _ _ _ _ _) rfl id
  | sendTask sock results =>
      cases h
      exact .quiet (quiet_sendTask _ _ _) rfl id

end CmdTran
