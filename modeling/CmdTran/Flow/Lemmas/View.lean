import CmdTran.Flow.Basic
import CmdTran.Routing.Basic

/-!
# What flow control depends on

The connection, the count and the switch of each client, the open descriptors, the queued frames and
what the workers are in the middle of.
-/

namespace CmdTran

open Server

variable {ω : Type}

/-! ## Views -/

/-- A client as flow control sees it. -/
structure FlowClient where
  conn : Conn
  frameCount : Int
  enableRead : Bool

namespace FlowClient

/-- `IncreaseFrameCount` -/
def increase (c : FlowClient) (count : Int) : FlowClient :=
  ⟨c.conn, c.frameCount + count,
    if c.frameCount + count > flowControlHigh ∧ c.enableRead = true then false else c.enableRead⟩

/-- `DecreaseFrameCount` -/
def decrease (c : FlowClient) : FlowClient :=
  ⟨c.conn, c.frameCount - 1,
    if c.frameCount - 1 < flowControlLow ∧ c.enableRead = false then true else c.enableRead⟩

end FlowClient

def ClientInfo.counted (client : ClientInfo) : FlowClient :=
  ⟨client.conn, client.frameCount, client.enableRead⟩

/-- What flow control sees of the server. -/
structure ServerView where
  clients : Nat → Option FlowClient
  fds : Nat → Option Conn
  accepted : Nat
  queue : Nat → List CFrameProcTask
  events : Nat → List EpollEvent

structure FlowView extends ServerView where
  number : Conn → Nat
  recv : Fin 4 → Option RecvPhase
  frame : Fin 4 → Option (CFrameProcTask × FramePhase)

namespace ServerView

def setClient (v : ServerView) (fd : Nat) (client : Option FlowClient) : ServerView :=
  { v with clients := Function.update v.clients fd client }

def close (v : ServerView) (fd : Nat) : ServerView :=
  { v.setClient fd none with fds := Function.update v.fds fd none }

def accept (v : ServerView) (fd : Nat) : ServerView :=
  { v.setClient fd (some ((v.clients fd).getD ⟨v.accepted, 0, true⟩)) with
    fds := Function.update v.fds fd (some v.accepted)
    accepted := v.accepted + 1 }

/-- A connection that is accepted and closed at once. -/
def refuse (v : ServerView) (fd : Nat) : ServerView :=
  { v with fds := Function.update v.fds fd none, accepted := v.accepted + 1 }

def popEvent (v : ServerView) (w : Nat) : ServerView :=
  { v with events := Function.update v.events w (v.events w).tail }

def popTask (v : ServerView) (w : Nat) : ServerView :=
  { v with queue := Function.update v.queue w (v.queue w).tail }

end ServerView

namespace Server

def counted (s : Server ω) (fd : Nat) : Option FlowClient := (s.clientMap[fd]?).map ClientInfo.counted

def seen (s : Server ω) : ServerView :=
  ⟨s.counted, s.kernel.fds, s.kernel.accepted, s.frameTasks, s.recvTasks⟩

end Server

def Flow.view (s : Flow ω) : FlowView := ⟨s.server.seen, s.number, s.recv, s.frame⟩

/-! ## Functions that change nothing of it -/

namespace Server

variable {env : World ω} {s s' : Server ω}

theorem counted_of_get {fd : Nat} {client : ClientInfo} (h : s.clientMap[fd]? = some client) :
    s.counted fd = some client.counted := by
  rw [counted, h]
  rfl

theorem counted_of_get_none {fd : Nat} (h : s.clientMap[fd]? = none) : s.counted fd = none := by
  rw [counted, h]
  rfl

theorem counted_insert (s : Server ω) (sock : Nat) (client : ClientInfo) :
    { s with clientMap := s.clientMap.insert sock client }.counted =
      Function.update s.counted sock (some client.counted) := by
  funext k
  rw [counted, get_insert, Function.update_apply]
  by_cases h : k = sock
  · rw [if_pos h, if_pos h.symm]
    rfl
  · rw [if_neg h, if_neg (Ne.symm h)]
    rfl

theorem counted_erase (s : Server ω) (sock : Nat) :
    { s with clientMap := s.clientMap.erase sock }.counted =
      Function.update s.counted sock none := by
  funext k
  rw [counted, get_erase, Function.update_apply]
  by_cases h : k = sock
  · rw [if_pos h, if_pos h.symm]
    rfl
  · rw [if_neg h, if_neg (Ne.symm h)]
    rfl

theorem seen_insert (s : Server ω) (sock : Nat) (client : ClientInfo) :
    { s with clientMap := s.clientMap.insert sock client }.seen =
      s.seen.setClient sock (some client.counted) := by
  simp only [seen, counted_insert, ServerView.setClient]

/-- A client whose count and switch stay the same. -/
theorem seen_client {sock : Nat} {client client' : ClientInfo}
    (h : s.clientMap[sock]? = some client) (hcounted : client'.counted = client.counted) :
    { s with clientMap := s.clientMap.insert sock client' }.seen = s.seen := by
  rw [seen_insert, hcounted, ← counted_of_get h]
  exact congrArg (fun f => { s.seen with clients := f }) (Function.update_eq_self sock s.counted)

theorem seen_sendData (s : Server ω) (sock : Nat) (buffer : List UInt8) (len : Int)
    (backfun : Bool) (source : Option Conn) :
    (s.sendData env sock buffer len backfun source).1.seen = s.seen := by
  unfold sendData
  split
  · rfl
  · split
    · rfl
    · split
      · rfl
      · dsimp only
        split <;> rfl

theorem seen_sendCalls (s : Server ω) (source : Option Conn) (calls : List SendDataCall) :
    (s.sendCalls env source calls).seen = s.seen := by
  induction calls generalizing s with
  | nil => rfl
  | cons c calls ih => exact (ih _).trans (seen_sendData s _ _ _ _ _)

theorem seen_writable (s : Server ω) (fd : Nat) : (s.writable fd).seen = s.seen := by
  unfold writable
  split <;> rfl

theorem seen_modifyRead (s : Server ω) (sock : Nat) (enable : Bool) :
    (s.modifyRead env sock enable).1.seen = s.seen := by
  unfold modifyRead
  split
  · rfl
  · split
    · rfl
    · unfold epollCtlMod
      split <;> rfl

/-! ## Functions that count -/

theorem seen_count {fd : Nat} {client client' : ClientInfo} {f : FlowClient → FlowClient}
    (h : s'.seen = s.seen) (hclient : s.clientMap[fd]? = some client)
    (hf : client'.counted = f client.counted) :
    { s' with clientMap := s'.clientMap.insert fd client' }.seen =
      s.seen.setClient fd ((s.counted fd).map f) := by
  rw [seen_insert, h, hf, counted_of_get hclient]
  rfl

theorem seen_count_none {fd : Nat} (f : FlowClient → FlowClient) (h : s.clientMap[fd]? = none) :
    s.seen = s.seen.setClient fd ((s.counted fd).map f) := by
  rw [counted_of_get_none h, Option.map_none, ← counted_of_get_none h]
  exact congrArg (fun f => { s.seen with clients := f }) (Function.update_eq_self fd s.counted).symm

theorem seen_increaseFrameCount (s : Server ω) (fd : Nat) (count : Int) :
    (s.increaseFrameCount env fd count).1.seen =
      s.seen.setClient fd ((s.counted fd).map (·.increase count)) := by
  unfold increaseFrameCount
  cases hclient : s.clientMap[fd]? with
  | none => exact seen_count_none _ hclient
  | some client =>
      dsimp only
      split
      · rename_i hhigh
        apply seen_count (seen_modifyRead s fd false) hclient
        exact congrArg (FlowClient.mk client.conn _) (if_pos hhigh).symm
      · rename_i hhigh
        apply seen_count rfl hclient
        exact congrArg (FlowClient.mk client.conn _) (if_neg hhigh).symm

theorem get_increaseFrameCount (env : World ω) {fd : Nat} {client : ClientInfo}
    (hclient : s.clientMap[fd]? = some client) (count : Int) :
    ∃ client', (s.increaseFrameCount env fd count).1.clientMap[fd]? = some client' ∧
      client'.frameRestruct = client.frameRestruct ∧
      client'.counted = client.counted.increase count := by
  unfold increaseFrameCount
  rw [hclient]
  dsimp only
  split
  · rename_i hhigh
    refine ⟨_, (get_insert _ _ _ _).trans (if_pos rfl), rfl, ?_⟩
    exact congrArg (FlowClient.mk client.conn _) (if_pos hhigh).symm
  · rename_i hhigh
    refine ⟨_, (get_insert _ _ _ _).trans (if_pos rfl), rfl, ?_⟩
    exact congrArg (FlowClient.mk client.conn _) (if_neg hhigh).symm

theorem seen_decreaseFrameCount (s : Server ω) (fd : Nat) :
    (s.decreaseFrameCount env fd).1.seen =
      s.seen.setClient fd ((s.counted fd).map FlowClient.decrease) := by
  unfold decreaseFrameCount
  cases hclient : s.clientMap[fd]? with
  | none => exact seen_count_none _ hclient
  | some client =>
      dsimp only
      split
      · rename_i hlow
        apply seen_count (seen_modifyRead s fd true) hclient
        exact congrArg (FlowClient.mk client.conn _) (if_pos hlow).symm
      · rename_i hlow
        apply seen_count rfl hclient
        exact congrArg (FlowClient.mk client.conn _) (if_neg hlow).symm

/-! ## Functions that open and close -/

theorem seen_addClient (s : Server ω) (sock : Nat) (conn : Conn) :
    (s.addClient sock conn).seen =
      s.seen.setClient sock (some ((s.counted sock).getD ⟨conn, 0, true⟩)) := by
  have hclients : (s.addClient sock conn).counted =
      Function.update s.counted sock (some ((s.counted sock).getD ⟨conn, 0, true⟩)) := by
    funext k
    simp only [counted, get_addClient, Function.update_apply]
    by_cases h : k = sock
    · subst h
      rw [if_pos rfl, if_pos rfl]
      cases s.clientMap[k]? with
      | none => rfl
      | some client => rfl
    · rw [if_neg h, if_neg (Ne.symm h)]
  exact congrArg (fun f => { s.seen with clients := f }) hclients

theorem seen_accepted (s : Server ω) (fd : Nat) :
    (s.acceptClient (some fd) true).seen = s.seen.accept fd :=
  seen_addClient _ fd s.kernel.accepted

theorem seen_refused (s : Server ω) (fd : Nat) :
    (s.acceptClient (some fd) false).seen = s.seen.refuse fd := by
  have hfds : Function.update (Function.update s.kernel.fds fd (some s.kernel.accepted)) fd none =
      Function.update s.kernel.fds fd none := Function.update_idem _ _ _
  exact congrArg (fun f => { s.seen with fds := f, accepted := s.kernel.accepted + 1 }) hfds

theorem seen_hangUp (s : Server ω) (fd : Nat) : (s.hangUp fd).seen = s.seen.close fd :=
  congrArg (fun f => { s.seen.close fd with clients := f }) (counted_erase (s.close fd) fd)

theorem seen_removeSocket (s : Server ω) (fd : Nat) : (s.removeSocket env fd).seen = s.seen := by
  unfold removeSocket
  split <;> rfl

theorem seen_eof (s : Server ω) (fd : Nat) : (s.eof env fd).seen = s.seen.close fd :=
  (seen_removeSocket _ fd).trans (seen_hangUp s fd)

/-- `CommandProc` closes the connection of a login that it rejects, and otherwise counts nothing. -/
theorem seen_commandProc (s : Server ω) (sock : Nat) (frame : Block) (frameLen : Int)
    (source : Option Conn) :
    (s.commandProc env sock frame frameLen source).seen = s.seen ∨
      (s.commandProc env sock frame frameLen source).seen = s.seen.close sock := by
  rw [commandProc_eq]
  by_cases h0 : byteAt frame 3 = 0x00
  · by_cases hrej : BadType frame ∨ s.clientMap[sock]? = none
    · rw [CRecvDataProc.commandProc_rejected h0 hrej]
      exact Or.inr (seen_hangUp s sock)
    · obtain ⟨htype, hsome⟩ := not_or.mp hrej
      obtain ⟨client, hclient⟩ := Option.ne_none_iff_exists'.mp hsome
      rw [CRecvDataProc.commandProc_login h0 htype hclient]
      left
      apply Eq.trans (seen_sendCalls _ source _)
      exact seen_client hclient rfl
  · by_cases h1 : byteAt frame 3 = 0x01
    · rw [CRecvDataProc.commandProc_reset h1, CRecvDataProc.resetCameraId]
      cases hclient : s.clientMap[sock]? with
      | none => exact Or.inl rfl
      | some client =>
          left
          exact seen_client hclient rfl
    · by_cases h2 : byteAt frame 3 = 0x10
      · rw [CRecvDataProc.commandProc_picture h2]
        exact Or.inl (seen_sendCalls _ _ _)
      · rw [CRecvDataProc.commandProc_unknown h0 h1 h2]
        exact Or.inl rfl

end Server

end CmdTran
