import CmdTran.Flow.Lemmas.View

/-!
# What a step does to the view

Every step of the workers and of the epoll thread is one move, with what is known when it happens.
-/

namespace CmdTran

open Server

variable {ω : Type}

/-! ## Parts of a view -/

namespace FlowView

def setRecv (v : FlowView) (w : Fin 4) (phase : Option RecvPhase) : FlowView :=
  { v with recv := Function.update v.recv w phase }

def setFrame (v : FlowView) (w : Fin 4) (phase : Option (CFrameProcTask × FramePhase)) : FlowView :=
  { v with frame := Function.update v.frame w phase }

def setServer (v : FlowView) (server : ServerView) : FlowView := { v with toServerView := server }

end FlowView

/-! ## Moves -/

inductive FlowMove (listenSocket : Nat) (v : FlowView) : FlowStep → FlowView → Prop where
  | deliver (ev : EpollEvent) :
      FlowMove listenSocket v (.deliver ev)
        (v.setServer { v.toServerView with events := addTask v.events ev.fd ev })
  | pass (w : Fin 4) (connfd : Option Nat) (added : Bool) (r : ReadResult) (ev : EpollEvent)
      (rest : List EpollEvent) (hidle : v.recv w = none) (hevents : v.events w = ev :: rest) :
      FlowMove listenSocket v (.recv w connfd added r) ((v.setServer (v.popEvent w)).setRecv w none)
  | accept (w : Fin 4) (fd : Nat) (r : ReadResult) (ev : EpollEvent) (rest : List EpollEvent)
      (hidle : v.recv w = none) (hevents : v.events w = ev :: rest) (hlisten : ev.fd = listenSocket)
      (hfree : v.fds fd = none) :
      FlowMove listenSocket v (.recv w (some fd) true r)
        { (v.setServer ((v.popEvent w).accept fd)).setRecv w none with
          number := Function.update v.number v.accepted fd }
  | refuse (w : Fin 4) (fd : Nat) (r : ReadResult) (ev : EpollEvent) (rest : List EpollEvent)
      (hidle : v.recv w = none) (hevents : v.events w = ev :: rest) (hlisten : ev.fd = listenSocket)
      (hfree : v.fds fd = none) :
      FlowMove listenSocket v (.recv w (some fd) false r)
        { (v.setServer ((v.popEvent w).refuse fd)).setRecv w none with
          number := Function.update v.number v.accepted fd }
  | readable (w : Fin 4) (connfd : Option Nat) (added : Bool) (r : ReadResult) (ev : EpollEvent)
      (rest : List EpollEvent) (hidle : v.recv w = none) (hevents : v.events w = ev :: rest) :
      FlowMove listenSocket v (.recv w connfd added r)
        ((v.setServer (v.popEvent w)).setRecv w (some (.reading ev.fd)))
  | hangUp (w : Fin 4) (connfd : Option Nat) (added : Bool) (r : ReadResult) (ev : EpollEvent)
      (rest : List EpollEvent) (hidle : v.recv w = none) (hevents : v.events w = ev :: rest) :
      FlowMove listenSocket v (.recv w connfd added r)
        ((v.setServer ((v.popEvent w).close ev.fd)).setRecv w none)
  | stop (w : Fin 4) (connfd : Option Nat) (added : Bool) (r : ReadResult) (fd : Nat)
      (hphase : v.recv w = some (.reading fd)) :
      FlowMove listenSocket v (.recv w connfd added r) (v.setRecv w none)
  | eof (w : Fin 4) (connfd : Option Nat) (added : Bool) (r : ReadResult) (fd : Nat)
      (hphase : v.recv w = some (.reading fd)) :
      FlowMove listenSocket v (.recv w connfd added r) ((v.setServer (v.close fd)).setRecv w none)
  | receive (w : Fin 4) (connfd : Option Nat) (added : Bool) (buff : ReadBuff) (fd : Nat)
      (conn : Conn) (hphase : v.recv w = some (.reading fd)) (hopen : v.fds fd = some conn)
      (hbytes : buff.bytes.length ≠ 0) :
      FlowMove listenSocket v (.recv w connfd added (.data buff))
        (v.setRecv w (some (.received fd conn buff)))
  | miss (w : Fin 4) (connfd : Option Nat) (added : Bool) (r : ReadResult) (fd : Nat) (conn : Conn)
      (buff : ReadBuff) (hphase : v.recv w = some (.received fd conn buff)) :
      FlowMove listenSocket v (.recv w connfd added r) (v.setRecv w (some (.reading fd)))
  | restruct (w : Fin 4) (connfd : Option Nat) (added : Bool) (r : ReadResult) (fd : Nat)
      (conn : Conn) (buff : ReadBuff) (todo : List (Block × Int)) (frameCount : Int)
      (hphase : v.recv w = some (.received fd conn buff)) (hcount : frameCount = todo.length)
      (hmax : frameCount ≤ Flow.framesMax) :
      FlowMove listenSocket v (.recv w connfd added r)
        (v.setRecv w (some (.queueing fd conn todo frameCount)))
  | queue (w : Fin 4) (connfd : Option Nat) (added : Bool) (r : ReadResult) (fd : Nat)
      (conn : Conn) (t : Block × Int) (todo : List (Block × Int)) (frameCount : Int)
      (hphase : v.recv w = some (.queueing fd conn (t :: todo) frameCount)) :
      FlowMove listenSocket v (.recv w connfd added r)
        ((v.setServer { v.toServerView with
          queue := addTask v.queue fd ⟨fd, t.1, t.2, some conn⟩ }).setRecv w
            (some (.queueing fd conn todo frameCount)))
  | count (w : Fin 4) (connfd : Option Nat) (added : Bool) (r : ReadResult) (fd : Nat)
      (conn : Conn) (frameCount : Int)
      (hphase : v.recv w = some (.queueing fd conn [] frameCount)) :
      FlowMove listenSocket v (.recv w connfd added r)
        ((v.setServer (v.setClient fd ((v.clients fd).map (·.increase frameCount)))).setRecv w
          (some (.reading fd)))
  | take (w : Fin 4) (task : CFrameProcTask) (rest : List CFrameProcTask) (hidle : v.frame w = none)
      (htasks : v.queue w = task :: rest) :
      FlowMove listenSocket v (.frame w)
        ((v.setServer (v.popTask w)).setFrame w (some (task, .command)))
  | command (w : Fin 4) (task : CFrameProcTask) (hphase : v.frame w = some (task, .command)) :
      FlowMove listenSocket v (.frame w) (v.setFrame w (some (task, .finish)))
  | reject (w : Fin 4) (task : CFrameProcTask) (hphase : v.frame w = some (task, .command)) :
      FlowMove listenSocket v (.frame w)
        ((v.setServer (v.close task.sock)).setFrame w (some (task, .finish)))
  | finish (w : Fin 4) (task : CFrameProcTask) (hphase : v.frame w = some (task, .finish)) :
      FlowMove listenSocket v (.frame w)
        ((v.setServer (v.setClient task.sock ((v.clients task.sock).map FlowClient.decrease))).setFrame
          w none)

/-! ## Every step is a move -/

namespace Flow

variable {env : World ω} {listenSocket : Nat} {s s' : Flow ω}

theorem view_setRecv (s : Flow ω) (w : Fin 4) (server : Server ω) (phase : Option RecvPhase) :
    (s.setRecv w server phase).view = (s.view.setServer server.seen).setRecv w phase := rfl

theorem view_setFrame (s : Flow ω) (w : Fin 4) (server : Server ω)
    (phase : Option (CFrameProcTask × FramePhase)) :
    (s.setFrame w server phase).view = (s.view.setServer server.seen).setFrame w phase := rfl

theorem view_accept (s : Flow ω) (w : Fin 4) (fd : Nat) (added : Bool) :
    (s.accept w fd added).view =
      { (s.view.setServer ((s.server.popRecv w).acceptClient (some fd) added).seen).setRecv w none with
        number := Function.update s.number s.server.kernel.accepted fd } := rfl

theorem move_takeEvent {w : Fin 4} {ev : EpollEvent} {connfd : Option Nat} {added : Bool}
    {rest : List EpollEvent} (r : ReadResult) (hidle : s.recv w = none)
    (hevents : s.server.recvTasks w = ev :: rest)
    (h : s.takeEvent listenSocket w ev connfd added = some s') :
    FlowMove listenSocket s.view (.recv w connfd added r) s'.view := by
  unfold takeEvent at h
  dsimp only at h
  split at h
  · rename_i hlisten
    cases connfd with
    | none =>
        cases h
        exact .pass w none added r ev rest hidle hevents
    | some fd =>
        dsimp only at h
        split at h
        · rename_i hfree
          cases h
          rw [view_accept]
          cases added with
          | true =>
              rw [seen_accepted]
              exact .accept w fd r ev rest hidle hevents hlisten hfree.2
          | false =>
              rw [seen_refused]
              exact .refuse w fd r ev rest hidle hevents hlisten hfree.2
        · cases h
  · split at h
    · cases h
      exact .readable w connfd added r ev rest hidle hevents
    · split at h
      · cases h
        rw [view_setRecv, seen_writable]
        exact .pass w connfd added r ev rest hidle hevents
      · cases h
        rw [view_setRecv, seen_hangUp]
        exact .hangUp w connfd added r ev rest hidle hevents

theorem move_readOnce {w : Fin 4} {fd : Nat} (connfd : Option Nat) (added : Bool) (r : ReadResult)
    (hphase : s.recv w = some (.reading fd)) :
    FlowMove listenSocket s.view (.recv w connfd added r) (s.readOnce env w fd r).view := by
  unfold readOnce
  split
  · exact .stop w connfd added _ fd hphase
  · exact .stop w connfd added _ fd hphase
  · rename_i conn buff hopen
    split
    · rw [view_setRecv, seen_eof]
      exact .eof w connfd added _ fd hphase
    · rename_i hbytes
      exact .receive w connfd added buff fd conn hphase hopen hbytes

theorem move_restruct {w : Fin 4} {fd : Nat} {conn : Conn} {buff : ReadBuff} (connfd : Option Nat)
    (added : Bool) (r : ReadResult) (hphase : s.recv w = some (.received fd conn buff)) :
    FlowMove listenSocket s.view (.recv w connfd added r) (s.restruct env w fd conn buff).view := by
  unfold restruct
  split
  · exact .miss w connfd added r fd conn buff hphase
  · rename_i client hclient
    obtain ⟨hcount, hmax⟩ := client.frameRestruct.call_frameCount env.getBuff s.server.world buff
    rw [view_setRecv]
    have hseen := seen_client hclient (rfl : ClientInfo.counted { client with
      frameRestruct := client.frameRestruct.next env.getBuff s.server.world buff } = client.counted)
    have hmove : FlowMove listenSocket s.view (.recv w connfd added r) (s.view.setRecv w
        (some (.queueing fd conn (client.frameRestruct.call env.getBuff s.server.world buff).queued
          (client.frameRestruct.call env.getBuff s.server.world buff).frameCount))) :=
      .restruct w connfd added r fd conn buff _ _ hphase hcount hmax
    exact congrArg (fun server => (s.view.setServer server).setRecv w _) hseen ▸ hmove

theorem move_recv {w : Fin 4} {connfd : Option Nat} {added : Bool} {r : ReadResult}
    (h : s.recvStep env listenSocket w connfd added r = some s') :
    FlowMove listenSocket s.view (.recv w connfd added r) s'.view := by
  unfold recvStep at h
  split at h
  · rename_i hidle
    obtain ⟨ev, hev, hstep⟩ := Option.bind_eq_some_iff.mp h
    obtain ⟨rest, hevents⟩ := List.head?_eq_some_iff.mp hev
    exact move_takeEvent r hidle hevents hstep
  · rename_i fd hphase
    cases h
    exact move_readOnce connfd added r hphase
  · rename_i fd conn buff hphase
    cases h
    exact move_restruct connfd added r hphase
  · rename_i fd conn t todo frameCount hphase
    cases h
    exact .queue w connfd added r fd conn t todo frameCount hphase
  · rename_i fd conn frameCount hphase
    cases h
    rw [view_setRecv, seen_increaseFrameCount]
    exact .count w connfd added r fd conn frameCount hphase

theorem move_frame {w : Fin 4} (h : s.frameStep env w = some s') :
    FlowMove listenSocket s.view (.frame w) s'.view := by
  unfold frameStep at h
  split at h
  · rename_i hidle
    obtain ⟨task, htask, rfl⟩ := Option.map_eq_some_iff.mp h
    obtain ⟨rest, htasks⟩ := List.head?_eq_some_iff.mp htask
    exact .take w task rest hidle htasks
  · rename_i task hphase
    cases h
    rw [view_setFrame]
    rcases seen_commandProc s.server task.sock task.frame task.frameLen task.conn with hseen | hseen
    · rw [hseen]
      exact .command w task hphase
    · rw [hseen]
      exact .reject w task hphase
  · rename_i task hphase
    cases h
    rw [view_setFrame, seen_decreaseFrameCount]
    exact .finish w task hphase

theorem move_of_step {a : FlowStep} (h : s.step env listenSocket a = some s') :
    FlowMove listenSocket s.view a s'.view := by
  cases a with
  | deliver ev =>
      simp only [step] at h
      split at h
      · cases h
        exact .deliver ev
      · cases h
  | recv w connfd added r => exact move_recv h
  | frame w => exact move_frame h

end Flow

end CmdTran
