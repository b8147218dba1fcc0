import CmdTran.Relay.Lemmas.Moves

/-!
# Tasks that nobody interrupts

When the steps of a worker come one right after the other, and the others are between two tasks, they do what
the handler of its task does in one.
-/

namespace CmdTran

open Server
open Std (TreeMap)

variable {ω : Type} {env : World ω} {listenSocket : Nat} {w₀ : ω} {s : Relay ω} {w : Fin 4}

namespace Server

variable (env) in
theorem sendData_clientMap (s : Server ω) (sock : Nat) (buffer : List UInt8) (len : Int)
    (backfun : Bool) (source : Option Conn) :
    (s.sendData env sock buffer len backfun source).1.clientMap = s.clientMap := by
  unfold sendData
  split
  · rfl
  · split
    · rfl
    · split
      · rfl
      · dsimp only
        split <;> rfl

/-- `NewClient` is its part before the acknowledgement and `SendData`. -/
theorem newClient_eq (s : Server ω) (sock : Nat) (frame : Block) :
    s.newClient env sock frame =
      match s.setClient sock frame with
      | none => (s, false)
      | some s' => ((s'.sendData env sock loginAckFrame 5 false none).1, true) := by
  unfold newClient setClient
  split
  · cases s.clientMap[sock]? with
    | none => rfl
    | some client => rfl
  · rfl

/-- The keys of a map come in order. -/
theorem pairwise_toList {α : Type} (m : TreeMap Nat α) :
    m.toList.Pairwise fun a b => a.1 < b.1 := by
  refine TreeMap.ordered_keys_toList.imp fun h => ?_
  exact Nat.compare_eq_lt.mp h

end Server

namespace Relay

/-- No recv worker and no frame worker has a task. -/
structure Idle (s : Relay ω) : Prop where
  recv : ∀ w, s.recv w = none
  frame : ∀ w, s.frame w = none

/-- `QuitClient` takes nothing away from anybody. -/
theorem Idle.quitClient_frame (h : s.Idle) (server server' : Server ω) (fd : Nat)
    (stage stage' : Option (CFrameProcTask × FrameStage)) :
    ((s.setFrame w server stage).quitClient fd).setFrame w server' stage' = s.setFrame w server' stage' := by
  have hrecv : (fun w' => (s.recv w').map (·.forget fd)) = s.recv := by
    funext w'
    rw [h.recv w']
    rfl
  have hframe : Function.update
      (fun w' => (Function.update s.frame w stage w').map fun p => (p.1, p.2.forget fd)) w stage' =
        Function.update s.frame w stage' := by
    funext w'
    by_cases hw : w' = w
    · subst hw
      simp only [Function.update_self]
    · simp only [Function.update_of_ne hw, h.frame w']
      rfl
  simp only [quitClient, setFrame, hrecv, hframe]

theorem Idle.quitClient_recv (h : s.Idle) (server server' : Server ω) (fd : Nat)
    (stage stage' : Option RecvStage) :
    ((s.setRecv w server stage).quitClient fd).setRecv w server' stage' = s.setRecv w server' stage' := by
  have hframe : (fun w' => (s.frame w').map fun p => (p.1, p.2.forget fd)) = s.frame := by
    funext w'
    rw [h.frame w']
    rfl
  have hrecv : Function.update (fun w' => (Function.update s.recv w stage w').map (·.forget fd)) w stage' =
      Function.update s.recv w stage' := by
    funext w'
    by_cases hw : w' = w
    · subst hw
      simp only [Function.update_self]
    · simp only [Function.update_of_ne hw, h.recv w']
      rfl
  simp only [quitClient, setRecv, hrecv, hframe]

@[simp] theorem setFrame_frame (server : Server ω) (stage : Option (CFrameProcTask × FrameStage)) :
    (s.setFrame w server stage).frame w = stage :=
  Function.update_self _ _ _

@[simp] theorem setFrame_server (server : Server ω)
    (stage : Option (CFrameProcTask × FrameStage)) : (s.setFrame w server stage).server = server :=
  rfl

@[simp] theorem setFrame_setFrame (server server' : Server ω)
    (stage stage' : Option (CFrameProcTask × FrameStage)) :
    (s.setFrame w server stage).setFrame w server' stage' = s.setFrame w server' stage' := by
  simp only [setFrame, Function.update_idem]

theorem setFrame_idle (hidle : s.frame w = none) (server : Server ω) :
    s.setFrame w server none = { s with server } := by
  rw [setFrame, ← hidle, Function.update_eq_self]

theorem setRecv_idle (hidle : s.recv w = none) (server : Server ω) :
    s.setRecv w server none = { s with server } := by
  rw [setRecv, ← hidle, Function.update_eq_self]

@[simp] theorem setRecv_recv (server : Server ω) (stage : Option RecvStage) :
    (s.setRecv w server stage).recv w = stage :=
  Function.update_self _ _ _

@[simp] theorem setRecv_server (server : Server ω) (stage : Option RecvStage) :
    (s.setRecv w server stage).server = server :=
  rfl

@[simp] theorem setRecv_setRecv (server server' : Server ω) (stage stage' : Option RecvStage) :
    (s.setRecv w server stage).setRecv w server' stage' = s.setRecv w server' stage' := by
  simp only [setRecv, Function.update_idem]

/-! ## Frames -/

/-- What `PicDataRecv` does with one client. -/
def toViewer (env : World ω) (task : CFrameProcTask) (cameraId : Nat) (s : Server ω)
    (entry : Nat × ClientInfo) : Server ω :=
  if isViewer task.sock cameraId entry.1 entry.2 then
    (s.sendData env entry.1 task.frame.toList task.frameLen true task.conn).1
  else s

theorem toViewer_clientMap (task : CFrameProcTask) (cameraId : Nat) (server : Server ω)
    (entry : Nat × ClientInfo) :
    (toViewer env task cameraId server entry).clientMap = server.clientMap := by
  unfold toViewer
  split
  · exact sendData_clientMap env _ _ _ _ _ _
  · rfl

/-- One step of a frame worker that is at `stage`. -/
theorem frameStep_setFrame {server server' : Server ω} {task : CFrameProcTask} {stage : FrameStage}
    {stage' : Option (CFrameProcTask × FrameStage)}
    (h : (s.setFrame w server (some (task, stage))).frameStep env w =
      some ((s.setFrame w server (some (task, stage))).setFrame w server' stage')) :
    (relays env listenSocket w₀).Steps (s.setFrame w server (some (task, stage)))
      (s.setFrame w server' stage') := by
  rw [setFrame_setFrame] at h
  exact .single (a := .frame w) h

/-- The loop of `PicDataRecv` over the clients `rest`, which begin at `next`. -/
theorem steps_relaying (task : CFrameProcTask) (cameraId : Nat) (rest : List (Nat × ClientInfo)) :
    ∀ (done : List (Nat × ClientInfo)) (next : Nat) (server : Server ω),
      server.clientMap.toList = done ++ rest → (∀ e ∈ done, e.1 < next) →
      (∀ e ∈ rest, next ≤ e.1) → rest.Pairwise (fun a b => a.1 < b.1) →
      (relays env listenSocket w₀).Steps
        (s.setFrame w server (some (task, .relaying cameraId (server.iterFrom next))))
        (s.setFrame w (rest.foldl (toViewer env task cameraId) server) (some (task, .finishing))) := by
  induction rest with
  | nil =>
      intro done next server hlist hdone _ _
      have hnone : server.clientFrom next = none := by
        rw [clientFrom, hlist, List.append_nil, List.find?_eq_none]
        intro e he
        simpa using hdone e he
      rw [iterFrom, hnone]
      apply frameStep_setFrame
      rw [frameStep, setFrame_frame]
      rfl
  | cons entry rest ih =>
      intro done next server hlist hdone hrest hsorted
      have hfound : server.clientFrom next = some entry := by
        have hskip : done.find? (next ≤ ·.1) = none := by
          rw [List.find?_eq_none]
          intro e he
          simpa using hdone e he
        have hnext : next ≤ entry.1 := hrest entry List.mem_cons_self
        rw [clientFrom, hlist, List.find?_append, hskip]
        simp [hnext]
      have hclient : server.clientMap[entry.1]? = some entry.2 := by
        apply TreeMap.mem_toList_iff_getElem?_eq_some.mp
        rw [hlist]
        exact List.mem_append_right _ List.mem_cons_self
      have hbody : (relays env listenSocket w₀).Steps
          (s.setFrame w server (some (task, .relaying cameraId (.entry entry.1))))
          (s.setFrame w (toViewer env task cameraId server entry)
            (some (task, .relayed cameraId (.entry entry.1)))) := by
        apply frameStep_setFrame
        rw [frameStep, setFrame_frame]
        dsimp only
        rw [setFrame_server, hclient, Option.map_some, relayTo, toViewer]
        split
        · rfl
        · rfl
      have hnext : (relays env listenSocket w₀).Steps
          (s.setFrame w (toViewer env task cameraId server entry)
            (some (task, .relayed cameraId (.entry entry.1))))
          (s.setFrame w (toViewer env task cameraId server entry) (some (task, .relaying cameraId
            ((toViewer env task cameraId server entry).iterFrom (entry.1 + 1))))) := by
        apply frameStep_setFrame
        rw [frameStep, setFrame_frame]
        rfl
      have hlater := List.pairwise_cons.mp hsorted
      rw [iterFrom, hfound]
      refine hbody.trans (hnext.trans (ih (done ++ [entry]) (entry.1 + 1) _ ?_ ?_ ?_ hlater.2))
      · rw [toViewer_clientMap, hlist, List.append_assoc]
        rfl
      · intro e he
        rcases List.mem_append.mp he with hold | hnew
        · exact Nat.lt_succ_of_lt
            (Nat.lt_of_lt_of_le (hdone e hold) (hrest entry List.mem_cons_self))
        · rw [List.mem_singleton.mp hnew]
          exact Nat.lt_succ_self _
      · exact hlater.1

theorem steps_commandProc (hidle : s.Idle) (server : Server ω) (task : CFrameProcTask) :
    (relays env listenSocket w₀).Steps (s.setFrame w server (some (task, .taken)))
      (s.setFrame w (server.commandProc env task.sock task.frame task.frameLen task.conn)
        (some (task, .finishing))) := by
  have htaken : (s.setFrame w server (some (task, .taken))).frameStep env w =
      some ((s.setFrame w server (some (task, .taken))).command w task) := by
    rw [frameStep, setFrame_frame]
  unfold commandProc
  unfold command at htaken
  split
  · rename_i hlogin
    rw [if_pos hlogin, setFrame_server] at htaken
    rw [newClient_eq]
    cases hclient : server.setClient task.sock task.frame with
    | none =>
        rw [hclient] at htaken
        have hquit : (relays env listenSocket w₀).Steps
            (s.setFrame w server (some (task, .rejected)))
            (s.setFrame w (server.quitClient task.sock) (some (task, .closing))) := by
          have hstep : (s.setFrame w server (some (task, .rejected))).frameStep env w =
              some (((s.setFrame w server (some (task, .rejected))).quitClient task.sock).setFrame w
                (server.quitClient task.sock) (some (task, .closing))) := by
            rw [frameStep, setFrame_frame]
            rfl
          rw [hidle.quitClient_frame] at hstep
          exact .single (a := .frame w) hstep
        refine (frameStep_setFrame htaken).trans (hquit.trans ?_)
        apply frameStep_setFrame
        rw [frameStep, setFrame_frame]
        rfl
    | some server' =>
        rw [hclient] at htaken
        refine (frameStep_setFrame htaken).trans ?_
        apply frameStep_setFrame
        rw [frameStep, setFrame_frame]
        rfl
  · rename_i hlogin
    rw [if_neg hlogin] at htaken
    split
    · rename_i hreset
      rw [if_pos hreset] at htaken
      exact frameStep_setFrame htaken
    · rename_i hreset
      rw [if_neg hreset] at htaken
      split
      · rename_i hpicture
        rw [if_pos hpicture, setFrame_server] at htaken
        unfold picDataRecv
        cases hphone : server.clientMap[task.sock]? with
        | none =>
            rw [hphone] at htaken
            exact frameStep_setFrame htaken
        | some phone =>
            rw [hphone] at htaken
            have hcamera : (relays env listenSocket w₀).Steps
                (s.setFrame w server (some (task, .found (.entry task.sock))))
                (s.setFrame w server (some (task, .beginning phone.cameraId))) := by
              apply frameStep_setFrame
              rw [frameStep, setFrame_frame]
              dsimp only
              rw [setFrame_server, hphone]
              rfl
            have hbegin : (relays env listenSocket w₀).Steps
                (s.setFrame w server (some (task, .beginning phone.cameraId)))
                (s.setFrame w server (some (task, .relaying phone.cameraId (server.iterFrom 0)))) := by
              apply frameStep_setFrame
              rw [frameStep, setFrame_frame]
              rfl
            refine (frameStep_setFrame htaken).trans (hcamera.trans (hbegin.trans ?_))
            exact steps_relaying task phone.cameraId server.clientMap.toList [] 0 server rfl nofun
              (fun _ _ => Nat.zero_le _) (pairwise_toList _)
      · rename_i hpicture
        rw [if_neg hpicture] at htaken
        exact frameStep_setFrame htaken

/-- `CFrameProcTask::ProcessTask` -/
theorem steps_frameTask {task : CFrameProcTask} {rest : List CFrameProcTask}
    (hidle : s.Idle) (htasks : s.server.frameTasks w = task :: rest) :
    (relays env listenSocket w₀).Steps s
      { s with server := (s.server.popFrame w).frameTask env task } := by
  have htake : s.frameStep env w =
      some (s.setFrame w (s.server.popFrame w) (some (task, .taken))) := by
    rw [frameStep, hidle.frame w]
    dsimp only
    rw [htasks]
    rfl
  have hfinish : (relays env listenSocket w₀).Steps
      (s.setFrame w ((s.server.popFrame w).commandProc env task.sock task.frame task.frameLen task.conn)
        (some (task, .finishing)))
      { s with server := (s.server.popFrame w).frameTask env task } := by
    rw [← setFrame_idle (hidle.frame w)]
    apply frameStep_setFrame
    rw [frameStep, setFrame_frame]
    rfl
  exact .head (a := .frame w) htake ((steps_commandProc hidle (s.server.popFrame w) task).trans hfinish)

/-! ## Events -/

/-- One step of a recv worker that has a stage, with the answer `r` to a `read`. -/
theorem recvStep_setRecv (added : Bool) (r : ReadResult) {server server' : Server ω}
    {stage stage' : Option RecvStage}
    (h : (s.setRecv w server stage).recvStep env listenSocket w none added r =
      some ((s.setRecv w server stage).setRecv w server' stage')) :
    (relays env listenSocket w₀).Steps (s.setRecv w server stage) (s.setRecv w server' stage') := by
  rw [setRecv_setRecv] at h
  exact .single (a := .recv w none added r) h

theorem steps_quitClient (hidle : s.Idle) (server : Server ω) (fd : Nat) (removes : Bool) :
    (relays env listenSocket w₀).Steps (s.setRecv w server (some (.closed fd removes)))
      (s.setRecv w (server.quitClient fd) (if removes then some (.quit fd) else none)) := by
  have hstep : (s.setRecv w server (some (.closed fd removes))).recvStep env listenSocket w none true
      .failed = some (((s.setRecv w server (some (.closed fd removes))).quitClient fd).setRecv w
        (server.quitClient fd) (if removes then some (.quit fd) else none)) := by
    rw [recvStep, setRecv_recv]
    rfl
  rw [hidle.quitClient_recv] at hstep
  exact .single (a := .recv w none true .failed) hstep

theorem steps_eof (hidle : s.Idle) (server : Server ω) (fd : Nat) :
    (relays env listenSocket w₀).Steps (s.setRecv w (server.close fd) (some (.closed fd true)))
      (s.setRecv w (server.eof env fd) none) := by
  refine (steps_quitClient hidle (server.close fd) fd true).trans ?_
  apply recvStep_setRecv true .failed
  rw [recvStep, if_pos rfl, setRecv_recv]
  rfl

/-- What `SaveFrame` queues and counts for the frames, one after the other. -/
theorem steps_saving (fd : Nat) (conn : Conn) (frames : List (List UInt8)) :
    ∀ (server : Server ω) (count : Nat), (relays env listenSocket w₀).Steps
      (s.setRecv w server (some (.saving fd conn frames count)))
      (s.setRecv w
        { server with
          world := (saveAll env.getBuff server.world frames).2
          frameTasks := Function.update server.frameTasks (worker fd) (server.frameTasks (worker fd) ++
            (saveAll env.getBuff server.world frames).1.map fun t => ⟨fd, t.1, t.2, some conn⟩) }
        (some (.saving fd conn [] (count + (saveAll env.getBuff server.world frames).1.length)))) := by
  induction frames with
  | nil =>
      intro server count
      have hnone : ({ server with
          world := (saveAll env.getBuff server.world []).2
          frameTasks := Function.update server.frameTasks (worker fd) (server.frameTasks (worker fd) ++
            (saveAll env.getBuff server.world []).1.map fun t => ⟨fd, t.1, t.2, some conn⟩) } :
              Server ω) = server := by
        simp only [saveAll, List.map_nil, List.append_nil, Function.update_eq_self]
      rw [hnone]
      exact .refl _
  | cons frame frames ih =>
      intro server count
      cases hget : env.getBuff server.world with
      | mk b world =>
          have hsave (server' : Server ω) (count' : Nat)
              (h : (s.setRecv w server (some (.saving fd conn (frame :: frames) count))).saveOnce env w fd
                conn frame frames count = s.setRecv w server' (some (.saving fd conn frames count'))) :
              (relays env listenSocket w₀).Steps
                (s.setRecv w server (some (.saving fd conn (frame :: frames) count)))
                (s.setRecv w server' (some (.saving fd conn frames count'))) := by
            have hstep : (s.setRecv w server (some (.saving fd conn (frame :: frames) count))).recvStep env
                listenSocket w none true .failed =
                  some (s.setRecv w server' (some (.saving fd conn frames count'))) := by
              rw [recvStep, setRecv_recv]
              exact congrArg some h
            exact .single (a := .recv w none true .failed) hstep
          cases b with
          | none =>
              have hall : saveAll env.getBuff server.world (frame :: frames) =
                  saveAll env.getBuff world frames := by
                rw [saveAll, hget]
              rw [hall]
              refine (hsave { server with world } count ?_).trans (ih { server with world } count)
              rw [saveOnce, setRecv_server, hget]
              simp only [setRecv_setRecv]
          | some b =>
              have hall : saveAll env.getBuff server.world (frame :: frames) =
                  ((b.put frame, (frame.length : Int)) :: (saveAll env.getBuff world frames).1,
                    (saveAll env.getBuff world frames).2) := by
                rw [saveAll, hget]
              let server' : Server ω :=
                { server with world }.queueFrame fd (some conn) (b.put frame) frame.length
              have hlast : ({ server' with
                  world := (saveAll env.getBuff server'.world frames).2
                  frameTasks := Function.update server'.frameTasks (worker fd)
                    (server'.frameTasks (worker fd) ++ (saveAll env.getBuff server'.world frames).1.map
                      fun t => ⟨fd, t.1, t.2, some conn⟩) } : Server ω) =
                  { server with
                    world := (saveAll env.getBuff world frames).2
                    frameTasks := Function.update server.frameTasks (worker fd)
                      (server.frameTasks (worker fd) ++ ⟨fd, b.put frame, frame.length, some conn⟩ ::
                        (saveAll env.getBuff world frames).1.map fun t => ⟨fd, t.1, t.2, some conn⟩) } := by
                simp [server', queueFrame, addTask]
              rw [hall, List.map_cons, List.length_cons]
              refine (hsave server' (count + 1) ?_).trans ?_
              · rw [saveOnce, setRecv_server, hget]
                simp only [setRecv_setRecv]
                rfl
              · have hrest := ih server' (count + 1)
                rw [hlast, Nat.add_assoc, Nat.add_comm 1] at hrest
                exact hrest

/-- The end of `RestructFrame`, and `IncreaseFrameCount`. -/
theorem steps_counting (server : Server ω) (fd : Nat) (conn : Conn) (count : Nat) :
    (relays env listenSocket w₀).Steps (s.setRecv w server (some (.saving fd conn [] count)))
      (s.setRecv w (server.increaseFrameCount env fd count).1 (some (.reading fd))) := by
  have hend : (relays env listenSocket w₀).Steps (s.setRecv w server (some (.saving fd conn [] count)))
      (s.setRecv w server (some (.counting fd count))) := by
    apply recvStep_setRecv true .failed
    rw [recvStep, setRecv_recv]
    rfl
  refine hend.trans ?_
  apply recvStep_setRecv true .failed
  rw [recvStep, setRecv_recv]
  rfl

/-- The `read` of a worker in the loop of `ProcessRecvData`. -/
theorem recvStep_reading (server : Server ω) (fd : Nat) (r : ReadResult) :
    (s.setRecv w server (some (.reading fd))).recvStep env listenSocket w none true r =
      some ((s.setRecv w server (some (.reading fd))).readOnce env w fd r) := by
  rw [recvStep, setRecv_recv]

theorem steps_addRecvData (server : Server ω) {fd : Nat} {conn : Conn} (buff : ReadBuff)
    (hopen : server.kernel.fds fd = some conn) (hlen : buff.bytes.length ≠ 0) :
    (relays env listenSocket w₀).Steps (s.setRecv w server (some (.reading fd)))
      (s.setRecv w (addRecvData env
        { server with log := server.log ++ [Event.received conn buff.bytes] } fd buff).1
        (some (.reading fd))) := by
  unfold addRecvData
  cases hclient : server.clientMap[fd]? with
  | none =>
      have hread : (s.setRecv w server (some (.reading fd))).recvStep env listenSocket w none true (.data buff) =
          some (s.setRecv w { server with log := server.log ++ [Event.received conn buff.bytes] }
            (some (.reading fd))) := by
        rw [recvStep_reading]
        unfold readOnce
        rw [setRecv_server, hopen]
        dsimp only
        rw [if_neg hlen, hclient]
        simp only [setRecv_setRecv]
      exact .single (a := .recv w none true (.data buff)) hread
  | some client =>
      have hread : (s.setRecv w server (some (.reading fd))).recvStep env listenSocket w none true (.data buff) =
          some (s.setRecv w
            { server with
              log := server.log ++ [Event.received conn buff.bytes]
              clientMap := server.clientMap.insert fd { client with
                frameRestruct := client.frameRestruct.next env.getBuff server.world buff } }
            (some (.saving fd conn ((client.frameRestruct.call cleanPool () buff).queued.map taskFrame) 0))) := by
        rw [recvStep_reading]
        unfold readOnce
        rw [setRecv_server, hopen]
        dsimp only
        rw [if_neg hlen, hclient]
        simp only [setRecv_setRecv]
      have hfound := (client.frameRestruct.call_spec cleanPool () buff).2.frames
        fun _ => Option.some_ne_none _
      have hcall := (client.frameRestruct.call_spec env.getBuff server.world buff).2
      have hqueued := hcall.queued
      have hcount := hcall.frameCount
      rw [List.nil_append] at hqueued
      rw [Int.zero_add] at hcount
      rw [hfound] at hread
      dsimp only
      rw [addFrameProcTasks_eq, hcall.pool, hqueued, hcount]
      dsimp only
      rw [hopen]
      refine .head (a := .recv w none true (.data buff)) hread ((steps_saving fd conn _ _ 0).trans ?_)
      rw [Nat.zero_add]
      exact steps_counting _ fd conn _

theorem steps_readEnds (server : Server ω) (fd : Nat) (r : ReadResult)
    (hends : server.kernel.fds fd = none ∨ r = .failed) :
    (relays env listenSocket w₀).Steps (s.setRecv w server (some (.reading fd))) (s.setRecv w server none) := by
  refine .single (a := .recv w none true r) ((recvStep_reading server fd r).trans (congrArg some ?_))
  unfold readOnce
  rw [setRecv_server]
  rcases hends with hclosed | rfl
  · rw [hclosed]
    simp only [setRecv_setRecv]
  · cases server.kernel.fds fd with
    | none => simp only [setRecv_setRecv]
    | some conn => simp only [setRecv_setRecv]

/-- The loop of `ProcessRecvData`. -/
theorem steps_processRecvData (hidle : s.Idle) (fd : Nat) (reads : List ReadResult) :
    ∀ server : Server ω,
      (relays env listenSocket w₀).Steps (s.setRecv w server (some (.reading fd)))
        (s.setRecv w (server.processRecvData env fd reads) none) := by
  induction reads with
  | nil =>
      intro server
      exact steps_readEnds server fd .failed (Or.inr rfl)
  | cons r reads ih =>
      intro server
      unfold processRecvData
      cases hopen : server.kernel.fds fd with
      | none => exact steps_readEnds server fd r (Or.inl hopen)
      | some conn =>
          cases r with
          | failed =>
              exact steps_readEnds server fd .failed (Or.inr rfl)
          | data buff =>
              dsimp only
              split
              · rename_i hlen
                have hstep : (s.setRecv w server (some (.reading fd))).recvStep env listenSocket w none true
                    (.data buff) = some (s.setRecv w (server.close fd) (some (.closed fd true))) := by
                  rw [recvStep_reading]
                  unfold readOnce
                  rw [setRecv_server, hopen]
                  dsimp only
                  rw [if_pos hlen, setRecv_setRecv]
                exact .head (a := .recv w none true (.data buff)) hstep (steps_eof hidle server fd)
              · rename_i hlen
                exact (steps_addRecvData server buff hopen hlen).trans (ih _)

/-- The accept branch after `accept`. -/
theorem steps_acceptClient (server : Server ω) (fd : Nat) (conn : Conn) (added : Bool) :
    (relays env listenSocket w₀).Steps (s.setRecv w server (some (.accepted fd conn)))
      (s.setRecv w (if added then (server.insertSocket fd conn).addClient fd conn
        else server.close fd) none) := by
  cases added with
  | false =>
      apply recvStep_setRecv false .failed
      rw [recvStep, setRecv_recv]
      rfl
  | true =>
      have hpoll : (relays env listenSocket w₀).Steps (s.setRecv w server (some (.accepted fd conn)))
          (s.setRecv w server (some (.polled fd conn))) := by
        apply recvStep_setRecv true .failed
        rw [recvStep, setRecv_recv]
        rfl
      have hinsert : (relays env listenSocket w₀).Steps
          (s.setRecv w server (some (.polled fd conn)))
          (s.setRecv w (server.insertSocket fd conn) (some (.inserted fd conn))) := by
        apply recvStep_setRecv true .failed
        rw [recvStep, setRecv_recv]
        rfl
      refine hpoll.trans (hinsert.trans ?_)
      apply recvStep_setRecv true .failed
      rw [recvStep, setRecv_recv]
      rfl

/-- `CSocketRecvTask::ProcessRecvEnts`; an accept notes the number of its connection. -/
theorem steps_processRecvEnts {ev : EpollEvent} {rest : List EpollEvent} {answers : Answers}
    (hidle : s.Idle) (htasks : s.server.recvTasks w = ev :: rest)
    (hmay : ev.fd = listenSocket → (s.server.popRecv w).mayAccept listenSocket answers.connfd = true) :
    ∃ number, (relays env listenSocket w₀).Steps s
      { s with
        server := (s.server.popRecv w).processRecvEnts env listenSocket ev answers
        number } := by
  have htake : s.recvStep env listenSocket w answers.connfd true .failed =
      s.takeEvent listenSocket w ev answers.connfd := by
    rw [recvStep, hidle.recv w]
    dsimp only
    rw [htasks]
    rfl
  unfold takeEvent at htake
  unfold processRecvEnts
  split
  · rename_i hlisten
    rw [if_pos hlisten] at htake
    have hfree := hmay hlisten
    unfold acceptClient
    cases hconnfd : answers.connfd with
    | none =>
        rw [hconnfd] at htake
        refine ⟨s.number, ?_⟩
        rw [← setRecv_idle (hidle.recv w)]
        exact .single (a := .recv w none true .failed) htake
    | some fd =>
        rw [hconnfd] at htake hfree
        simp only [mayAccept, Option.all_some, decide_eq_true_eq] at hfree
        dsimp only at htake
        rw [if_pos hfree] at htake
        let s₁ : Relay ω :=
          { s with number := Function.update s.number (s.server.popRecv w).kernel.accepted fd }
        have hidle₁ : s₁.recv w = none := hidle.recv w
        refine ⟨s₁.number, ?_⟩
        change (relays env listenSocket w₀).Steps s { s₁ with server := _ }
        rw [← setRecv_idle hidle₁]
        let server : Server ω :=
          { s.server.popRecv w with kernel := (s.server.popRecv w).kernel.accept fd }
        have haccept : (relays env listenSocket w₀).Steps
            (s₁.setRecv w server (some (.accepted fd (s.server.popRecv w).kernel.accepted))) _ :=
          steps_acceptClient server fd (s.server.popRecv w).kernel.accepted answers.added
        exact .head (a := .recv w (some fd) true .failed) htake haccept
  · rename_i hlisten
    rw [if_neg hlisten] at htake
    refine ⟨s.number, ?_⟩
    rw [← setRecv_idle (hidle.recv w)]
    split
    · rename_i hin
      rw [if_pos hin] at htake
      exact .head (a := .recv w answers.connfd true .failed) htake
        (steps_processRecvData hidle ev.fd answers.reads _)
    · rename_i hin
      rw [if_neg hin] at htake
      split
      · rename_i hout
        rw [if_pos hout] at htake
        exact .single (a := .recv w answers.connfd true .failed) htake
      · rename_i hout
        rw [if_neg hout] at htake
        exact .head (a := .recv w answers.connfd true .failed) htake
          (steps_quitClient hidle _ ev.fd false)

/-! ## Sending -/

def setSend (s : Relay ω) (w : Fin 4) (server : Server ω) (stage : Option Nat) : Relay ω :=
  { s with server, send := Function.update s.send w stage }

theorem sendStep_setSend (server : Server ω) (sock : Nat) (r : SendResult) :
    (s.setSend w server (some sock)).sendStep env w r =
      match server.socketInfo[sock]? with
      | none => some (s.setSend w server none)
      | some info =>
          some (s.setSend w (server.sendOnce env sock info r).1
            (if (server.sendOnce env sock info r).2 then some sock else none)) := by
  have hstage : (s.setSend w server (some sock)).send w = some sock := Function.update_self _ _ _
  have hidem : ∀ stage, Function.update (s.setSend w server (some sock)).send w stage =
      Function.update s.send w stage := fun stage => Function.update_idem _ _ _
  unfold sendStep
  rw [hstage]
  simp only [hidem]
  rfl

/-- The send loop, as long as there are results. -/
theorem steps_sendLoop (sock : Nat) (results : List SendResult) :
    ∀ server : Server ω, ∃ stage : Option Nat, (stage = none ∨ stage = some sock) ∧
      (relays env listenSocket w₀).Steps (s.setSend w server (some sock))
        (s.setSend w (server.sendTask env sock results) stage) := by
  induction results with
  | nil =>
      intro server
      exact ⟨some sock, Or.inr rfl, .refl _⟩
  | cons r results ih =>
      intro server
      have hstep : (s.setSend w server (some sock)).sendStep env w r = _ :=
        sendStep_setSend server sock r
      unfold sendTask
      cases hinfo : server.socketInfo[sock]? with
      | none =>
          rw [hinfo] at hstep
          exact ⟨none, Or.inl rfl, .single (a := .send w r) hstep⟩
      | some info =>
          rw [hinfo] at hstep
          dsimp only at hstep ⊢
          generalize server.sendOnce env sock info r = after at hstep
          obtain ⟨server', again⟩ := after
          cases again with
          | false => exact ⟨none, Or.inl rfl, .single (a := .send w r) hstep⟩
          | true =>
              obtain ⟨stage, hstage, hrest⟩ := ih server'
              exact ⟨stage, hstage, .head (a := .send w r) hstep hrest⟩

/-- `CSocketSendTask::ProcessTask` -/
theorem steps_sendTask {sock : Nat} {rest : List Nat} (results : List SendResult)
    (hidle : s.send w = none) (htasks : s.server.sendTasks w = sock :: rest) :
    ∃ stage : Option Nat, (stage = none ∨ stage = some sock) ∧
      (relays env listenSocket w₀).Steps s
        (s.setSend w ((s.server.popSend w).sendTask env sock results) stage) := by
  have htake : s.sendStep env w .failed = some (s.setSend w (s.server.popSend w)
      (if (s.server.socketInfo[sock]?).isSome then some sock else none)) := by
    rw [sendStep, hidle]
    dsimp only
    rw [htasks]
    rfl
  cases hinfo : s.server.socketInfo[sock]? with
  | none =>
      rw [hinfo] at htake
      have hnothing : (s.server.popSend w).sendTask env sock results = s.server.popSend w := by
        cases results with
        | nil => rfl
        | cons r results =>
            have hinfo' : (s.server.popSend w).socketInfo[sock]? = none := hinfo
            rw [sendTask, hinfo']
      rw [hnothing]
      exact ⟨none, Or.inl rfl, .single (a := .send w .failed) htake⟩
  | some info =>
      rw [hinfo] at htake
      obtain ⟨stage, hstage, hrest⟩ := steps_sendLoop sock results (s.server.popSend w)
      exact ⟨stage, hstage, .head (a := .send w .failed) htake hrest⟩

end Relay

end CmdTran
