import CmdTran.Relay.Lemmas.Output

/-!
# The moves of a step

Under the guards every step of the relay is a run of moves, and with the guard for the iterators a run of moves
in order.
-/

namespace CmdTran

open Server

variable {ω : Type} {env : World ω} {listenSocket : Nat} {s s' : Relay ω} {inOrder : Prop}

/-! ## The invariant -/

/-- What needs no order. -/
structure View.Inv (v : View) : Prop where
  numbered : Numbered v
  sorted : Sorted v
  framed : Framed v
  staged : Staged v
  chained : Chained v

theorem View.Inv.move {v v' : View} (h : v.Inv) (hmove : Move inOrder v v') : v'.Inv where
  numbered := h.numbered.move hmove
  sorted := h.sorted.move hmove
  framed := h.framed.move h.numbered hmove
  staged := h.staged.move h.numbered hmove
  chained := h.chained.move h.numbered h.framed h.staged hmove

namespace Relay

theorem moves_of_eq {v v' : View} (h : v' = v) : Moves inOrder v v' := by rw [h]

theorem view_quitClient {a : RelayStep} {fd : Nat} (hquits : s.quits a = some fd)
    (hparsers : s.KeepsParsers a) : (s.quitClient fd).view = (s.view.forget fd).setPending fd none := by
  have hrecv : (fun w => (s.recv w).map (·.forget fd)) = s.recv := by
    funext w
    cases hstage : s.recv w with
    | none => rfl
    | some stage =>
        have hsaves := hparsers fd hquits w
        rw [hstage] at hsaves
        rw [Option.map_some]
        cases stage with
        | saving fd' => exact congrArg some (if_neg fun heq => hsaves (congrArg some heq))
        | _ => rfl
  simp only [view, quitClient, hrecv, pending_quitClient]
  rfl

/-! ## Recv workers -/

theorem moves_readOnce {w : Fin 4} {fd : Nat} {connfd : Option Nat} {added : Bool} {r : ReadResult}
    (hsorted : Sorted s.view) (hstage : s.recv w = some (.reading fd))
    (hreads : s.ReadsClients (.recv w connfd added r)) :
    Moves inOrder s.view (s.readOnce env w fd r).view := by
  have hfree : IsFree (s.view.recv w) := Or.inr (Or.inl ⟨fd, hstage⟩)
  unfold readOnce
  split
  · exact .single (.turn w none hfree (Or.inl rfl))
  · exact .single (.turn w none hfree (Or.inl rfl))
  · rename_i conn buff hopen
    split
    · exact .single (.close w fd true hfree)
    · rename_i hlen
      simp only [ReadsClients, hstage] at hreads
      have haccepting : ∀ w stage conn', s.recv w = some stage →
          stage.accepting ≠ some (fd, conn') := by
        intro w' stage conn' hw' haccept
        apply hreads (fun hnil => hlen (by rw [hnil]; rfl)) w'
        rw [hw', Option.bind_some, haccept]
        rfl
      dsimp only
      split
      · rename_i hclient
        have hpending : s.view.pending fd = none := congrArg (Option.map _) hclient
        refine .tail (.single (.missed fd conn buff.bytes hopen haccepting hpending)) ?_
        exact .turn w _ hfree (Or.inr ⟨fd, rfl, hsorted.recv w _ fd hstage rfl⟩)
      · rename_i client hclient
        have hpending : s.view.pending fd = some client.frameRestruct.state.pending :=
          congrArg (Option.map _) hclient
        have hfound := (client.frameRestruct.call_spec cleanPool () buff).2.frames
          fun _ => Option.some_ne_none _
        have hkept := (client.frameRestruct.call_spec env.getBuff s.server.world buff).2.pending
        let client' : ClientInfo := { client with
          frameRestruct := client.frameRestruct.next env.getBuff s.server.world buff }
        have hput := pending_put s.server fd client'
        have hrest : client'.frameRestruct.state.pending =
            restOf (client.frameRestruct.state.pending ++ buff.bytes) := hkept
        rw [hrest] at hput
        have hread : Move inOrder s.view _ :=
          .read w fd conn buff.bytes _ hstage hopen haccepting hpending
        have hview : Relay.view (s.setRecv w
              { s.server with
                log := s.server.log ++ [Event.received conn buff.bytes]
                clientMap := s.server.clientMap.insert fd client' }
              (some (.saving fd conn (framesOf (client.frameRestruct.state.pending ++ buff.bytes)) 0))) = _ :=
          congrArg (fun pending =>
            ({ (s.view.record (.received conn buff.bytes)).setRecv w
                (some (.saving fd conn (framesOf (client.frameRestruct.state.pending ++ buff.bytes)) 0)) with
              pending } : View)) hput
        rw [hfound]
        exact hview ▸ .single hread

theorem moves_saveOnce {w : Fin 4} {fd : Nat} {conn : Conn} {frame : List UInt8}
    {frames : List (List UInt8)} {count : Nat} (hframed : Framed s.view)
    (hstage : s.recv w = some (.saving fd conn (frame :: frames) count)) :
    Moves inOrder s.view (s.saveOnce env w fd conn frame frames count).view := by
  unfold saveOnce
  split
  · have hsave : Move inOrder s.view _ :=
      .save w fd conn frame frames count count [] hstage nofun (List.nil_sublist _)
    rw [List.append_nil, Function.update_eq_self] at hsave
    exact .single hsave
  · rename_i b world _
    have hform := (hframed.recv w fd conn _ count hstage).form frame List.mem_cons_self
    have hlen : frame.length ≤ memPoolBlockSize := by
      have hmax := hform.len_max
      simp only [frameLenMax, memPoolBlockSize] at hmax ⊢
      omega
    let task : CFrameProcTask := ⟨fd, b.put frame, frame.length, some conn⟩
    have hbytes : task.bytes = frame := by
      rw [CFrameProcTask.bytes, Int.toNat_natCast, b.take_put hlen]
    refine .single (.save w fd conn frame frames count (count + 1) [task] hstage ?_ ?_)
    · intro task' htask'
      rw [List.mem_singleton.mp htask']
      exact ⟨rfl, rfl⟩
    · rw [List.map_singleton, hbytes]

theorem moves_takeEvent {w : Fin 4} {ev : EpollEvent} {connfd : Option Nat} {added : Bool}
    {r : ReadResult} (hsorted : Sorted s.view) (hidle : s.recv w = none)
    (hhead : (s.server.recvTasks w).head? = some ev)
    (hnumbers : s.KeepsNumbers listenSocket (.recv w connfd added r))
    (h : s.takeEvent listenSocket w ev connfd = some s') : Moves inOrder s.view s'.view := by
  let s₁ : Relay ω := { s with server := s.server.popRecv w }
  have hdrop : Moves inOrder s.view s₁.view := .single (.drop w)
  have hfree : IsFree (s₁.view.recv w) := Or.inl hidle
  have hworker : workerOf ev.fd = w := Fin.ext (hsorted.events w ev (List.mem_of_mem_head? hhead))
  refine hdrop.trans ?_
  unfold takeEvent at h
  dsimp only at h
  split at h
  · rename_i hlisten
    split at h
    · cases h
      exact .single (.turn w none hfree (Or.inl rfl))
    · rename_i fd
      split at h
      · rename_i hfd
        cases h
        have hnone : ¬s.Outstanding fd := by
          apply hnumbers
          rw [accepts, if_pos ⟨hidle, by rw [hhead]; simpa using hlisten⟩]
          rfl
        simp only [Outstanding, not_or, not_exists] at hnone
        obtain ⟨hrecv, hframe, htasks, hchain⟩ := hnone
        refine .single (.accept (v := s₁.view) w fd hidle hfd.2 ?_ ?_ ?_ ?_)
        · intro w' stage hw' hstage
          apply hrecv w'
          rw [show s.recv w' = some stage from hw']
          simpa using hstage
        · intro w' task stage hw' hsock
          apply hframe w'
          rw [show s.frame w' = some (task, stage) from hw']
          simpa using hsock
        · intro w' task htask hsock
          exact htasks w' task ⟨htask, hsock⟩
        · change s.server.chain fd = []
          unfold Server.chain
          cases hinfo : s.server.socketInfo[fd]? with
          | none => rfl
          | some info =>
              rw [hinfo] at hchain
              simpa using hchain
      · cases h
  · split at h
    · cases h
      exact .single (.turn w _ hfree (Or.inr ⟨ev.fd, rfl, hworker⟩))
    · split at h
      · cases h
        have hview : (s.setRecv w ((s.server.popRecv w).writable ev.fd) none).view =
            (s₁.setRecv w s₁.server none).view :=
          view_of_same (same_writable s₁.server ev.fd) rfl rfl rfl
        rw [hview]
        exact .single (.turn w none hfree (Or.inl rfl))
      · cases h
        exact .single (.close w ev.fd false hfree)

theorem moves_recvStep {w : Fin 4} {connfd : Option Nat} {added : Bool} {r : ReadResult}
    (hinv : s.view.Inv) (hnumbers : s.KeepsNumbers listenSocket (.recv w connfd added r))
    (hreads : s.ReadsClients (.recv w connfd added r))
    (hparsers : s.KeepsParsers (.recv w connfd added r))
    (hentries : inOrder → s.KeepsEntries (.recv w connfd added r))
    (h : s.recvStep env listenSocket w connfd added r = some s') : Moves inOrder s.view s'.view := by
  unfold recvStep at h
  split at h
  · rename_i hidle
    obtain ⟨ev, hhead, h⟩ := Option.bind_eq_some_iff.mp h
    exact moves_takeEvent hinv.sorted hidle hhead hnumbers h
  · rename_i fd conn hstage
    split at h
    · cases h
      exact .single (.advance w _ (.polled fd conn) hstage rfl rfl)
    · cases h
      exact .single (.refuse w fd conn hstage)
  · rename_i fd conn hstage
    cases h
    have hview : (s.setRecv w (s.server.insertSocket fd conn) (some (.inserted fd conn))).view =
        (s.setRecv w s.server (some (.inserted fd conn))).view :=
      view_of_same (same_insertSocket s.server fd conn) rfl rfl rfl
    rw [hview]
    exact .single (.advance w _ (.inserted fd conn) hstage rfl rfl)
  · rename_i fd conn hstage
    cases h
    have hview : (s.setRecv w (s.server.addClient fd conn) none).view =
        (s.view.setPending fd (some ((s.view.pending fd).getD []))).setRecv w none := by
      simp only [view, setRecv, pending_addClient]
      rfl
    rw [hview]
    exact .single (.addClient w fd conn hstage)
  · rename_i fd hstage
    cases h
    exact moves_readOnce hinv.sorted hstage hreads
  · rename_i fd conn frame frames count hstage
    cases h
    exact moves_saveOnce hinv.framed hstage
  · rename_i fd conn count hstage
    cases h
    exact .single (.saved w fd conn count hstage)
  · cases h
  · rename_i fd count hstage
    cases h
    have hview : (s.setRecv w (s.server.increaseFrameCount env fd count).1 (some (.reading fd))).view =
        (s.setRecv w s.server (some (.reading fd))).view :=
      view_of_same (same_recounted (recounted_increase s.server fd count)) rfl rfl rfl
    rw [hview]
    exact .single (.turn w _ (Or.inr (Or.inr ⟨fd, count, hstage⟩))
      (Or.inr ⟨fd, rfl, hinv.sorted.recv w _ fd hstage rfl⟩))
  · rename_i fd removes hstage
    cases h
    have hquits : s.quits (.recv w connfd added r) = some fd := by
      simp only [quits, hstage]
    have hview : ((s.quitClient fd).setRecv w (s.quitClient fd).server
        (if removes then some (.quit fd) else none)).view =
          ((s.view.forget fd).setPending fd none).setRecv w (if removes then some (.quit fd) else none) :=
      congrArg (View.setRecv · w _) (view_quitClient hquits hparsers)
    rw [hview]
    exact .tail (.single (.forget fd fun hin => hentries hin fd hquits)) (.quit w fd removes hstage)
  · rename_i fd hstage
    cases h
    have hview : (s.setRecv w (s.server.removeSocket env fd) none).view =
        (s.view.setChain fd []).setRecv w none := by
      simp only [view, setRecv, chain_removeSocket]
      unfold removeSocket pending
      split <;> rfl
    rw [hview]
    exact .single (.remove w fd hstage)

/-! ## Frame workers -/

theorem view_sendData (env : World ω) (s : Relay ω) (sock : Nat) (buffer : List UInt8) (len : Int) (backfun : Bool)
    (source : Option Conn) (hbuffer : len ≤ memPoolBlockSize → len.toNat ≤ buffer.length) :
    Relay.view { s with server := (s.server.sendData env sock buffer len backfun source).1 } = s.view ∨
      ∃ node : MemNode Nat, node.unsent = buffer.take len.toNat ∧
        Relay.view { s with server := (s.server.sendData env sock buffer len backfun source).1 } =
          s.view.push sock source node := by
  rcases s.server.sendData_cases env sock buffer len backfun source hbuffer with
    hsame | ⟨world, info, sendTasks, node, hinfo, hnode, heq⟩
  · exact Or.inl (view_of_same hsame rfl rfl rfl)
  · right
    refine ⟨node, hnode, ?_⟩
    have hchain := chain_insert s.server sock (info.push node)
    have hold : s.server.chain sock = info.outputChain := by
      rw [Server.chain, hinfo]
      rfl
    rw [heq]
    simp only [view, View.push, View.record, View.setChain, hold]
    congr 1

/-- A worker goes on to a stage in which its task reaches nobody new. -/
theorem moves_pass {w : Fin 4} {task : CFrameProcTask} {stage : FrameStage} (stage' : FrameStage)
    (hstage : s.frame w = some (task, stage))
    (hreaches : inOrder → stage'.iter ≠ some .erased ∧ ∀ n, stage'.Reaches n → stage.Reaches n)
    (hclosing : stage' ≠ .closing)
    (hpicture : stage'.IsRelaying → stage.IsRelaying ∨ byteAt task.frame 3 = 0x10) :
    Moves inOrder s.view (s.view.setFrame w (some (task, stage'))) :=
  .single (.pass w task stage stage' hstage hreaches hclosing hpicture)

theorem moves_finishing {w : Fin 4} {task : CFrameProcTask} {stage : FrameStage}
    (hstage : s.frame w = some (task, stage)) :
    Moves inOrder s.view (s.view.setFrame w (some (task, .finishing))) :=
  moves_pass .finishing hstage (fun _ => ⟨nofun, nofun⟩) nofun nofun

theorem moves_beginning {w : Fin 4} {task : CFrameProcTask} {it : MapIter}
    (hstage : s.frame w = some (task, .found it)) (cameraId : Nat) :
    Moves inOrder s.view (s.view.setFrame w (some (task, .beginning cameraId))) :=
  moves_pass (.beginning cameraId) hstage (fun _ => ⟨nofun, fun _ _ => trivial⟩) nofun
    fun _ => Or.inl trivial

theorem moves_command {w : Fin 4} {task : CFrameProcTask} (hstage : s.frame w = some (task, .taken)) :
    Moves inOrder s.view (s.command w task).view := by
  unfold command
  split
  · split
    · exact moves_pass .rejected hstage (fun _ => ⟨nofun, nofun⟩) nofun nofun
    · rename_i server hclient
      have hview : (s.setFrame w server (some (task, .acking))).view =
          (s.setFrame w s.server (some (task, .acking))).view :=
        view_of_same (same_setClient hclient) rfl rfl rfl
      rw [hview]
      exact moves_pass .acking hstage (fun _ => ⟨nofun, nofun⟩) nofun nofun
  · split
    · have hview : (s.setFrame w (s.server.resetCameraId task.sock task.frame)
          (some (task, .finishing))).view = (s.setFrame w s.server (some (task, .finishing))).view :=
        view_of_same (same_resetCameraId _ _ _) rfl rfl rfl
      rw [hview]
      exact moves_finishing hstage
    · split
      · rename_i hpicture
        split
        · exact moves_finishing hstage
        · exact moves_pass (.found (.entry task.sock)) hstage (fun _ => ⟨nofun, fun _ _ => trivial⟩) nofun
            fun _ => Or.inr hpicture
      · exact moves_finishing hstage

theorem iterFrom_cases (server : Server ω) (next : Nat) :
    server.iterFrom next = .ended ∨ ∃ fd, server.iterFrom next = .entry fd ∧ next ≤ fd := by
  unfold iterFrom
  cases hclient : server.clientFrom next with
  | none => exact Or.inl rfl
  | some entry =>
      have hfound := List.find?_some hclient
      exact Or.inr ⟨entry.1, rfl, by simpa using hfound⟩

/-- `begin()` and `it++` come to the end or to an entry from `next` on. -/
theorem moves_iterFrom {w : Fin 4} {task : CFrameProcTask} {stage : FrameStage} (cameraId next : Nat)
    (hstage : s.frame w = some (task, stage)) (hrelaying : stage.IsRelaying)
    (hreaches : ∀ n, next ≤ n → stage.Reaches n) :
    Moves inOrder s.view
      (s.view.setFrame w (some (task, .relaying cameraId (s.server.iterFrom next)))) := by
  refine moves_pass (.relaying cameraId (s.server.iterFrom next)) hstage ?_ nofun
    fun _ => Or.inl hrelaying
  intro _
  rcases iterFrom_cases s.server next with hended | ⟨fd, hentry, hle⟩
  · rw [hended]
    exact ⟨nofun, nofun⟩
  · rw [hentry]
    exact ⟨nofun, fun n hn => hreaches n (Nat.le_trans hle hn)⟩

theorem moves_relayTo {w : Fin 4} {task : CFrameProcTask} {cameraId fd : Nat} (viewer : Bool)
    {it : MapIter} (hstage : s.frame w = some (task, .relaying cameraId it))
    (hit : inOrder → it = .entry fd) :
    Moves inOrder s.view (s.relayTo env w task cameraId fd viewer it).view := by
  have hpass : Moves inOrder s.view (s.view.setFrame w (some (task, .relayed cameraId it))) := by
    refine moves_pass (.relayed cameraId it) hstage ?_ nofun fun _ => Or.inl trivial
    intro hin
    rw [hit hin]
    exact ⟨nofun, fun n hn => Nat.le_of_lt hn⟩
  unfold relayTo
  split
  · have hbuffer : task.frameLen ≤ memPoolBlockSize →
        task.frameLen.toNat ≤ task.frame.toList.length := by
      intro hle
      rw [task.frame.length_eq]
      omega
    have hview : ∀ server : Server ω, (s.setFrame w server (some (task, .relayed cameraId it))).view =
        (Relay.view { s with server }).setFrame w (some (task, .relayed cameraId it)) :=
      fun _ => rfl
    rw [hview]
    rcases view_sendData env s fd task.frame.toList task.frameLen true task.conn hbuffer with
      hsame | ⟨node, hnode, hpush⟩
    · rw [hsame]
      exact hpass
    · rw [hpush]
      exact .single (.relay w task cameraId it fd node hstage hit hnode)
  · exact hpass

theorem moves_acking {w : Fin 4} {task : CFrameProcTask} (hstage : s.frame w = some (task, .acking)) :
    Moves inOrder s.view (s.setFrame w (s.server.sendData env task.sock loginAckFrame 5 false none).1
      (some (task, .finishing))).view := by
  let s₁ : Relay ω := { s with server := (s.server.sendData env task.sock loginAckFrame 5 false none).1 }
  have hpass : Moves inOrder s₁.view (s₁.view.setFrame w (some (task, .finishing))) :=
    moves_finishing (s := s₁) hstage
  refine Relation.ReflTransGen.trans ?_ hpass
  rcases view_sendData env s task.sock loginAckFrame 5 false none (fun _ => by decide) with
    hsame | ⟨node, hnode, hpush⟩
  · exact moves_of_eq hsame
  · have hform : WellFormed node.unsent := by
      rw [hnode]
      exact ⟨rfl, by decide, by decide, by decide, rfl⟩
    have hack : Moves inOrder s.view (s.view.push task.sock none node) := .single (.ack task.sock node hform)
    rw [← hpush] at hack
    exact hack

theorem moves_frameStep {w : Fin 4} (hparsers : s.KeepsParsers (.frame w))
    (hentries : inOrder → s.KeepsEntries (.frame w)) (h : s.frameStep env w = some s') :
    Moves inOrder s.view s'.view := by
  unfold frameStep at h
  split at h
  · rename_i hidle
    obtain ⟨task, hhead, rfl⟩ := Option.map_eq_some_iff.mp h
    obtain ⟨rest, htasks⟩ : ∃ rest, s.server.frameTasks w = task :: rest := by
      cases hq : s.server.frameTasks w with
      | nil => simp [hq] at hhead
      | cons t rest =>
          rw [hq] at hhead
          cases hhead
          exact ⟨rest, rfl⟩
    have hview : (s.setFrame w (s.server.popFrame w) (some (task, .taken))).view =
        { s.view.setFrame w (some (task, .taken)) with
          tasks := Function.update s.view.tasks w rest } := by
      simp only [view, setFrame, popFrame, htasks]
      rfl
    rw [hview]
    exact .single (.take w task rest hidle htasks)
  · rename_i task hstage
    cases h
    exact moves_command hstage
  · rename_i task hstage
    cases h
    exact moves_acking hstage
  · rename_i task hstage
    cases h
    have hquits : s.quits (.frame w) = some task.sock := by
      simp only [quits, hstage]
    have hview : ((s.quitClient task.sock).setFrame w (s.quitClient task.sock).server
        (some (task, .closing))).view =
          ((s.view.forget task.sock).setPending task.sock none).setFrame w (some (task, .closing)) :=
      congrArg (View.setFrame · w _) (view_quitClient hquits hparsers)
    have hstage' : (s.view.forget task.sock).frame w = some (task, .rejected) :=
      congrArg (Option.map _) hstage
    rw [hview]
    exact .tail (.single (.forget task.sock fun hin => hentries hin _ hquits)) (.reject w task hstage')
  · rename_i task hstage
    cases h
    exact .single (.shut w task hstage)
  · rename_i task fd hstage
    obtain ⟨phone, _, rfl⟩ := Option.map_eq_some_iff.mp h
    exact moves_beginning hstage phone.cameraId
  · rename_i task cameraId hstage
    cases h
    exact moves_iterFrom cameraId 0 hstage trivial fun _ _ => trivial
  · rename_i task cameraId fd hstage
    obtain ⟨client, _, rfl⟩ := Option.map_eq_some_iff.mp h
    exact moves_relayTo _ hstage fun _ => rfl
  · rename_i task cameraId hstage
    cases h
    exact moves_finishing hstage
  · rename_i task cameraId fd hstage
    cases h
    exact moves_iterFrom cameraId (fd + 1) hstage trivial fun _ hn => hn
  · rename_i task hstage
    cases h
    let server : Server ω := { s.server with world := env.freeBuff s.server.world task.frame }
    have hfree : Same s.server server := ⟨rfl, rfl, rfl, rfl, rfl, rfl, rfl⟩
    have hview : (s.setFrame w (server.decreaseFrameCount env task.sock).1 none).view =
        (s.setFrame w s.server none).view :=
      view_of_same (hfree.trans (same_recounted (recounted_decrease server task.sock))) rfl rfl rfl
    rw [hview]
    exact .single (.finish w task .finishing hstage)
  · cases h
  · cases h
  · cases h

theorem iter_of_frameAstray {w : Fin 4} {entry : ErasedEntry} (h : s.frameAstray env w entry = some s') :
    (s.frame w).bind (·.2.iter) = some .erased := by
  unfold frameAstray at h
  split at h
  · rename_i hstage
    rw [hstage]
    rfl
  · rename_i hstage
    rw [hstage]
    rfl
  · rename_i hstage
    rw [hstage]
    rfl
  · cases h

/-- A worker at an erased entry goes anywhere, which no order allows. -/
theorem moves_frameAstray {w : Fin 4} {entry : ErasedEntry} (hplaced : ¬inOrder)
    (h : s.frameAstray env w entry = some s') : Moves inOrder s.view s'.view := by
  have hnot {α : Prop} (hin : inOrder) : α := absurd hin hplaced
  unfold frameAstray at h
  split at h
  · rename_i task hstage
    cases h
    exact moves_pass _ hstage hnot nofun fun _ => Or.inl trivial
  · rename_i task cameraId hstage
    cases h
    exact moves_relayTo _ hstage hnot
  · rename_i task cameraId hstage
    cases h
    exact moves_pass _ hstage hnot nofun fun _ => Or.inl trivial
  · cases h

/-! ## Send workers -/

theorem moves_sendStep {w : Fin 4} {r : SendResult} (h : s.sendStep env w r = some s') :
    Moves inOrder s.view s'.view := by
  unfold sendStep at h
  split at h
  · obtain ⟨sock, _, rfl⟩ := Option.map_eq_some_iff.mp h
    exact .refl
  · split at h
    · cases h
      exact .refl
    · rename_i sock _ _ info hinfo
      cases h
      rcases sendOnce_cases env hinfo r with hsame |
        ⟨conn, node, front, rest, bytes, hopen, hchain, hbytes, hkernel, hnew, hpending, hevents, htasks,
          hlog⟩
      · exact moves_of_eq (view_of_same hsame rfl rfl rfl)
      · simp only [view, hkernel, hnew, hpending, hevents, htasks, hlog]
        exact .single (.send (v := s.view) sock conn node front rest bytes hopen hchain hbytes)

theorem moves_of_step {a : RelayStep} (hinv : s.view.Inv) (hnumbers : s.KeepsNumbers listenSocket a)
    (hreads : s.ReadsClients a) (hparsers : s.KeepsParsers a)
    (hentries : inOrder → s.KeepsEntries a ∧ ∀ w, (s.frame w).bind (·.2.iter) ≠ some .erased)
    (h : s.step env listenSocket a = some s') : Moves inOrder s.view s'.view := by
  have hkeeps (hin : inOrder) : s.KeepsEntries a := (hentries hin).1
  cases a with
  | deliver ev =>
      cases h
      exact .single (.deliver ev)
  | recv w connfd added r => exact moves_recvStep hinv hnumbers hreads hparsers hkeeps h
  | frame w => exact moves_frameStep hparsers hkeeps h
  | send w r => exact moves_sendStep h
  | recvAstray w frame =>
      simp only [step, recvAstray] at h
      split at h
      · rename_i fd count hstage
        exact absurd hstage (hinv.staged.live w fd count)
      · rename_i fd count _ _ hstage
        exact absurd hstage (hinv.staged.live w fd count)
      · cases h
  | frameAstray w entry =>
      exact moves_frameAstray (fun hin => (hentries hin).2 w (iter_of_frameAstray h)) h

end Relay

end CmdTran
