import Mathlib.Logic.Relation
import CmdTran.Output.Lemmas.Round
import CmdTran.Relay.Lemmas.View

/-!
# What a step can do

Every step of the relay is a few moves on its view, each with what is known when it happens. What is known of
the iterators of `PicDataRecv` only holds as long as none of them is at an entry that is erased, in order.
-/

namespace CmdTran

open Server

variable {ω : Type}

/-! ## Parts of a view -/

namespace View

def setRecv (v : View) (w : Fin 4) (stage : Option RecvStage) : View :=
  { v with recv := Function.update v.recv w stage }

def setFrame (v : View) (w : Fin 4) (stage : Option (CFrameProcTask × FrameStage)) : View :=
  { v with frame := Function.update v.frame w stage }

/-- The iterators after the erase of an entry. -/
def forget (v : View) (fd : Nat) : View :=
  { v with frame := fun w => (v.frame w).map fun p => (p.1, p.2.forget fd) }

def close (v : View) (fd : Nat) : View := { v with fds := Function.update v.fds fd none }

def setPending (v : View) (fd : Nat) (bytes : Option (List UInt8)) : View :=
  { v with pending := Function.update v.pending fd bytes }

def setChain (v : View) (fd : Nat) (chain : List (MemNode Nat)) : View :=
  { v with chain := Function.update v.chain fd chain }

def record (v : View) (event : Event) : View := { v with log := v.log ++ [event] }

def push (v : View) (fd : Nat) (source : Option Conn) (node : MemNode Nat) : View :=
  (v.setChain fd (v.chain fd ++ [node])).record (.queued (v.fds fd) source node.unsent)

end View

def CFrameProcTask.bytes (task : CFrameProcTask) : List UInt8 :=
  task.frame.toList.take task.frameLen.toNat

/-- The task may still send its frame to a client at the descriptor. -/
def FrameStage.Reaches : FrameStage → Nat → Prop
  | taken, _ | found _, _ | beginning _, _ => True
  | relaying _ (.entry fd), n => fd ≤ n
  | relayed _ (.entry fd), n => fd < n
  | _, _ => False

def FrameStage.IsRelaying : FrameStage → Prop
  | found _ | beginning _ | relaying _ _ | relayed _ _ => True
  | _ => False

namespace FrameStage

variable {stage : FrameStage} {fd : Nat}

theorem isRelaying_of_forget (h : (stage.forget fd).IsRelaying) : stage.IsRelaying := by
  cases stage with
  | found | beginning | relaying | relayed => trivial
  | _ => cases h

theorem eq_closing_of_forget (h : stage.forget fd = closing) : stage = closing := by
  cases stage with
  | closing => rfl
  | _ => cases h

/-- The stage does not change when its iterator is somewhere else. -/
theorem forget_eq (h : stage.iter ≠ some (.entry fd)) : stage.forget fd = stage := by
  have hit (it : MapIter) (hne : it ≠ .entry fd) : it.forget fd = it := by
    cases it with
    | entry fd' => exact if_neg fun heq => hne (congrArg MapIter.entry heq)
    | _ => rfl
  cases stage with
  | found it => exact congrArg found (hit it fun heq => h (congrArg some heq))
  | relaying cameraId it => exact congrArg (relaying cameraId) (hit it fun heq => h (congrArg some heq))
  | relayed cameraId it => exact congrArg (relayed cameraId) (hit it fun heq => h (congrArg some heq))
  | _ => rfl

end FrameStage

/-- The worker has not changed anything yet that it has to go on with. -/
def IsFree (stage : Option RecvStage) : Prop :=
  stage = none ∨ (∃ fd, stage = some (.reading fd)) ∨ ∃ fd count, stage = some (.counting fd count)

/-! ## Moves -/

inductive Move (inOrder : Prop) (v : View) : View → Prop where
  | deliver (ev : EpollEvent) : Move inOrder v { v with events := addTask v.events ev.fd ev }
  | drop (w : Fin 4) :
      Move inOrder v { v with events := Function.update v.events w (v.events w).tail }
  | accept (w : Fin 4) (fd : Nat) (hidle : v.recv w = none) (hfree : v.fds fd = none)
      (hrecv : ∀ w' stage, v.recv w' = some stage → stage.fd ≠ fd)
      (hframe : ∀ w' task stage, v.frame w' = some (task, stage) → task.sock ≠ fd)
      (htasks : ∀ w' : Fin 4, ∀ task ∈ v.tasks w', task.sock ≠ fd) (hchain : v.chain fd = []) :
      Move inOrder v { v with
        fds := Function.update v.fds fd (some v.accepted)
        accepted := v.accepted + 1
        number := Function.update v.number v.accepted fd
        recv := Function.update v.recv w (some (.accepted fd v.accepted)) }
  | advance (w : Fin 4) (stage stage' : RecvStage) (hstage : v.recv w = some stage)
      (haccepting : stage.accepting.isSome) (hsame : stage'.accepting = stage.accepting) :
      Move inOrder v (v.setRecv w (some stage'))
  | refuse (w : Fin 4) (fd : Nat) (conn : Conn) (hstage : v.recv w = some (.accepted fd conn)) :
      Move inOrder v ((v.close fd).setRecv w none)
  | addClient (w : Fin 4) (fd : Nat) (conn : Conn) (hstage : v.recv w = some (.inserted fd conn)) :
      Move inOrder v ((v.setPending fd (some ((v.pending fd).getD []))).setRecv w none)
  | turn (w : Fin 4) (stage : Option RecvStage) (hfree : IsFree (v.recv w))
      (hstage : stage = none ∨ ∃ fd, stage = some (.reading fd) ∧ workerOf fd = w) :
      Move inOrder v (v.setRecv w stage)
  | read (w : Fin 4) (fd : Nat) (conn : Conn) (bytes p : List UInt8)
      (hstage : v.recv w = some (.reading fd)) (hopen : v.fds fd = some conn)
      (haccepting : ∀ w stage conn, v.recv w = some stage → stage.accepting ≠ some (fd, conn))
      (hpending : v.pending fd = some p) :
      Move inOrder v (((v.setPending fd (some (restOf (p ++ bytes)))).record (.received conn bytes)).setRecv w
        (some (.saving fd conn (framesOf (p ++ bytes)) 0)))
  | missed (fd : Nat) (conn : Conn) (bytes : List UInt8) (hopen : v.fds fd = some conn)
      (haccepting : ∀ w stage conn, v.recv w = some stage → stage.accepting ≠ some (fd, conn))
      (hpending : v.pending fd = none) : Move inOrder v (v.record (.received conn bytes))
  | save (w : Fin 4) (fd : Nat) (conn : Conn) (frame : List UInt8) (frames : List (List UInt8))
      (count count' : Nat) (saved : List CFrameProcTask)
      (hstage : v.recv w = some (.saving fd conn (frame :: frames) count))
      (hsaved : ∀ task ∈ saved, task.sock = fd ∧ task.conn = some conn)
      (hbytes : (saved.map CFrameProcTask.bytes).Sublist [frame]) :
      Move inOrder v { v.setRecv w (some (.saving fd conn frames count')) with
        tasks := Function.update v.tasks (worker fd) (v.tasks (worker fd) ++ saved) }
  | saved (w : Fin 4) (fd : Nat) (conn : Conn) (count : Nat)
      (hstage : v.recv w = some (.saving fd conn [] count)) :
      Move inOrder v (v.setRecv w (some (.counting fd count)))
  | close (w : Fin 4) (fd : Nat) (removes : Bool) (hfree : IsFree (v.recv w)) :
      Move inOrder v ((v.close fd).setRecv w (some (.closed fd removes)))
  | forget (fd : Nat) (hiter : inOrder → ∀ w, (v.frame w).bind (·.2.iter) ≠ some (.entry fd)) :
      Move inOrder v (v.forget fd)
  | quit (w : Fin 4) (fd : Nat) (removes : Bool) (hstage : v.recv w = some (.closed fd removes)) :
      Move inOrder v ((v.setPending fd none).setRecv w (if removes then some (.quit fd) else none))
  | remove (w : Fin 4) (fd : Nat) (hstage : v.recv w = some (.quit fd)) :
      Move inOrder v ((v.setChain fd []).setRecv w none)
  | take (w : Fin 4) (task : CFrameProcTask) (rest : List CFrameProcTask) (hidle : v.frame w = none)
      (htasks : v.tasks w = task :: rest) :
      Move inOrder v { v.setFrame w (some (task, .taken)) with tasks := Function.update v.tasks w rest }
  | pass (w : Fin 4) (task : CFrameProcTask) (stage stage' : FrameStage)
      (hstage : v.frame w = some (task, stage))
      (hreaches : inOrder → stage'.iter ≠ some .erased ∧ ∀ n, stage'.Reaches n → stage.Reaches n)
      (hclosing : stage' ≠ .closing)
      (hpicture : stage'.IsRelaying → stage.IsRelaying ∨ byteAt task.frame 3 = 0x10) :
      Move inOrder v (v.setFrame w (some (task, stage')))
  | finish (w : Fin 4) (task : CFrameProcTask) (stage : FrameStage)
      (hstage : v.frame w = some (task, stage)) : Move inOrder v (v.setFrame w none)
  | ack (fd : Nat) (node : MemNode Nat) (hform : WellFormed node.unsent) :
      Move inOrder v (v.push fd none node)
  | relay (w : Fin 4) (task : CFrameProcTask) (cameraId : Nat) (it : MapIter) (fd : Nat)
      (node : MemNode Nat) (hstage : v.frame w = some (task, .relaying cameraId it))
      (hit : inOrder → it = .entry fd) (hnode : node.unsent = task.bytes) :
      Move inOrder v ((v.push fd task.conn node).setFrame w (some (task, .relayed cameraId it)))
  | reject (w : Fin 4) (task : CFrameProcTask) (hstage : v.frame w = some (task, .rejected)) :
      Move inOrder v ((v.setPending task.sock none).setFrame w (some (task, .closing)))
  | shut (w : Fin 4) (task : CFrameProcTask) (hstage : v.frame w = some (task, .closing)) :
      Move inOrder v ((v.close task.sock).setFrame w (some (task, .finishing)))
  | send (fd : Nat) (conn : Conn) (node : MemNode Nat) (front rest : List (MemNode Nat))
      (bytes : List UInt8) (hopen : v.fds fd = some conn) (hchain : v.chain fd = node :: rest)
      (hbytes : node.unsent = bytes ++ front.flatMap MemNode.unsent) :
      Move inOrder v ((v.setChain fd (front ++ rest)).record (.sent conn node.tag bytes))

abbrev Moves (inOrder : Prop) : View → View → Prop := Relation.ReflTransGen (Move inOrder)

/-! ## What the functions of the server do to the view -/

namespace Server

variable (env : World ω) {s : Server ω}

theorem pending_quitClient (s : Server ω) (fd : Nat) :
    (s.quitClient fd).pending = Function.update s.pending fd none := by
  funext k
  simp only [pending, get_quitClient, Function.update_apply, eq_comm]
  split
  · rfl
  · rfl

theorem pending_addClient (s : Server ω) (fd : Nat) (conn : Conn) :
    (s.addClient fd conn).pending = Function.update s.pending fd (some ((s.pending fd).getD [])) := by
  funext k
  simp only [pending, get_addClient, Function.update_apply]
  by_cases h : k = fd
  · subst h
    rw [if_pos rfl, if_pos rfl]
    cases s.clientMap[k]? with
    | none => rfl
    | some client => rfl
  · rw [if_neg h, if_neg (Ne.symm h)]

theorem pending_put (s : Server ω) (fd : Nat) (client : ClientInfo) :
    { s with clientMap := s.clientMap.insert fd client }.pending =
      Function.update s.pending fd (some client.frameRestruct.state.pending) := by
  funext k
  simp only [pending, get_insert, Function.update_apply, eq_comm]
  split
  · rfl
  · rfl

theorem chain_removeSocket (s : Server ω) (fd : Nat) :
    (s.removeSocket env fd).chain = Function.update s.chain fd [] := by
  funext k
  simp only [chain, get_removeSocket, Function.update_apply, eq_comm]
  split
  · rfl
  · rfl

theorem chain_insert (s : Server ω) (fd : Nat) (info : Socket) :
    { s with socketInfo := s.socketInfo.insert fd info }.chain =
      Function.update s.chain fd info.outputChain := by
  funext k
  simp only [chain, get_insert, Function.update_apply, eq_comm]
  split
  · rfl
  · rfl

/-- What `SendData` does: nothing that shows, or a node with the bytes is pushed. -/
theorem sendData_cases (s : Server ω) (sock : Nat) (buffer : List UInt8) (len : Int) (backfun : Bool)
    (source : Option Conn) (hbuffer : len ≤ memPoolBlockSize → len.toNat ≤ buffer.length) :
    Same s (s.sendData env sock buffer len backfun source).1 ∨
      ∃ (world : ω) (info : Socket) (sendTasks : Nat → List Nat) (node : MemNode Nat),
        s.socketInfo[sock]? = some info ∧ node.unsent = buffer.take len.toNat ∧
        (s.sendData env sock buffer len backfun source).1 =
          { s with
            world
            sendTasks
            socketInfo := s.socketInfo.insert sock (info.push node)
            log := s.log ++ [.queued (s.kernel.fds sock) source node.unsent] } := by
  unfold sendData
  split
  · exact Or.inl (Same.refl s)
  · rename_i hlen
    split
    · exact Or.inl ⟨rfl, rfl, rfl, rfl, rfl, rfl, rfl⟩
    · rename_i buf world _
      split
      · exact Or.inl ⟨rfl, rfl, rfl, rfl, rfl, rfl, rfl⟩
      · rename_i info hinfo
        right
        have hsize : (buffer.take len.toNat).length = len.toNat := by
          rw [List.length_take]
          exact Nat.min_eq_left (hbuffer (by omega))
        have hput := buf.take_put (by omega : (buffer.take len.toNat).length ≤ memPoolBlockSize)
        rw [hsize] at hput
        let node : MemNode Nat :=
          .new (buf.put (buffer.take len.toNat)) len.toNat backfun s.kernel.accepted
        dsimp only
        split
        · exact ⟨world, info, _, node, hinfo, hput, rfl⟩
        · exact ⟨world, info, s.sendTasks, node, hinfo, hput, rfl⟩

theorem addFrameProcTasks_eq (s : Server ω) (sock : Nat) (queued : List (Block × Int)) :
    queued.foldl (fun s t => s.addFrameProcTask sock t.1 t.2) s =
      { s with
        frameTasks := Function.update s.frameTasks (worker sock)
          (s.frameTasks (worker sock) ++
            queued.map fun t => ⟨sock, t.1, t.2, s.kernel.fds sock⟩) } := by
  induction queued generalizing s with
  | nil => simp
  | cons t queued ih =>
      rw [List.foldl_cons, ih]
      simp [addFrameProcTask, addTask]

/-- A `send` that took bytes was on an open descriptor, and what it took is in the log. -/
theorem sentBytes_of_pos {s : Server ω} {sock : Nat} {node : MemNode Nat} {r : SendResult}
    (hpos : 0 < s.sendRet sock node r) :
    ∃ conn, s.kernel.fds sock = some conn ∧ s.sentBytes sock node (s.sendRet sock node r) =
      [.sent conn node.tag (node.unsent.take (s.sendRet sock node r).toNat)] := by
  cases hopen : s.kernel.fds sock with
  | none =>
      rw [sendRet, hopen] at hpos
      cases hpos
  | some conn =>
      refine ⟨conn, rfl, ?_⟩
      rw [sentBytes, hopen]
      exact if_pos hpos

theorem sentBytes_of_not_pos {sock : Nat} {node : MemNode Nat} {ret : Int} (hno : ¬0 < ret) :
    s.sentBytes sock node ret = [] := by
  unfold sentBytes
  split
  · exact if_neg hno
  · rfl

theorem sendRet_le (sock : Nat) (node : MemNode Nat) (r : SendResult) :
    s.sendRet sock node r < 0 ∨ s.sendRet sock node r ≤ node.rest := by
  unfold sendRet
  split
  · exact Or.inl (Int.negSucc_lt_zero 0)
  · exact r.ret_le node

/-- What one round of the send loop does: nothing that shows, or some bytes of the first node go. -/
theorem sendOnce_cases {sock : Nat} {info : Socket} (hinfo : s.socketInfo[sock]? = some info)
    (r : SendResult) :
    Same s (s.sendOnce env sock info r).1 ∨
      ∃ (conn : Conn) (node : MemNode Nat) (front rest : List (MemNode Nat)) (bytes : List UInt8),
        s.kernel.fds sock = some conn ∧ s.chain sock = node :: rest ∧
        node.unsent = bytes ++ front.flatMap MemNode.unsent ∧
        (s.sendOnce env sock info r).1.kernel = s.kernel ∧
        (s.sendOnce env sock info r).1.chain = Function.update s.chain sock (front ++ rest) ∧
        (s.sendOnce env sock info r).1.pending = s.pending ∧
        (s.sendOnce env sock info r).1.recvTasks = s.recvTasks ∧
        (s.sendOnce env sock info r).1.frameTasks = s.frameTasks ∧
        (s.sendOnce env sock info r).1.log = s.log ++ [.sent conn node.tag bytes] := by
  unfold sendOnce
  split
  · exact Or.inl (Same.refl s)
  · rename_i node rest hchain
    have hold : s.chain sock = node :: rest := by
      rw [chain, hinfo]
      exact hchain
    have hround := afterSend_round hchain (s.sendRet_le sock node r)
    dsimp only
    generalize hafter : afterSend info (s.sendRet sock node r) = after at hround
    cases hround with
    | nothing hno again =>
        left
        rw [sentBytes_of_not_pos (Int.not_lt.mpr hno), List.append_nil]
        exact same_socket info hinfo rfl
    | part hpos hlt =>
        right
        obtain ⟨conn, hopen, hsent⟩ := sentBytes_of_pos hpos
        refine ⟨conn, node, [{ node with begin := node.begin + (s.sendRet sock node r).toNat }], rest,
          node.unsent.take (s.sendRet sock node r).toNat, hopen, hold, ?_, rfl, chain_insert _ _ _, rfl,
          rfl, rfl, congrArg (s.log ++ ·) hsent⟩
        rw [List.flatMap_singleton, node.unsent_begin, List.take_append_drop]
    | whole hpos heq =>
        right
        obtain ⟨conn, hopen, hsent⟩ := sentBytes_of_pos hpos
        rw [heq, node.take_unsent_rest] at hsent
        refine ⟨conn, node, [], rest, node.unsent, hopen, hold, (List.append_nil _).symm, rfl,
          chain_insert _ _ _, rfl, rfl, rfl, ?_⟩
        rw [heq]
        exact congrArg (s.log ++ ·) hsent

end Server

end CmdTran
