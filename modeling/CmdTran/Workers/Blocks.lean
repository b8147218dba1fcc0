import CmdTran.Lib.Tables
import CmdTran.Workers.Basic

/-!
# Every block is accounted for

The blocks of `RecvFrameMP` that are out are those of the queued frames, and the blocks of `SendDataMem` that
are out are those in the chains of `m_SocketInfo`: no handler loses one or gives one back twice, whatever
is received, refused, cut off or sent in part, and whatever the pools and the kernel answer. This is as long as
the send loop still finds the address of the block in the node that it has deleted.
-/

namespace CmdTran

open Server

variable {ω : Type}

/-! ## Counting -/

/-- `frames` and `buffers` count the blocks of the two pools that are out. -/
structure Counts (env : World ω) (frames buffers : ω → Int) : Prop where
  getBuff : ∀ w, frames (env.getBuff w).2 = frames w + (env.getBuff w).1.toList.length ∧
    buffers (env.getBuff w).2 = buffers w
  freeBuff : ∀ w b, frames (env.freeBuff w b) = frames w - 1 ∧ buffers (env.freeBuff w b) = buffers w
  getBlock : ∀ w, frames (env.getBlock w).2 = frames w ∧
    buffers (env.getBlock w).2 = buffers w + (env.getBlock w).1.toList.length
  freeBlock : ∀ w b, frames (env.freeBlock w b) = frames w ∧ buffers (env.freeBlock w b) = buffers w - 1
  epollCtlMod : ∀ w, frames (env.epollCtlMod w).2 = frames w ∧ buffers (env.epollCtlMod w).2 = buffers w
  /-- The memory of a deleted node has not changed. -/
  freeSent : env.freeSent = env.freeBlock

namespace Server

/-- The frames that are queued. -/
def queuedFrames (s : Server ω) : Nat := ∑ w ∈ Finset.range 4, (s.frameTasks w).length

/-- The buffers in the chains of all sockets. -/
def chained (s : Server ω) : Nat := Table.total (fun info : Socket => info.outputChain.length) s.socketInfo

variable (frames buffers : ω → Int)

/-- The blocks that are out and not where they should be. -/
def strayFrames (s : Server ω) : Int := frames s.world - s.queuedFrames

def strayBuffers (s : Server ω) : Int := buffers s.world - s.chained

/-- Nothing has gone astray between the two states; there are no more than four workers. -/
structure Kept (s s' : Server ω) : Prop where
  frames : s'.strayFrames frames = s.strayFrames frames
  buffers : s'.strayBuffers buffers = s.strayBuffers buffers
  others : ∀ w, 4 ≤ w → s'.frameTasks w = s.frameTasks w

variable {frames buffers} {s s' s'' : Server ω}

theorem Kept.refl (s : Server ω) : Kept frames buffers s s := ⟨rfl, rfl, fun _ _ => rfl⟩

theorem Kept.trans (h : Kept frames buffers s s') (h' : Kept frames buffers s' s'') :
    Kept frames buffers s s'' :=
  ⟨h'.frames.trans h.frames, h'.buffers.trans h.buffers,
    fun w hw => (h'.others w hw).trans (h.others w hw)⟩

theorem Kept.foldl {α : Type} {f : Server ω → α → Server ω} (hf : ∀ s a, Kept frames buffers s (f s a))
    (s : Server ω) (l : List α) : Kept frames buffers s (l.foldl f s) := by
  induction l generalizing s with
  | nil => exact Kept.refl s
  | cons a l ih => exact (hf s a).trans (ih (f s a))

/-- Neither the pools nor what holds their blocks has changed. -/
theorem Kept.of_eq (hframes : frames s'.world = frames s.world) (hbuffers : buffers s'.world = buffers s.world)
    (htasks : s'.frameTasks = s.frameTasks) (hsockets : s'.socketInfo = s.socketInfo) :
    Kept frames buffers s s' := by
  refine ⟨?_, ?_, fun w _ => congrFun htasks w⟩
  · rw [strayFrames, strayFrames, queuedFrames, queuedFrames, hframes, htasks]
  · rw [strayBuffers, strayBuffers, chained, chained, hbuffers, hsockets]

/-! ## The tables -/

/-- A chain has changed; what it has more or less has come from or gone to the pool. -/
theorem kept_socket {sock : Nat} {info : Socket} (info' : Socket) (h : s.socketInfo[sock]? = some info)
    (hsockets : s'.socketInfo = s.socketInfo.insert sock info') (htasks : s'.frameTasks = s.frameTasks)
    (hframes : frames s'.world = frames s.world)
    (hbuffers : buffers s'.world - info'.outputChain.length = buffers s.world - info.outputChain.length) :
    Kept frames buffers s s' := by
  have hothers : ∀ k, k ≠ sock → s'.socketInfo[k]? = s.socketInfo[k]? := by
    intro k hk
    rw [hsockets, get_insert, if_neg (Ne.symm hk)]
  have htotal := Table.total_congr (fun info : Socket => info.outputChain.length) hothers
  rw [Table.valueAt_of_some _ h, Table.valueAt_of_some (t := s'.socketInfo) (v := info') _ (by
    rw [hsockets, get_insert, if_pos rfl])] at htotal
  refine ⟨?_, ?_, fun w _ => congrFun htasks w⟩
  · rw [strayFrames, strayFrames, queuedFrames, queuedFrames, hframes, htasks]
  · rw [strayBuffers, strayBuffers, chained, chained]
    omega

theorem kept_insertSocket (s : Server ω) (sock : Nat) (conn : Conn) :
    Kept frames buffers s (s.insertSocket sock conn) := by
  have hothers : ∀ k, k ≠ sock → (s.insertSocket sock conn).socketInfo[k]? = s.socketInfo[k]? := by
    intro k hk
    rw [get_insertSocket, if_neg (Ne.symm hk)]
  have htotal := Table.total_congr (fun info : Socket => info.outputChain.length) hothers
  have hsame : Table.valueAt (fun info : Socket => info.outputChain.length)
      (s.insertSocket sock conn).socketInfo sock =
        Table.valueAt (fun info : Socket => info.outputChain.length) s.socketInfo sock := by
    rw [Table.valueAt, get_insertSocket, if_pos rfl, Table.valueAt]
    cases s.socketInfo[sock]? <;> rfl
  refine ⟨rfl, ?_, fun _ _ => rfl⟩
  rw [strayBuffers, strayBuffers, chained, chained]
  change buffers s.world - _ = _
  omega

variable {env : World ω}

theorem kept_removeSocket (henv : Counts env frames buffers) (s : Server ω) (sock : Nat) :
    Kept frames buffers s (s.removeSocket env sock) := by
  unfold removeSocket
  split
  · exact Kept.refl s
  · rename_i info hinfo
    have hfreed (chain : List (MemNode Nat)) (w : ω) :
        frames (chain.foldl (fun w node => env.freeBlock w node.pBuffer) w) = frames w ∧
          buffers (chain.foldl (fun w node => env.freeBlock w node.pBuffer) w) = buffers w - chain.length := by
      induction chain generalizing w with
      | nil => simp
      | cons node chain ih =>
          have hone := henv.freeBlock w node.pBuffer
          have hrest := ih (env.freeBlock w node.pBuffer)
          rw [List.foldl_cons, List.length_cons]
          omega
    have hothers : ∀ k, k ≠ sock → (s.socketInfo.erase sock)[k]? = s.socketInfo[k]? := by
      intro k hk
      rw [get_erase, if_neg (Ne.symm hk)]
    have htotal := Table.total_congr (fun info : Socket => info.outputChain.length) hothers
    rw [Table.valueAt_of_some _ hinfo, Table.valueAt_of_none (t := s.socketInfo.erase sock) _ (by
      rw [get_erase, if_pos rfl])] at htotal
    have hchain := hfreed info.outputChain s.world
    refine ⟨?_, ?_, fun _ _ => rfl⟩
    · simp only [strayFrames, queuedFrames, hchain.1]
    · simp only [strayBuffers, chained, hchain.2]
      omega

/-! ## `SendData` -/

theorem kept_sendData (henv : Counts env frames buffers) (s : Server ω) (sock : Nat) (buffer : List UInt8)
    (len : Int) (backfun : Bool) (source : Option Conn) :
    Kept frames buffers s (s.sendData env sock buffer len backfun source).1 := by
  have hget := henv.getBlock s.world
  unfold sendData
  split
  · exact Kept.refl s
  · split
    · rename_i world hnone
      simp only [hnone, Option.toList_none, List.length_nil, Int.natCast_zero, Int.add_zero] at hget
      exact Kept.of_eq hget.1 hget.2 rfl rfl
    · rename_i buf world hbuf
      simp only [hbuf, Option.toList_some, List.length_singleton, Int.natCast_one] at hget
      have hfree := henv.freeBlock world (buf.put (buffer.take len.toNat))
      dsimp only
      split
      · refine Kept.of_eq (hfree.1.trans hget.1) ?_ rfl rfl
        dsimp only
        omega
      · rename_i info hinfo
        have hpush (queues : Nat → List Nat) : Kept frames buffers s { s with
            world
            socketInfo := s.socketInfo.insert sock
              (info.push (.new (buf.put (buffer.take len.toNat)) len.toNat backfun s.kernel.accepted))
            sendTasks := queues
            log := s.log ++ [.queued (s.kernel.fds sock) source
              ((buf.put (buffer.take len.toNat)).toList.take len.toNat)] } := by
          refine kept_socket _ hinfo rfl rfl hget.1 ?_
          simp only [SocketInformation.push, List.length_append, List.length_singleton]
          omega
        split
        · exact hpush (addTask s.sendTasks sock sock)
        · exact hpush s.sendTasks

/-! ## Flow control -/

theorem kept_epollCtlMod (henv : Counts env frames buffers) (s : Server ω) (sock : Nat) (enable : Bool) :
    Kept frames buffers s (s.epollCtlMod env sock enable).1 := by
  have hmod := henv.epollCtlMod s.world
  unfold epollCtlMod
  split
  · exact Kept.refl s
  · rename_i world hfalse
    rw [hfalse] at hmod
    exact Kept.of_eq hmod.1 hmod.2 rfl rfl
  · rename_i world htrue
    rw [htrue] at hmod
    exact Kept.of_eq hmod.1 hmod.2 rfl rfl

theorem kept_modifyRead (henv : Counts env frames buffers) (s : Server ω) (sock : Nat) (enable : Bool) :
    Kept frames buffers s (s.modifyRead env sock enable).1 := by
  unfold modifyRead
  split
  · exact Kept.refl s
  · rename_i info hinfo
    split
    · exact Kept.refl s
    · have hflag : Kept frames buffers s
          { s with socketInfo := s.socketInfo.insert sock { info with enableRead := enable } } :=
        kept_socket _ hinfo rfl rfl rfl rfl
      exact hflag.trans (kept_epollCtlMod henv _ _ _)

theorem Recounted.kept (henv : Counts env frames buffers) {sock : Nat} (h : Recounted env s sock s') :
    Kept frames buffers s s' := by
  cases h with
  | missing => exact Kept.refl s
  | counted client frameCount hclient => exact Kept.of_eq rfl rfl rfl rfl
  | switched client frameCount enable hclient =>
      exact (kept_modifyRead henv s sock enable).trans (Kept.of_eq rfl rfl rfl rfl)

/-! ## Frames that are queued -/

theorem saveAll_counts (henv : Counts env frames buffers) (w : ω) (fs : List (List UInt8)) :
    frames (saveAll env.getBuff w fs).2 = frames w + (saveAll env.getBuff w fs).1.length ∧
      buffers (saveAll env.getBuff w fs).2 = buffers w := by
  induction fs generalizing w with
  | nil => simp [saveAll]
  | cons f fs ih =>
      have hget := henv.getBuff w
      have hrest := ih (env.getBuff w).2
      rw [saveAll]
      split
      · rename_i world hnone
        simp only [hnone, Option.toList_none, List.length_nil, Int.natCast_zero] at hget hrest
        omega
      · rename_i b world hsome
        simp only [hsome, Option.toList_some, List.length_singleton, Int.natCast_one] at hget hrest
        simp only [List.length_cons]
        omega

theorem queuedFrames_addFrameProcTasks (s : Server ω) (sock : Nat) (queued : List (Block × Int)) :
    (queued.foldl (fun s t => s.addFrameProcTask sock t.1 t.2) s).queuedFrames =
        s.queuedFrames + queued.length ∧
      (queued.foldl (fun s t => s.addFrameProcTask sock t.1 t.2) s).world = s.world ∧
      (queued.foldl (fun s t => s.addFrameProcTask sock t.1 t.2) s).socketInfo = s.socketInfo ∧
      ∀ w, 4 ≤ w → (queued.foldl (fun s t => s.addFrameProcTask sock t.1 t.2) s).frameTasks w =
        s.frameTasks w := by
  induction queued generalizing s with
  | nil => exact ⟨rfl, rfl, rfl, fun _ _ => rfl⟩
  | cons t queued ih =>
      obtain ⟨hqueued, hworld, hsockets, hothers⟩ := ih (s.addFrameProcTask sock t.1 t.2)
      have hworker : worker sock < 4 := Nat.mod_lt sock (by decide)
      have hadd := Table.sum_update List.length s.frameTasks
        (Finset.mem_range.mpr hworker)
        (s.frameTasks (worker sock) ++ [⟨sock, t.1, t.2, s.kernel.fds sock⟩])
      rw [List.length_append, List.length_singleton] at hadd
      refine ⟨?_, hworld, hsockets, fun w hw => ?_⟩
      · rw [List.foldl_cons, hqueued, List.length_cons]
        simp only [queuedFrames, addFrameProcTask, addTask] at hadd ⊢
        omega
      · rw [List.foldl_cons, hothers w hw]
        exact Function.update_of_ne (Nat.ne_of_gt (Nat.lt_of_lt_of_le hworker hw)) _ _

theorem kept_addRecvData (henv : Counts env frames buffers) (s : Server ω) (sock : Nat) (buff : ReadBuff) :
    Kept frames buffers s (s.addRecvData env sock buff).1 := by
  unfold addRecvData
  split
  · exact Kept.refl s
  · rename_i client hclient
    let r := client.frameRestruct.call env.getBuff s.world buff
    let client' := { client with frameRestruct := client.frameRestruct.next env.getBuff s.world buff }
    have hcounts : frames r.pool = frames s.world + r.queued.length ∧ buffers r.pool = buffers s.world := by
      obtain ⟨_, hscan⟩ := client.frameRestruct.call_spec env.getBuff s.world buff
      have hqueued := hscan.queued
      rw [List.nil_append] at hqueued
      rw [hqueued, hscan.pool]
      exact saveAll_counts henv s.world _
    refine Kept.trans ?_ ((recounted_increase _ _ _).kept henv)
    obtain ⟨hadded, hworld, hsockets, hothers⟩ := queuedFrames_addFrameProcTasks
      { s with world := r.pool, clientMap := s.clientMap.insert sock client' } sock r.queued
    refine ⟨?_, ?_, hothers⟩
    · rw [strayFrames, hadded, hworld, strayFrames]
      change frames r.pool - ((s.queuedFrames + r.queued.length : Nat) : Int) = _
      omega
    · rw [strayBuffers, chained, hworld, hsockets, strayBuffers, chained]
      exact congrArg (· - _) hcounts.2

/-! ## Commands -/

theorem kept_newClient (henv : Counts env frames buffers) (s : Server ω) (sock : Nat) (frame : Block) :
    Kept frames buffers s (s.newClient env sock frame).1 := by
  unfold newClient
  split
  · split
    · exact Kept.refl s
    · rename_i client _
      have hclient : Kept frames buffers s { s with clientMap := s.clientMap.insert sock { client with
          clientType := (byteAt frame 4).toNat
          cameraId := cameraIdAt frame 5 } } := Kept.of_eq rfl rfl rfl rfl
      exact hclient.trans (kept_sendData henv _ sock loginAckFrame 5 false none)
  · exact Kept.refl s

theorem kept_picDataRecv (henv : Counts env frames buffers) (s : Server ω) (sock : Nat) (frame : Block)
    (frameLen : Int) (source : Option Conn) :
    Kept frames buffers s (s.picDataRecv env sock frame frameLen source) := by
  unfold picDataRecv
  split
  · exact Kept.refl s
  · apply Kept.foldl
    intro s entry
    split
    · exact kept_sendData henv s entry.1 frame.toList frameLen true source
    · exact Kept.refl s

theorem kept_commandProc (henv : Counts env frames buffers) (s : Server ω) (sock : Nat) (frame : Block)
    (frameLen : Int) (source : Option Conn) :
    Kept frames buffers s (s.commandProc env sock frame frameLen source) := by
  unfold commandProc
  split
  · have hlogin := kept_newClient henv s sock frame
    dsimp only
    split
    · exact hlogin
    · exact hlogin.trans (Kept.of_eq rfl rfl rfl rfl)
  · split
    · unfold resetCameraId
      split
      · exact Kept.refl s
      · exact Kept.of_eq rfl rfl rfl rfl
    · split
      · exact kept_picDataRecv henv s sock frame frameLen source
      · exact Kept.refl s

/-- The block of the frame goes back, and nothing else. -/
theorem stray_frameTask (henv : Counts env frames buffers) (s : Server ω) (task : CFrameProcTask) :
    (s.frameTask env task).strayFrames frames = s.strayFrames frames - 1 ∧
      (s.frameTask env task).strayBuffers buffers = s.strayBuffers buffers ∧
      ∀ w, 4 ≤ w → (s.frameTask env task).frameTasks w = s.frameTasks w := by
  have hcommand := kept_commandProc henv s task.sock task.frame task.frameLen task.conn
  have hfree := henv.freeBuff (s.commandProc env task.sock task.frame task.frameLen task.conn).world task.frame
  have hcount := Recounted.kept henv (recounted_decrease
    { s.commandProc env task.sock task.frame task.frameLen task.conn with
      world := env.freeBuff (s.commandProc env task.sock task.frame task.frameLen task.conn).world task.frame }
    task.sock)
  have hframes := hcommand.frames
  have hbuffers := hcommand.buffers
  refine ⟨?_, ?_, fun w hw => (hcount.others w hw).trans (hcommand.others w hw)⟩
  · rw [frameTask, hcount.frames, ← hframes, strayFrames, hfree.1, strayFrames]
    simp only [queuedFrames]
    omega
  · rw [frameTask, hcount.buffers, ← hbuffers, strayBuffers, hfree.2, strayBuffers]
    rfl

/-! ## Events -/

theorem kept_eof (henv : Counts env frames buffers) (s : Server ω) (fd : Nat) :
    Kept frames buffers s (s.eof env fd) := by
  have hforgotten : Kept frames buffers s ((s.close fd).quitClient fd) := Kept.of_eq rfl rfl rfl rfl
  exact hforgotten.trans (kept_removeSocket henv _ fd)

theorem kept_processRecvData (henv : Counts env frames buffers) (s : Server ω) (fd : Nat)
    (reads : List ReadResult) : Kept frames buffers s (s.processRecvData env fd reads) := by
  induction reads generalizing s with
  | nil => exact Kept.refl s
  | cons r reads ih =>
      simp only [processRecvData]
      split
      · exact Kept.refl s
      · exact Kept.refl s
      · rename_i conn buff _
        split
        · exact kept_eof henv s fd
        · have hlogged : Kept frames buffers s { s with log := s.log ++ [.received conn buff.bytes] } :=
            Kept.of_eq rfl rfl rfl rfl
          exact (hlogged.trans (kept_addRecvData henv _ fd buff)).trans (ih _)

theorem kept_processRecvEnts (henv : Counts env frames buffers) (listenSocket : Nat) (s : Server ω)
    (event : EpollEvent) (answers : Answers) :
    Kept frames buffers s (s.processRecvEnts env listenSocket event answers) := by
  unfold processRecvEnts
  split
  · unfold acceptClient
    split
    · exact Kept.refl s
    · rename_i fd _
      have haccept : Kept frames buffers s { s with kernel := s.kernel.accept fd } :=
        Kept.of_eq rfl rfl rfl rfl
      dsimp only
      split
      · exact (haccept.trans (kept_insertSocket _ fd _)).trans (Kept.of_eq rfl rfl rfl rfl)
      · exact Kept.of_eq rfl rfl rfl rfl
  · split
    · exact kept_processRecvData henv s event.fd answers.reads
    · split
      · unfold writable
        split
        · exact Kept.refl s
        · rename_i info hinfo
          exact kept_socket { info with currSendState := .allow } hinfo rfl rfl rfl rfl
      · exact Kept.of_eq rfl rfl rfl rfl

/-! ## Sending -/

/-- A node leaves the chain exactly when its block is freed. -/
theorem length_afterSend (info : Socket) (ret : Int) :
    (afterSend info ret).info.outputChain.length + (afterSend info ret).done.toList.length =
      info.outputChain.length := by
  unfold afterSend
  cases hchain : info.outputChain with
  | nil => simp [hchain]
  | cons node chain =>
      dsimp only
      split
      · simp [hchain]
      · split
        · simp
        · split
          · simp
          · simp [hchain]

theorem kept_sendOnce (henv : Counts env frames buffers) {sock : Nat} {info : Socket}
    (hinfo : s.socketInfo[sock]? = some info) (r : SendResult) :
    Kept frames buffers s (s.sendOnce env sock info r).1 := by
  unfold sendOnce
  split
  · exact Kept.refl s
  · rename_i node chain _
    have hlength := length_afterSend info (s.sendRet sock node r)
    dsimp only
    split
    · rename_i hnone
      rw [hnone, Option.toList_none, List.length_nil, Nat.add_zero] at hlength
      refine kept_socket _ hinfo rfl rfl rfl ?_
      rw [hlength]
    · rename_i done hdone
      rw [hdone, Option.toList_some, List.length_singleton] at hlength
      have hfree := henv.freeBlock s.world done.pBuffer
      rw [← henv.freeSent] at hfree
      refine kept_socket _ hinfo rfl rfl hfree.1 ?_
      dsimp only
      omega

theorem kept_sendTask (henv : Counts env frames buffers) (s : Server ω) (sock : Nat)
    (results : List SendResult) : Kept frames buffers s (s.sendTask env sock results) := by
  induction results generalizing s with
  | nil => exact Kept.refl s
  | cons r results ih =>
      rw [sendTask]
      split
      · exact Kept.refl s
      · rename_i info hinfo
        have honce := kept_sendOnce henv hinfo r
        split
        · rename_i s₁ hone
          rw [hone] at honce
          exact honce
        · rename_i s₁ hone
          rw [hone] at honce
          exact honce.trans (ih s₁)

end Server

/-! ## Every run -/

variable {env : World ω} {frames buffers : ω → Int} {listenSocket : Nat}

/-- No block is out but for a queued frame or in a chain. -/
structure Balanced (frames buffers : ω → Int) (s : Server ω) : Prop where
  frames : frames s.world = s.queuedFrames
  buffers : buffers s.world = s.chained
  idle : ∀ w, 4 ≤ w → s.frameTasks w = []

theorem Balanced.of_kept {s s' : Server ω} (h : Balanced frames buffers s) (hkept : Kept frames buffers s s') :
    Balanced frames buffers s' := by
  have hframes := hkept.frames
  have hbuffers := hkept.buffers
  have hframes' := h.frames
  have hbuffers' := h.buffers
  simp only [strayFrames, strayBuffers] at hframes hbuffers
  exact ⟨by omega, by omega, fun w hw => (hkept.others w hw).trans (h.idle w hw)⟩

/-- The worker takes the frame out of its queue, and its block goes back to the pool. -/
theorem Balanced.frame (henv : Counts env frames buffers) {s : Server ω} (h : Balanced frames buffers s)
    {w : Nat} {task : CFrameProcTask} (htask : (s.frameTasks w).head? = some task) :
    Balanced frames buffers ((s.popFrame w).frameTask env task) := by
  have hw : w < 4 := by
    by_contra hge
    rw [h.idle w (Nat.le_of_not_lt hge)] at htask
    cases htask
  obtain ⟨rest, htasks⟩ : ∃ rest, s.frameTasks w = task :: rest := by
    cases hq : s.frameTasks w with
    | nil => rw [hq] at htask; cases htask
    | cons first rest =>
        rw [hq] at htask
        cases htask
        exact ⟨rest, rfl⟩
  have hpop := Table.sum_update List.length s.frameTasks (Finset.mem_range.mpr hw) (s.frameTasks w).tail
  obtain ⟨hframes, hbuffers, hothers⟩ := stray_frameTask henv (s.popFrame w) task
  have hqueued : (s.popFrame w).queuedFrames + 1 = s.queuedFrames := by
    rw [htasks, List.tail_cons, List.length_cons] at hpop
    simp only [queuedFrames, popFrame, htasks, List.tail_cons]
    omega
  have hframes' := h.frames
  have hbuffers' := h.buffers
  refine ⟨?_, ?_, fun v hv => ?_⟩
  · simp only [strayFrames] at hframes
    have hworld : frames (s.popFrame w).world = frames s.world := rfl
    omega
  · simp only [strayBuffers] at hbuffers
    have hworld : buffers (s.popFrame w).world = buffers s.world := rfl
    have hchained : (s.popFrame w).chained = s.chained := rfl
    omega
  · rw [hothers v hv]
    have hne : v ≠ w := Nat.ne_of_gt (Nat.lt_of_lt_of_le hw hv)
    exact (Function.update_of_ne hne _ _).trans (h.idle v hv)

theorem Balanced.step (henv : Counts env frames buffers) {s s' : Server ω} (h : Balanced frames buffers s)
    {job : Job} (hs : job.step env listenSocket s = some s') : Balanced frames buffers s' := by
  cases job with
  | deliver ev =>
      cases hs
      exact h.of_kept (Kept.of_eq rfl rfl rfl rfl)
  | recv w answers =>
      obtain ⟨ev, _, hs⟩ := Option.bind_eq_some_iff.mp hs
      simp only [Handler.step] at hs
      split at hs
      · cases hs
      · cases hs
        have hpop : Balanced frames buffers (s.popRecv w) := h.of_kept (Kept.of_eq rfl rfl rfl rfl)
        exact hpop.of_kept (kept_processRecvEnts henv listenSocket _ ev answers)
  | frame w =>
      obtain ⟨task, htask, hs⟩ := Option.bind_eq_some_iff.mp hs
      cases hs
      exact h.frame henv htask
  | send w results =>
      obtain ⟨sock, _, hs⟩ := Option.bind_eq_some_iff.mp hs
      cases hs
      have hpop : Balanced frames buffers (s.popSend w) := h.of_kept (Kept.of_eq rfl rfl rfl rfl)
      exact hpop.of_kept (kept_sendTask henv _ sock results)

/-- In every run of the workers, whatever they are given, as long as a deleted node still has the address of its
block: each block of the two pools that is out is that of one queued frame, or in one place of a chain. -/
theorem accounted_of_run (henv : Counts env frames buffers) {w : ω} (hframes : frames w = 0)
    (hbuffers : buffers w = 0) {jobs : List Job} {s : Server ω}
    (hr : (workers env listenSocket w).run (Server.start w) jobs = some s) :
    frames s.world = s.queuedFrames ∧ buffers s.world = s.chained := by
  have hstart : Balanced frames buffers (Server.start w) := ⟨hframes, hbuffers, fun _ _ => rfl⟩
  have h : Balanced frames buffers s :=
    StepSystem.run_invariant _ (fun _ _ _ h hs => h.step henv hs) hstart hr
  exact ⟨h.frames, h.buffers⟩

/-- Pools of `m` and `n` blocks. -/
def capped (m n : Int) : World (Int × Int) where
  getBuff w := if w.1 < m then (some (Buffer.fill memPoolBlockSize 0), w.1 + 1, w.2) else (none, w)
  freeBuff w _ := (w.1 - 1, w.2)
  getBlock w := if w.2 < n then (some (Buffer.fill memPoolBlockSize 0), w.1, w.2 + 1) else (none, w)
  freeBlock w _ := (w.1, w.2 - 1)
  epollCtlMod w := (true, w)

theorem counts_capped (m n : Int) : Counts (capped m n) Prod.fst Prod.snd := by
  refine ⟨fun w => ?_, fun _ _ => ⟨rfl, rfl⟩, fun w => ?_, fun _ _ => ⟨rfl, rfl⟩, fun _ => ⟨rfl, rfl⟩, rfl⟩
  · simp only [capped]
    split <;> simp
  · simp only [capped]
    split <;> simp

/-- A login and two more frames, the last of which gets no block; the login is acknowledged. -/
def threeFrames : List Job :=
  [.deliver ⟨3, true, false⟩, .recv 3 ⟨some 5, true, []⟩, .deliver ⟨5, true, false⟩,
    .recv 1 ⟨none, false, [.data ⟨[0x7E, 0, 8, 0, 1, 0, 7, 0xA5, 0x7E, 0, 5, 0x10, 0xA5, 0x7E, 0, 5, 0x10, 0xA5],
      by decide⟩]⟩, .frame 1]

theorem accounted_of_run_threeFrames :
    ∃ s, (workers (capped 2 1) 3 (0, 0)).run (Server.start (0, 0)) threeFrames = some s ∧
      s.world = (1, 1) ∧ s.queuedFrames = 1 ∧ s.chained = 1 := by
  have hrun : ((workers (capped 2 1) 3 (0, 0)).run (Server.start (0, 0)) threeFrames).any
      (fun s => decide (s.world = (1, 1))) = true := by
    decide +kernel
  obtain ⟨s, hs, hworld⟩ := (Option.any_eq_true _ _).mp hrun
  have hworld := of_decide_eq_true hworld
  obtain ⟨hframes, hbuffers⟩ := accounted_of_run (counts_capped 2 1) rfl rfl hs
  rw [hworld] at hframes hbuffers
  exact ⟨s, hs, hworld, (Int.ofNat.inj hframes).symm, (Int.ofNat.inj hbuffers).symm⟩

end CmdTran
