import CmdTran.Workers.Basic

/-!
# What a frame task touches

A frame task works on the entries of its own descriptor; to others it only sends. When its descriptor
is closed and not registered it does nothing.
-/

namespace CmdTran

namespace Server

variable {ω : Type} {env : World ω} {n : Nat} {Q : Event → Prop} {s s' s'' : Server ω}

/-- Only the entries of `n` have changed, and what was added to the log satisfies `Q`. -/
structure Local (n : Nat) (Q : Event → Prop) (s s' : Server ω) : Prop where
  clients : ∀ k : Nat, k ≠ n → s'.clientMap[k]? = s.clientMap[k]?
  fds : ∀ k, k ≠ n → s'.kernel.fds k = s.kernel.fds k
  readable : ∀ k, k ≠ n → s'.kernel.readable k = s.kernel.readable k
  reading : ∀ k : Nat, k ≠ n → (s'.socketInfo[k]?).map SocketInformation.enableRead =
    (s.socketInfo[k]?).map SocketInformation.enableRead
  log : ∃ events, s'.log = s.log ++ events ∧ ∀ e ∈ events, Q e

theorem Local.of_eq (hclients : s'.clientMap = s.clientMap) (hkernel : s'.kernel = s.kernel)
    (hsockets : s'.socketInfo = s.socketInfo) (hlog : s'.log = s.log) : Local n Q s s' := by
  refine ⟨fun _ _ => ?_, fun _ _ => ?_, fun _ _ => ?_, fun _ _ => ?_, [], ?_, by simp⟩
  · rw [hclients]
  · rw [hkernel]
  · rw [hkernel]
  · rw [hsockets]
  · rw [hlog, List.append_nil]

theorem Local.trans (h : Local n Q s s') (h' : Local n Q s' s'') : Local n Q s s'' := by
  obtain ⟨events, hlog, hQ⟩ := h.log
  obtain ⟨events', hlog', hQ'⟩ := h'.log
  refine ⟨fun k hk => (h'.clients k hk).trans (h.clients k hk),
    fun k hk => (h'.fds k hk).trans (h.fds k hk),
    fun k hk => (h'.readable k hk).trans (h.readable k hk),
    fun k hk => (h'.reading k hk).trans (h.reading k hk), events ++ events', ?_, ?_⟩
  · rw [hlog', hlog, List.append_assoc]
  · intro e he
    rcases List.mem_append.mp he with he | he
    · exact hQ e he
    · exact hQ' e he

/-! ## The pieces -/

theorem local_client (s : Server ω) (client : ClientInfo) :
    Local n Q s { s with clientMap := s.clientMap.insert n client } := by
  refine ⟨fun k hk => ?_, fun _ _ => rfl, fun _ _ => rfl, fun _ _ => rfl, [], by simp, by simp⟩
  rw [get_insert, if_neg (Ne.symm hk)]

theorem local_sendData (sock : Nat) (buffer : List UInt8) (len : Int) (backfun : Bool)
    (source : Option Conn) (hQ : ∀ bytes, Q (.queued (s.kernel.fds sock) source bytes)) :
    Local n Q s (s.sendData env sock buffer len backfun source).1 := by
  unfold sendData
  split
  · exact Local.of_eq rfl rfl rfl rfl
  · split
    · exact Local.of_eq rfl rfl rfl rfl
    · rename_i buf world _
      split
      · exact Local.of_eq rfl rfl rfl rfl
      · rename_i info hinfo
        have hpush : Local n Q s { s with
            world
            socketInfo := s.socketInfo.insert sock (info.push
              (.new (buf.put (buffer.take len.toNat)) len.toNat backfun s.kernel.accepted))
            log := s.log ++ [.queued (s.kernel.fds sock) source
              ((buf.put (buffer.take len.toNat)).toList.take len.toNat)] } := by
          refine ⟨fun _ _ => rfl, fun _ _ => rfl, fun _ _ => rfl, fun k _ => ?_, _, rfl, ?_⟩
          · rw [get_insert]
            split
            · rename_i heq
              rw [← heq, hinfo]
              rfl
            · rfl
          · intro e he
            rw [List.mem_singleton.mp he]
            exact hQ _
        dsimp only
        split
        · exact hpush.trans (Local.of_eq rfl rfl rfl rfl)
        · exact hpush

theorem local_modifyRead (s : Server ω) (enable : Bool) :
    Local n Q s (s.modifyRead env n enable).1 := by
  unfold modifyRead
  split
  · exact Local.of_eq rfl rfl rfl rfl
  · rename_i info hinfo
    split
    · exact Local.of_eq rfl rfl rfl rfl
    · have hflag : Local n Q s { s with
          socketInfo := s.socketInfo.insert n { info with enableRead := enable } } := by
        refine ⟨fun _ _ => rfl, fun _ _ => rfl, fun _ _ => rfl, fun k hk => ?_, [], by simp, by simp⟩
        rw [get_insert, if_neg (Ne.symm hk)]
      refine hflag.trans ?_
      unfold epollCtlMod
      split
      · exact Local.of_eq rfl rfl rfl rfl
      · exact Local.of_eq rfl rfl rfl rfl
      · refine ⟨fun _ _ => rfl, fun _ _ => rfl, fun k hk => ?_, fun _ _ => rfl, [], by simp, by simp⟩
        exact Function.update_of_ne hk _ _

theorem local_decreaseFrameCount (s : Server ω) :
    Local n Q s (s.decreaseFrameCount env n).1 := by
  unfold decreaseFrameCount
  split
  · exact Local.of_eq rfl rfl rfl rfl
  · dsimp only
    split
    · exact (local_modifyRead s true).trans (local_client _ _)
    · exact local_client _ _

/-! ## The commands -/

/-- What a frame may have sent: an acknowledgement to `conn`, or a picture of `conn` to a PC with
the camera id of the record of `conn`. -/
def OwnOutput (s : Server ω) (conn : Conn) : Event → Prop
  | .queued receiver none _ => receiver = some conn
  | .queued receiver (some source) _ => source = conn ∧
      ∃ (k k' : Nat) (phone viewer : ClientInfo), s.clientMap[k]? = some phone ∧
        phone.conn = conn ∧ s.clientMap[k']? = some viewer ∧
        viewer.clientType = clientTypePC.toNat ∧ viewer.cameraId = phone.cameraId ∧
        receiver = s.kernel.fds k'
  | _ => False

variable {conn : Conn}

theorem local_newClient (hopen : s.kernel.fds n = some conn) (frame : Block) :
    Local n (OwnOutput s conn) s (s.newClient env n frame).1 := by
  unfold newClient
  split
  · split
    · exact Local.of_eq rfl rfl rfl rfl
    · refine (local_client s _).trans (local_sendData _ _ _ _ _ ?_)
      exact fun _ => hopen
  · exact Local.of_eq rfl rfl rfl rfl

theorem local_picDataRecv {phone : ClientInfo} (hphone : s.clientMap[n]? = some phone)
    (hconn : phone.conn = conn) (frame : Block) (len : Int) :
    Local n (OwnOutput s conn) s (s.picDataRecv env n frame len (some conn)) := by
  have hfold (entries : List (Nat × ClientInfo)) (s' : Server ω)
      (hentries : ∀ entry ∈ entries, s.clientMap[entry.1]? = some entry.2)
      (hfds : s'.kernel.fds = s.kernel.fds) :
      Local n (OwnOutput s conn) s' (entries.foldl (fun s entry =>
        if isViewer n phone.cameraId entry.1 entry.2 then
          (s.sendData env entry.1 frame.toList len true (some conn)).1
        else s) s') := by
    induction entries generalizing s' with
    | nil => exact Local.of_eq rfl rfl rfl rfl
    | cons entry entries ih =>
        rw [List.foldl_cons]
        have hrest := fun e he => hentries e (List.mem_cons_of_mem entry he)
        split
        · rename_i hviewer
          simp only [isViewer, decide_eq_true_eq] at hviewer
          obtain ⟨_, htype, hcamera⟩ := hviewer
          have hsent : Local n (OwnOutput s conn) s'
              (s'.sendData env entry.1 frame.toList len true (some conn)).1 := by
            apply local_sendData
            intro bytes
            rw [hfds]
            exact ⟨rfl, n, entry.1, phone, entry.2, hphone, hconn,
              hentries entry List.mem_cons_self, htype, hcamera.symm, rfl⟩
          exact hsent.trans (ih _ hrest ((quiet_sendData _ _ _ _ _ _).fds.trans hfds))
        · exact ih s' hrest hfds
  unfold picDataRecv
  rw [hphone]
  apply hfold _ _ _ rfl
  intro entry hentry
  exact Std.TreeMap.mem_toList_iff_getElem?_eq_some.mp hentry

theorem local_commandProc {phone : ClientInfo} (hopen : s.kernel.fds n = some conn)
    (hphone : s.clientMap[n]? = some phone) (hconn : phone.conn = conn) (frame : Block) (len : Int) :
    Local n (OwnOutput s conn) s (s.commandProc env n frame len (some conn)) := by
  unfold commandProc
  split
  · have hlogin : Local n (OwnOutput s conn) s (s.newClient env n frame).1 :=
      local_newClient hopen frame
    dsimp only
    split
    · exact hlogin
    · refine hlogin.trans ⟨fun k hk => ?_, fun k hk => ?_, fun _ _ => rfl, fun _ _ => rfl, [], ?_,
        by simp⟩
      · rw [close_clientMap, get_quitClient, if_neg (Ne.symm hk)]
      · rw [close_kernel, Kernel.fds_close, if_neg hk]
        rfl
      · simp [Server.close, quitClient]
  · split
    · unfold resetCameraId
      rw [hphone]
      exact local_client _ _
    · split
      · exact local_picDataRecv hphone hconn frame len
      · exact Local.of_eq rfl rfl rfl rfl

theorem local_frameTask {task : CFrameProcTask} {phone : ClientInfo}
    (hopen : s.kernel.fds task.sock = some conn) (hphone : s.clientMap[task.sock]? = some phone)
    (hconn : phone.conn = conn) (htask : task.conn = some conn) :
    Local task.sock (OwnOutput s conn) s (s.frameTask env task) := by
  unfold frameTask
  rw [htask]
  have hcommand : Local task.sock (OwnOutput s conn) s
      (s.commandProc env task.sock task.frame task.frameLen (some conn)) :=
    local_commandProc hopen hphone hconn task.frame task.frameLen
  refine hcommand.trans (Local.trans ?_ (local_decreaseFrameCount _))
  exact Local.of_eq rfl rfl rfl rfl

/-! ## Frames of nobody -/

/-- The tables, the kernel, the send queues and the log are as before. -/
structure NoEffect (s s' : Server ω) : Prop where
  clients : ∀ k : Nat, s'.clientMap[k]? = s.clientMap[k]?
  kernel : s'.kernel = s.kernel
  sockets : s'.socketInfo = s.socketInfo
  sendTasks : s'.sendTasks = s.sendTasks
  log : s'.log = s.log

theorem close_of_free {k : Kernel} {fd : Nat} (h : k.fds fd = none) : k.close fd = k := by
  have hfds : Function.update k.fds fd none = k.fds := by
    rw [← h, Function.update_eq_self]
  rw [Kernel.close, hfds]

theorem noEffect_commandProc {sock : Nat} (hfree : s.kernel.fds sock = none)
    (hclient : s.clientMap[sock]? = none) (frame : Block) (len : Int) (source : Option Conn) :
    NoEffect s (s.commandProc env sock frame len source) := by
  unfold commandProc
  split
  · rw [newClient_rejected (Or.inr hclient)]
    refine ⟨fun k => ?_, close_of_free hfree, rfl, rfl, rfl⟩
    change (s.quitClient sock).clientMap[k]? = s.clientMap[k]?
    rw [get_quitClient]
    split
    · rename_i heq
      rw [← heq, hclient]
    · rfl
  · split
    · unfold resetCameraId
      rw [hclient]
      exact ⟨fun _ => rfl, rfl, rfl, rfl, rfl⟩
    · split
      · unfold picDataRecv
        rw [hclient]
        exact ⟨fun _ => rfl, rfl, rfl, rfl, rfl⟩
      · exact ⟨fun _ => rfl, rfl, rfl, rfl, rfl⟩

theorem noEffect_frameTask {task : CFrameProcTask} (hfree : s.kernel.fds task.sock = none)
    (hclient : s.clientMap[task.sock]? = none) : NoEffect s (s.frameTask env task) := by
  have hcommand : NoEffect s (s.commandProc env task.sock task.frame task.frameLen task.conn) :=
    noEffect_commandProc hfree hclient task.frame task.frameLen task.conn
  have hgone := (hcommand.clients task.sock).trans hclient
  unfold frameTask decreaseFrameCount
  dsimp only
  rw [hgone]
  exact ⟨hcommand.clients, hcommand.kernel, hcommand.sockets, hcommand.sendTasks, hcommand.log⟩

end Server

end CmdTran
