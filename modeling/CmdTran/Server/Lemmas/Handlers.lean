import CmdTran.Server.Lemmas.Quiet

/-!
# What a handler opens and closes

Every handler is quiet but for the accept, the end of a stream, the hang-up and the rejected login.
-/

namespace CmdTran

namespace Server

variable {ω : Type} {env : World ω} {s : Server ω}

/-! ## Frames -/

def BadType (frame : Block) : Prop :=
  ¬(byteAt frame 4 = clientTypePhone ∨ byteAt frame 4 = clientTypePC)

/-- The frame is a login that `NewClient` rejects. -/
def Rejected (s : Server ω) (sock : Nat) (frame : Block) : Prop :=
  byteAt frame 3 = 0x00 ∧ (BadType frame ∨ s.clientMap[sock]? = none)

theorem quiet_newClient (s : Server ω) (sock : Nat) (frame : Block) :
    Quiet s (s.newClient env sock frame).1 := by
  unfold newClient
  split
  · split
    · exact Quiet.refl s
    · rename_i client hclient
      let client' := { client with
        clientType := (byteAt frame 4).toNat
        cameraId := cameraIdAt frame 5 }
      exact (quiet_client client' hclient rfl).trans (quiet_sendData _ _ _ _ _ _)
  · exact Quiet.refl s

theorem newClient_rejected {sock : Nat} {frame : Block}
    (h : BadType frame ∨ s.clientMap[sock]? = none) : s.newClient env sock frame = (s, false) := by
  unfold newClient
  rcases h with hbad | hnone
  · exact if_neg hbad
  · rw [hnone]
    split <;> rfl

theorem newClient_accepted {sock : Nat} {frame : Block}
    (h : ¬(BadType frame ∨ s.clientMap[sock]? = none)) :
    (s.newClient env sock frame).2 = true := by
  rw [not_or] at h
  obtain ⟨htype, hclient⟩ := h
  unfold newClient
  rw [if_pos (not_not.mp htype)]
  cases hc : s.clientMap[sock]? with
  | none => exact absurd hc hclient
  | some client => rfl

theorem quiet_resetCameraId (s : Server ω) (sock : Nat) (frame : Block) :
    Quiet s (s.resetCameraId sock frame) := by
  unfold resetCameraId
  split
  · exact Quiet.refl s
  · rename_i client hclient
    exact quiet_client _ hclient rfl

theorem quiet_picDataRecv (s : Server ω) (sock : Nat) (frame : Block) (frameLen : Int)
    (source : Option Conn) : Quiet s (s.picDataRecv env sock frame frameLen source) := by
  unfold picDataRecv
  split
  · exact Quiet.refl s
  · apply Quiet.foldl
    intro s entry
    split
    · exact quiet_sendData s entry.1 frame.toList frameLen true source
    · exact Quiet.refl s

theorem commandProc_rejected {sock : Nat} {frame : Block} (h : s.Rejected sock frame) (len : Int)
    (source : Option Conn) :
    s.commandProc env sock frame len source = (s.quitClient sock).close sock := by
  unfold commandProc
  rw [if_pos h.1, newClient_rejected h.2]
  rfl

theorem quiet_commandProc {sock : Nat} {frame : Block} (h : ¬s.Rejected sock frame) (len : Int)
    (source : Option Conn) : Quiet s (s.commandProc env sock frame len source) := by
  unfold commandProc
  split
  · rename_i hcode
    have hok : (s.newClient env sock frame).2 = true :=
      newClient_accepted fun hrej => h ⟨hcode, hrej⟩
    simp only [hok, if_true]
    exact quiet_newClient s sock frame
  · split
    · exact quiet_resetCameraId s sock frame
    · split
      · exact quiet_picDataRecv s sock frame len source
      · exact Quiet.refl s

theorem quiet_finish (s : Server ω) (world : ω) (sock : Nat) :
    Quiet s (({ s with world }).decreaseFrameCount env sock).1 :=
  (Quiet.of_eq rfl rfl rfl rfl rfl rfl : Quiet s { s with world }).trans
    (recounted_decrease _ _).quiet

theorem frameTask_rejected {task : CFrameProcTask} (h : s.Rejected task.sock task.frame) :
    Quiet ((s.quitClient task.sock).close task.sock) (s.frameTask env task) := by
  unfold frameTask
  rw [commandProc_rejected h]
  exact quiet_finish _ _ _

theorem quiet_frameTask {task : CFrameProcTask} (h : ¬s.Rejected task.sock task.frame) :
    Quiet s (s.frameTask env task) :=
  (quiet_commandProc h task.frameLen task.conn).trans (quiet_finish _ _ _)

/-! ## Events -/

/-- The reads are quiet up to the end of the stream, if it comes. -/
theorem processRecvData_spec (env : World ω) (s : Server ω) (fd : Nat) (reads : List ReadResult) :
    ∃ s', Quiet s s' ∧ (s.processRecvData env fd reads = s' ∨
      (∃ conn, s.kernel.fds fd = some conn) ∧ s.processRecvData env fd reads = s'.eof env fd) := by
  induction reads generalizing s with
  | nil => exact ⟨s, Quiet.refl s, Or.inl rfl⟩
  | cons r reads ih =>
      simp only [processRecvData]
      split
      · exact ⟨s, Quiet.refl s, Or.inl rfl⟩
      · exact ⟨s, Quiet.refl s, Or.inl rfl⟩
      · rename_i conn buff hfd
        split
        · exact ⟨s, Quiet.refl s, Or.inr ⟨⟨conn, hfd⟩, rfl⟩⟩
        · let s₁ : Server ω := { s with log := s.log ++ [.received conn buff.bytes] }
          have hlog : Quiet s s₁ := by
            refine ⟨rfl, rfl, fun _ => rfl, fun _ => rfl, fun _ info h => ⟨info, h, Grown.refl _ info⟩,
              ⟨[.received conn buff.bytes], rfl, ?_⟩, fun _ _ h => Or.inl h⟩
            intro e he
            rw [List.mem_singleton.mp he]
            exact trivial
          have hread : Quiet s (s₁.addRecvData env fd buff).1 :=
            hlog.trans (quiet_addRecvData s₁ hfd buff)
          obtain ⟨s', hs', hcase⟩ := ih (s₁.addRecvData env fd buff).1
          refine ⟨s', hread.trans hs', ?_⟩
          rcases hcase with hgo | ⟨_, heof⟩
          · exact Or.inl hgo
          · exact Or.inr ⟨⟨conn, hfd⟩, heof⟩

theorem quiet_writable (s : Server ω) (fd : Nat) : Quiet s (s.writable fd) := by
  unfold writable
  split
  · exact Quiet.refl s
  · rename_i info hinfo
    have hstate := quiet_socket { info with currSendState := .allow } [] hinfo (Grown.refl _ info)
      (by simp)
    rw [List.append_nil] at hstate
    exact hstate.trans (quiet_addSendTask _ _)

/-! ## Sending -/

/-- The loop takes nodes away and moves on in the first one. -/
theorem grown_afterSend (accepted : Nat) (info : Socket) (ret : Int) :
    Grown accepted info (afterSend info ret).info := by
  unfold afterSend
  cases hchain : info.outputChain with
  | nil => exact Grown.refl accepted info
  | cons node chain =>
      dsimp only
      split
      · exact Grown.refl accepted info
      · split
        · intro node' hnode'
          rcases List.mem_cons.mp hnode' with rfl | htail
          · exact Or.inl ⟨node, by simp [hchain], rfl⟩
          · exact Or.inl ⟨node', by simp [hchain, htail], rfl⟩
        · split
          · intro node' hnode'
            exact Or.inl ⟨node', by simp [hchain, (hnode' : node' ∈ chain)], rfl⟩
          · exact Grown.refl accepted info

theorem written_sentBytes {sock : Nat} {info : Socket} {node : MemNode Nat}
    (hinfo : s.socketInfo[sock]? = some info) (hnode : node ∈ info.outputChain) (ret : Int) :
    ∀ e ∈ s.sentBytes sock node ret, Written s e := by
  unfold sentBytes
  intro e he
  split at he
  · rename_i conn hconn
    split at he
    · rw [List.mem_singleton.mp he]
      exact ⟨sock, info, hconn, hinfo, Or.inl ⟨node, hnode, rfl⟩⟩
    · cases he
  · cases he

theorem quiet_sendOnce {sock : Nat} {info : Socket} (hinfo : s.socketInfo[sock]? = some info)
    (r : SendResult) : Quiet s (s.sendOnce env sock info r).1 := by
  unfold sendOnce
  split
  · exact Quiet.refl s
  · rename_i node chain hchain
    have hnode : node ∈ info.outputChain := by rw [hchain]; exact List.mem_cons_self
    have hsent := quiet_socket (afterSend info (s.sendRet sock node r)).info
      (s.sentBytes sock node (s.sendRet sock node r)) hinfo (grown_afterSend _ _ _)
      (written_sentBytes hinfo hnode _)
    dsimp only
    split
    · exact hsent
    · exact hsent.trans (Quiet.of_eq rfl rfl rfl rfl rfl rfl)

theorem quiet_sendTask (s : Server ω) (sock : Nat) (results : List SendResult) :
    Quiet s (s.sendTask env sock results) := by
  induction results generalizing s with
  | nil => exact Quiet.refl s
  | cons r results ih =>
      simp only [sendTask]
      split
      · exact Quiet.refl s
      · rename_i info hinfo
        have honce : Quiet s (s.sendOnce env sock info r).1 := quiet_sendOnce hinfo r
        split
        · rename_i s' heq
          rw [heq] at honce
          exact honce
        · rename_i s' heq
          rw [heq] at honce
          exact honce.trans (ih s')

end Server

end CmdTran
