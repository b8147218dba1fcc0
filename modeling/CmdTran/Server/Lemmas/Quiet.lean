import CmdTran.Server.Lemmas.Tables

/-!
# Steps that open and close nothing

Most of what a handler does leaves the descriptors and the keys of both tables alone, adds only new
nodes to the chains, writes only nodes of the chains and queues only frames of connections that are
open. `Quiet` says so, once; the closing steps are what is left.
-/

namespace CmdTran

namespace Server

variable {ω : Type} {env : World ω} {s s' s'' : Server ω}

def owner (s : Server ω) (k : Nat) : Option Conn := (s.clientMap[k]?).map ClientInfo.conn

theorem owner_quitClient (s : Server ω) (fd k : Nat) :
    (s.quitClient fd).owner k = if k = fd then none else s.owner k := by
  rw [Server.owner, get_quitClient]
  by_cases h : k = fd
  · rw [if_pos h, if_pos h.symm]
    rfl
  · rw [if_neg h, if_neg (Ne.symm h)]
    rfl

/-- Every node of the new socket has the tag of a node of the old one, or the present one. -/
def Grown (accepted : Nat) (info info' : Socket) : Prop :=
  ∀ node' ∈ info'.outputChain,
    (∃ node ∈ info.outputChain, node.tag = node'.tag) ∨ node'.tag = accepted

/-- The tag of a byte that is written is one of the chain of the descriptor it is written to. -/
def Written (s : Server ω) : Event → Prop
  | .sent conn made _ => ∃ fd info, s.kernel.fds fd = some conn ∧ s.socketInfo[fd]? = some info ∧
      ((∃ node ∈ info.outputChain, node.tag = made) ∨ made = s.kernel.accepted)
  | _ => True

structure Quiet (s s' : Server ω) : Prop where
  fds : s'.kernel.fds = s.kernel.fds
  accepted : s'.kernel.accepted = s.kernel.accepted
  owner : ∀ k, s'.owner k = s.owner k
  registered : ∀ k : Nat, (s'.socketInfo[k]?).isSome = (s.socketInfo[k]?).isSome
  socket : ∀ (k : Nat) (info' : Socket), s'.socketInfo[k]? = some info' →
    ∃ info, s.socketInfo[k]? = some info ∧ Grown s.kernel.accepted info info'
  log : ∃ events, s'.log = s.log ++ events ∧ ∀ e ∈ events, Written s e
  tasks : ∀ w, ∀ task ∈ s'.frameTasks w, task ∈ s.frameTasks w ∨
    ∃ conn, task.conn = some conn ∧ s.kernel.fds task.sock = some conn

theorem mem_clientMap {k : Nat} : k ∈ s.clientMap ↔ (s.owner k).isSome := by
  rw [Std.TreeMap.mem_iff_isSome_getElem?, owner, Option.isSome_map]

theorem mem_socketInfo {k : Nat} : k ∈ s.socketInfo ↔ (s.socketInfo[k]?).isSome :=
  Std.TreeMap.mem_iff_isSome_getElem?

theorem Quiet.mem_clientMap (h : Quiet s s') (k : Nat) : k ∈ s'.clientMap ↔ k ∈ s.clientMap := by
  rw [Server.mem_clientMap, Server.mem_clientMap, h.owner]

theorem Quiet.mem_socketInfo (h : Quiet s s') (k : Nat) : k ∈ s'.socketInfo ↔ k ∈ s.socketInfo := by
  rw [Server.mem_socketInfo, Server.mem_socketInfo, h.registered]

/-! ## Composition -/

theorem Grown.refl (accepted : Nat) (info : Socket) : Grown accepted info info :=
  fun node h => Or.inl ⟨node, h, rfl⟩

theorem Grown.trans {accepted : Nat} {a b c : Socket} (hab : Grown accepted a b)
    (hbc : Grown accepted b c) : Grown accepted a c := by
  intro node hnode
  rcases hbc node hnode with ⟨mid, hmid, htag⟩ | hnew
  · rw [← htag]
    exact hab mid hmid
  · exact Or.inr hnew

theorem Quiet.refl (s : Server ω) : Quiet s s :=
  ⟨rfl, rfl, fun _ => rfl, fun _ => rfl, fun _ info h => ⟨info, h, Grown.refl _ info⟩,
    ⟨[], by simp, by simp⟩, fun _ _ h => Or.inl h⟩

theorem Quiet.written (h : Quiet s s') {e : Event} (he : Written s' e) : Written s e := by
  cases e with
  | received conn bytes => exact trivial
  | queued conn source bytes => exact trivial
  | sent conn made bytes =>
      obtain ⟨fd, info', hfd, hinfo', hmade⟩ := he
      obtain ⟨info, hinfo, hgrown⟩ := h.socket fd info' hinfo'
      rw [h.fds] at hfd
      rw [h.accepted] at hmade
      refine ⟨fd, info, hfd, hinfo, ?_⟩
      rcases hmade with ⟨node, hnode, rfl⟩ | hnew
      · exact hgrown node hnode
      · exact Or.inr hnew

theorem Quiet.trans (h : Quiet s s') (h' : Quiet s' s'') : Quiet s s'' := by
  obtain ⟨events, hlog, hwritten⟩ := h.log
  obtain ⟨events', hlog', hwritten'⟩ := h'.log
  refine ⟨h'.fds.trans h.fds, h'.accepted.trans h.accepted,
    fun k => (h'.owner k).trans (h.owner k), fun k => (h'.registered k).trans (h.registered k),
    fun k info'' hinfo'' => ?_, ⟨events ++ events', ?_, ?_⟩, fun w task htask => ?_⟩
  · obtain ⟨info', hinfo', hgrown'⟩ := h'.socket k info'' hinfo''
    obtain ⟨info, hinfo, hgrown⟩ := h.socket k info' hinfo'
    rw [h.accepted] at hgrown'
    exact ⟨info, hinfo, hgrown.trans hgrown'⟩
  · rw [hlog', hlog, List.append_assoc]
  · intro e he
    rcases List.mem_append.mp he with he | he
    · exact hwritten e he
    · exact h.written (hwritten' e he)
  · rcases h'.tasks w task htask with hold | hnew
    · exact h.tasks w task hold
    · rw [h.fds] at hnew
      exact Or.inr hnew

theorem Quiet.foldl {α : Type} {f : Server ω → α → Server ω} (hf : ∀ s a, Quiet s (f s a))
    (s : Server ω) (l : List α) : Quiet s (l.foldl f s) := by
  induction l generalizing s with
  | nil => exact Quiet.refl s
  | cons a l ih => exact (hf s a).trans (ih (f s a))

/-! ## The pieces -/

theorem Quiet.of_eq (hfds : s'.kernel.fds = s.kernel.fds)
    (haccepted : s'.kernel.accepted = s.kernel.accepted) (hclients : s'.clientMap = s.clientMap)
    (hsockets : s'.socketInfo = s.socketInfo) (hlog : s'.log = s.log)
    (htasks : s'.frameTasks = s.frameTasks) : Quiet s s' := by
  refine ⟨hfds, haccepted, fun k => by unfold Server.owner; rw [hclients], fun k => by rw [hsockets],
    fun k info h => ?_, ⟨[], by rw [hlog, List.append_nil], by simp⟩, fun w task h => ?_⟩
  · rw [hsockets] at h
    exact ⟨info, h, Grown.refl _ info⟩
  · rw [htasks] at h
    exact Or.inl h

/-- A client that is there has changed in itself. -/
theorem quiet_client {sock : Nat} {client : ClientInfo} (client' : ClientInfo)
    (h : s.clientMap[sock]? = some client) (hconn : client'.conn = client.conn) :
    Quiet s { s with clientMap := s.clientMap.insert sock client' } := by
  refine ⟨rfl, rfl, fun k => ?_, fun k => rfl, fun k info h => ⟨info, h, Grown.refl _ info⟩,
    ⟨[], by simp, by simp⟩, fun _ _ h => Or.inl h⟩
  simp only [owner, get_insert]
  split
  · rename_i heq
    subst heq
    rw [h, Option.map_some, Option.map_some, hconn]
  · rfl

/-- A socket that is there has changed in itself; its bytes may have been written. -/
theorem quiet_socket {sock : Nat} {info : Socket} (info' : Socket) (events : List Event)
    (h : s.socketInfo[sock]? = some info) (hgrown : Grown s.kernel.accepted info info')
    (hevents : ∀ e ∈ events, Written s e) :
    Quiet s { s with socketInfo := s.socketInfo.insert sock info', log := s.log ++ events } := by
  refine ⟨rfl, rfl, fun k => rfl, fun k => ?_, fun k info'' h'' => ?_, ⟨events, rfl, hevents⟩,
    fun _ _ h => Or.inl h⟩
  · simp only [get_insert]
    split
    · rename_i heq
      subst heq
      rw [h, Option.isSome_some, Option.isSome_some]
    · rfl
  · simp only [get_insert] at h''
    split at h''
    · rename_i heq
      subst heq
      cases h''
      exact ⟨info, h, hgrown⟩
    · exact ⟨info'', h'', Grown.refl _ info''⟩

theorem quiet_addSendTask (s : Server ω) (sock : Nat) : Quiet s (s.addSendTask sock) :=
  Quiet.of_eq rfl rfl rfl rfl rfl rfl

theorem mem_addTask {α : Type} {queues : Nat → List α} {id w : Nat} {task t : α}
    (h : t ∈ addTask queues id task w) : t ∈ queues w ∨ t = task := by
  unfold addTask at h
  rw [Function.update_apply] at h
  split at h
  · rename_i hw
    rw [hw]
    rcases List.mem_append.mp h with hold | hnew
    · exact Or.inl hold
    · exact Or.inr (List.mem_singleton.mp hnew)
  · exact Or.inl h

theorem quiet_addFrameProcTask {sock : Nat} {conn : Conn} (hopen : s.kernel.fds sock = some conn)
    (frame : Block) (len : Int) : Quiet s (s.addFrameProcTask sock frame len) := by
  refine ⟨rfl, rfl, fun _ => rfl, fun _ => rfl, fun _ info h => ⟨info, h, Grown.refl _ info⟩,
    ⟨[], by simp [addFrameProcTask], by simp⟩, fun w task htask => ?_⟩
  rcases mem_addTask htask with hold | hnew
  · exact Or.inl hold
  · rw [hnew]
    exact Or.inr ⟨conn, hopen, hopen⟩

theorem quiet_addFrameProcTasks (s : Server ω) {sock : Nat} {conn : Conn}
    (hopen : s.kernel.fds sock = some conn) (queued : List (Block × Int)) :
    Quiet s (queued.foldl (fun s t => s.addFrameProcTask sock t.1 t.2) s) := by
  induction queued generalizing s with
  | nil => exact Quiet.refl s
  | cons t queued ih =>
      exact (quiet_addFrameProcTask hopen t.1 t.2).trans (ih _ hopen)

/-! ## The functions of the tables -/

theorem quiet_sendData (s : Server ω) (sock : Nat) (buffer : List UInt8) (len : Int)
    (backfun : Bool) (source : Option Conn) :
    Quiet s (s.sendData env sock buffer len backfun source).1 := by
  unfold sendData
  split
  · exact Quiet.refl s
  · split
    · exact Quiet.of_eq rfl rfl rfl rfl rfl rfl
    · rename_i buf world _
      split
      · exact Quiet.of_eq rfl rfl rfl rfl rfl rfl
      · rename_i info hinfo
        have hworld : Quiet s { s with world } := Quiet.of_eq rfl rfl rfl rfl rfl rfl
        have hpush := quiet_socket (s := { s with world })
          (info.push (.new (buf.put (buffer.take len.toNat)) len.toNat backfun s.kernel.accepted))
          [.queued (s.kernel.fds sock) source
            ((buf.put (buffer.take len.toNat)).toList.take len.toNat)]
          hinfo
          (by
            intro node hnode
            rcases List.mem_append.mp hnode with hold | hnew
            · exact Or.inl ⟨node, hold, rfl⟩
            · rw [List.mem_singleton.mp hnew]
              exact Or.inr rfl)
          (by
            intro e he
            rw [List.mem_singleton.mp he]
            exact trivial)
        dsimp only
        split
        · exact (hworld.trans hpush).trans (quiet_addSendTask _ _)
        · exact hworld.trans hpush

theorem quiet_epollCtlMod (s : Server ω) (sock : Nat) (enable : Bool) :
    Quiet s (s.epollCtlMod env sock enable).1 := by
  unfold epollCtlMod
  split <;> exact Quiet.of_eq rfl rfl rfl rfl rfl rfl

theorem quiet_modifyRead (s : Server ω) (sock : Nat) (enable : Bool) :
    Quiet s (s.modifyRead env sock enable).1 := by
  unfold modifyRead
  split
  · exact Quiet.refl s
  · rename_i info hinfo
    split
    · exact Quiet.refl s
    · have hflag := quiet_socket { info with enableRead := enable } [] hinfo (Grown.refl _ info)
        (by simp)
      rw [List.append_nil] at hflag
      exact hflag.trans (quiet_epollCtlMod _ _ _)

theorem modifyRead_clientMap (s : Server ω) (sock : Nat) (enable : Bool) :
    (s.modifyRead env sock enable).1.clientMap = s.clientMap := by
  unfold modifyRead
  split
  · rfl
  · split
    · rfl
    · unfold epollCtlMod
      split <;> rfl

/-- What counting leaves behind: nothing without a client; else a client with another count, and the
reading of the socket as it was or switched. -/
inductive Recounted (env : World ω) (s : Server ω) (sock : Nat) : Server ω → Prop where
  | missing : Recounted env s sock s
  | counted (client : ClientInfo) (frameCount : Int) (hclient : s.clientMap[sock]? = some client) :
      Recounted env s sock
        { s with clientMap := s.clientMap.insert sock { client with frameCount } }
  | switched (client : ClientInfo) (frameCount : Int) (enable : Bool)
      (hclient : (s.modifyRead env sock enable).1.clientMap[sock]? = some client) :
      Recounted env s sock
        { (s.modifyRead env sock enable).1 with
          clientMap := (s.modifyRead env sock enable).1.clientMap.insert sock
            { client with frameCount, enableRead := enable } }

theorem recounted_increase (s : Server ω) (sock : Nat) (count : Int) :
    Recounted env s sock (s.increaseFrameCount env sock count).1 := by
  unfold increaseFrameCount
  split
  · exact .missing
  · rename_i client hclient
    dsimp only
    split
    · apply Recounted.switched client _ false
      rw [modifyRead_clientMap]
      exact hclient
    · exact .counted client _ hclient

theorem recounted_decrease (s : Server ω) (sock : Nat) :
    Recounted env s sock (s.decreaseFrameCount env sock).1 := by
  unfold decreaseFrameCount
  split
  · exact .missing
  · rename_i client hclient
    dsimp only
    split
    · apply Recounted.switched client _ true
      rw [modifyRead_clientMap]
      exact hclient
    · exact .counted client _ hclient

theorem Recounted.quiet {sock : Nat} (h : Recounted env s sock s') : Quiet s s' := by
  cases h with
  | missing => exact Quiet.refl s
  | counted client frameCount hclient => exact quiet_client _ hclient rfl
  | switched client frameCount enable hclient =>
      exact (quiet_modifyRead s sock enable).trans (quiet_client _ hclient rfl)

theorem quiet_addRecvData (s : Server ω) {sock : Nat} {conn : Conn}
    (hopen : s.kernel.fds sock = some conn) (buff : ReadBuff) : Quiet s (s.addRecvData env sock buff).1 := by
  unfold addRecvData
  split
  · exact Quiet.refl s
  · rename_i client hclient
    let r := client.frameRestruct.call env.getBuff s.world buff
    have hworld : Quiet s { s with world := r.pool } := Quiet.of_eq rfl rfl rfl rfl rfl rfl
    have hparsed := quiet_client (s := { s with world := r.pool })
      { client with frameRestruct := client.frameRestruct.next env.getBuff s.world buff } hclient rfl
    refine ((hworld.trans hparsed).trans ?_).trans (recounted_increase _ _ _).quiet
    apply quiet_addFrameProcTasks
    exact hopen

end Server

end CmdTran
