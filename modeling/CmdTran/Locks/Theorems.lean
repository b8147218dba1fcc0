import CmdTran.Locks.Basic

/-!
# No deadlock, and one thread at a time

Only two mutexes are held while another is taken: `ClientMapLock` around `EnableRead` and `DisableRead`, and
`m_SendingListLock` around `AddTask`. In whatever order the threads go, one that waits for a mutex waits for
a thread that goes on, or for one that waits for such a thread; and what a mutex guards is accessed by the
thread that has it.
-/

namespace CmdTran

open LockProgram

/-- `ClientMap` and the last three are also accessed without a lock, so nothing guards them. -/
def lockDiscipline : LockDiscipline Mutex Shared where
  rank
    | .clientMapLock | .sendingListLock => 0
    | .socketInfoLock | .outputChainLock _ | .taskListLock _ _ => 1
  guard
    | .clientMap | .socketEntry | .currSendState _ | .deletion _ => none
    | .socketInfo => some .socketInfoLock
    | .outputChain info => some (.outputChainLock info)
    | .taskList manager w => some (.taskListLock manager w)

namespace Locks

variable {l k : Mutex} {r : Shared} {held : List Mutex} {p q : LockProgram Mutex Shared}

theorem no_lock_held : ∀ h ∈ ([] : List Mutex), lockDiscipline.rank h < lockDiscipline.rank l :=
  fun _ hh => absurd hh List.not_mem_nil

theorem below (hkl : lockDiscipline.rank k < lockDiscipline.rank l) :
    ∀ h ∈ [k], lockDiscipline.rank h < lockDiscipline.rank l := by
  intro h hmem
  rw [List.mem_singleton.mp hmem]
  exact hkl

/-- The lock that was taken last is the one that guards the access. -/
theorem use_under (h : lockDiscipline.guard r = some l) :
    (use r : LockProgram Mutex Shared).Proper lockDiscipline (l :: held) (l :: held) := by
  apply proper_use
  intro k hk
  cases h.symm.trans hk
  exact List.mem_cons_self

/-- What no lock guards may be used with any. -/
theorem use_free (h : lockDiscipline.guard r = none) :
    (use r : LockProgram Mutex Shared).Proper lockDiscipline held held := by
  apply proper_use
  intro k hk
  cases h.symm.trans hk

/-- Under the lock, and out of it on one of two ways. -/
theorem proper_lookup (h : ∀ h ∈ held, lockDiscipline.rank h < lockDiscipline.rank l)
    (huse : (use r : LockProgram Mutex Shared).Proper lockDiscipline (l :: held) (l :: held))
    (hp : p.Proper lockDiscipline (l :: held) held) : (lookup l r p).Proper lockDiscipline held held :=
  proper_seq (proper_lock h) (proper_seq huse (proper_either proper_unlock hp))

/-- From no mutex to no mutex. -/
def Clean (p : LockProgram Mutex Shared) : Prop := p.Proper lockDiscipline [] []

namespace Clean

theorem skip : Clean skip := rfl

/-- The mutex is given back before anything else. -/
theorem after_unlock (hp : Clean p) : (LockProgram.seq (unlock l) p).Proper lockDiscipline [l] [] :=
  proper_seq proper_unlock hp

theorem either (hp : Clean p) (hq : Clean q) : Clean (either p q) := proper_either hp hq

theorem seq (hp : Clean p) (hq : Clean q) : Clean (.seq p q) := proper_seq hp hq

theorem loop (hp : Clean p) : Clean (.loop p) := proper_loop hp

theorem choice {p : Nat → LockProgram Mutex Shared} (hp : ∀ n, Clean (p n)) : Clean (.choice p) := hp

/-- One access under its lock. -/
theorem locked_use (h : lockDiscipline.guard r = some l) : Clean (locked l (use r)) :=
  proper_locked no_lock_held (use_under h)

theorem lookup_client (hp : p.Proper lockDiscipline [.clientMapLock] []) :
    Clean (lookup .clientMapLock .clientMap p) :=
  proper_lookup no_lock_held (use_free rfl) hp

theorem lookup_socket (hp : p.Proper lockDiscipline [.socketInfoLock] []) :
    Clean (lookup .socketInfoLock .socketInfo p) :=
  proper_lookup no_lock_held (use_under rfl) hp

end Clean

/-! ## The functions -/

theorem clean_addTask (manager : Manager) (id : Nat) : Clean (addTask manager id) := Clean.locked_use rfl

theorem clean_getTask (manager : Manager) (w : Nat) : Clean (getTask manager w) :=
  have huse : (use (.taskList manager w) : LockProgram Mutex Shared).Proper lockDiscipline
      [.taskListLock manager w] [.taskListLock manager w] := use_under rfl
  have hwait : (condWait (.taskListLock manager w)).Proper lockDiscipline [.taskListLock manager w]
      [.taskListLock manager w] :=
    proper_seq proper_unlock (proper_seq proper_sleep (proper_lock no_lock_held))
  proper_locked no_lock_held
    (proper_seq (proper_loop (proper_seq huse hwait)) (proper_seq huse (proper_either rfl huse)))

theorem clean_threadRoutine (manager : Manager) (w : Nat) (hp : Clean p) :
    Clean (threadRoutine manager w p) :=
  have hturn : Clean (seq (getTask manager w) (either skip p)) :=
    (clean_getTask manager w).seq (Clean.skip.either hp)
  hturn.loop.seq (clean_getTask manager w)

/-- Alone and under `ClientMapLock`. -/
theorem proper_modifyRead
    (h : ∀ h ∈ held, lockDiscipline.rank h < lockDiscipline.rank .socketInfoLock) :
    modifyRead.Proper lockDiscipline held held :=
  proper_lookup h (use_under rfl) (proper_either proper_unlock (proper_seq (use_under rfl) proper_unlock))

/-- The pool's mutex is taken under `m_SendingListLock`. -/
theorem clean_queueSend (sock : Nat) : Clean (queueSend sock) :=
  proper_locked no_lock_held (proper_locked (below Nat.one_pos) (use_under rfl))

theorem clean_throughEntry {info : Nat}
    (hp : p.Proper lockDiscipline [.outputChainLock info] [.outputChainLock info]) :
    Clean (throughEntry info p) :=
  have hunder : (seq (use .socketEntry) (seq p (use .socketEntry))).Proper lockDiscipline
      [.outputChainLock info] [.outputChainLock info] :=
    proper_seq (use_free rfl) (proper_seq hp (use_free rfl))
  proper_seq (use_free rfl) (proper_locked no_lock_held hunder)

theorem clean_sendData (sock : Nat) : Clean (sendData sock) :=
  Clean.skip.either <| Clean.lookup_socket fun info =>
    have hqueue : Clean (seq (use (.currSendState info)) (either skip (queueSend sock))) :=
      proper_seq (use_free rfl) (Clean.skip.either (clean_queueSend sock))
    Clean.after_unlock
      ((clean_throughEntry (use_under rfl)).seq (proper_seq (use_free rfl) hqueue))

theorem clean_removeSocket : Clean removeSocket :=
  Clean.lookup_socket fun info =>
    have hdrain : Clean (locked (.outputChainLock info) (loop (use (.outputChain info)))) :=
      proper_locked no_lock_held (proper_loop (use_under rfl))
    proper_seq (use_under rfl) (Clean.after_unlock (hdrain.seq (use_free rfl)))

theorem clean_sendTask : Clean sendTask :=
  Clean.lookup_socket fun info =>
    have hround : (sendRound info).Proper lockDiscipline [.outputChainLock info] [.outputChainLock info] :=
      proper_seq (use_free rfl) (proper_seq (use_under rfl)
        (proper_either rfl (proper_seq (use_free rfl) (use_free rfl))))
    Clean.after_unlock (clean_throughEntry (proper_loop hround))

theorem clean_quitClient : Clean quitClient :=
  Clean.lookup_client (proper_seq (use_free rfl) proper_unlock)

theorem clean_changeFrameCount : Clean changeFrameCount :=
  Clean.lookup_client (proper_seq (proper_either rfl (proper_modifyRead (below Nat.one_pos))) proper_unlock)

theorem clean_addRecvData (sock : Nat) : Clean (addRecvData sock) :=
  have hframes : Clean (restructFrame sock) := (clean_addTask .frame sock).loop
  Clean.lookup_client
    (Clean.after_unlock (proper_seq (use_free rfl) (hframes.seq clean_changeFrameCount)))

theorem clean_newClient (sock : Nat) : Clean (newClient sock) :=
  Clean.skip.either
    (Clean.lookup_client (Clean.after_unlock ((clean_sendData sock).seq (use_free rfl))))

theorem clean_picDataRecv : Clean picDataRecv :=
  have hround : Clean (seq (use .clientMap) (either skip (choice sendData))) :=
    Clean.seq (use_free rfl) (Clean.skip.either (Clean.choice clean_sendData))
  proper_seq (use_free rfl) (Clean.skip.either hround.loop)

theorem clean_commandProc (sock : Nat) : Clean (commandProc sock) := by
  apply Clean.either
  · exact (clean_newClient sock).seq (Clean.skip.either clean_quitClient)
  · apply Clean.either
    · exact Clean.lookup_client (Clean.after_unlock (use_free rfl))
    · exact clean_picDataRecv.either Clean.skip

theorem clean_frameTask (sock : Nat) : Clean (frameTask sock) :=
  (clean_commandProc sock).seq clean_changeFrameCount

theorem clean_processRecvData (sock : Nat) : Clean (processRecvData sock) :=
  (clean_addRecvData sock).loop.seq ((clean_quitClient.seq clean_removeSocket).either Clean.skip)

theorem clean_accept : Clean accept :=
  have hclient : Clean addClient := proper_locked no_lock_held (use_free rfl)
  Clean.skip.either ((Clean.locked_use rfl).seq hclient)

theorem clean_epollOut (sock : Nat) : Clean (epollOut sock) :=
  Clean.lookup_socket fun _ => proper_seq (use_free rfl) (Clean.after_unlock (clean_queueSend sock))

theorem clean_processRecvEnts (sock : Nat) : Clean (processRecvEnts sock) := by
  apply Clean.either
  · exact clean_accept
  · apply Clean.either
    · exact clean_processRecvData sock
    · exact (clean_epollOut sock).either clean_quitClient

theorem clean_eventRecvFun : Clean eventRecvFun :=
  have hround : Clean (seq sleep (loop (choice (addTask .recv)))) :=
    proper_seq proper_sleep (Clean.choice (clean_addTask .recv)).loop
  Clean.skip.either hround.loop

theorem clean_program (t : ServerThread) : Clean (program t) := by
  cases t with
  | epoll => exact clean_eventRecvFun
  | worker manager w =>
      cases manager with
      | recv => exact clean_threadRoutine .recv w (Clean.choice clean_processRecvEnts)
      | frame => exact clean_threadRoutine .frame w (Clean.choice clean_frameTask)
      | send => exact clean_threadRoutine .send w clean_sendTask

/-! ## Main results -/

/-- A worker has got a task and does then what `ways` says. -/
def working (t : ServerThread) (ways : List Nat) : List (ServerThread × Nat) :=
  ([0, 1, 0, 0, 0, 0, 0, 0, 0, 0, 1, 0, 0, 1] ++ ways).map (t, ·)

/-- In every state that the threads reach, whoever accesses what a mutex guards has this mutex, and is the only
one to access it. -/
theorem exclusive_of_run {as : List (ServerThread × Nat)} {s : LockThreads ServerThread Mutex Shared}
    (hr : serverLocks.run serverLocks.start as = some s) {r : Shared} {l : Mutex}
    (hguard : lockDiscipline.guard r = some l) (t : ServerThread) (ht : s.Uses t r) :
    s.holder l = some t ∧ ∀ t', s.Uses t' r → t' = t := by
  have hinv := LockThreads.inv_of_run clean_program hr
  have hholder := hinv.holder_of_uses hguard ht
  refine ⟨hholder, fun t' ht' => ?_⟩
  exact Option.some.inj ((hinv.holder_of_uses hguard ht').symm.trans hholder)

/-- A send worker has found its socket. -/
theorem exclusive_of_run_sendTask : ∃ s,
    serverLocks.run serverLocks.start (working (.worker .send 0) [0, 0, 0]) = some s ∧
      ∀ t, s.Uses t .socketInfo → t = .worker .send 0 :=
  ⟨_, rfl, (@exclusive_of_run (working (.worker .send 0) [0, 0, 0]) _ rfl .socketInfo .socketInfoLock rfl
    (.worker .send 0) ⟨_, rfl⟩).2⟩

/-- A send worker has found its socket and given `m_SocketInfoLock` back, and a recv worker is about to erase the
entry. -/
def erasing : List (ServerThread × Nat) :=
  working (.worker .send 0) [0, 0, 0, 0, 1, 7, 0, 0, 0] ++
    working (.worker .recv 1) [5, 1, 0, 0, 0, 0, 0, 0, 0, 0, 0, 0, 0, 0, 0, 0, 0, 1, 7, 0]

/-- The recv worker has emptied the chain, and the send worker has its lock. -/
def deleting : List (ServerThread × Nat) :=
  erasing ++ [0, 0, 0, 0, 0, 0, 0, 0, 0].map (.worker .recv 1, ·) ++
    [0, 0, 0, 0, 0, 0, 0, 1, 0, 0, 0].map (.worker .send 0, ·)

/-- `PicDataRecv` reads `ClientMap` while `QuitClient` erases from it under the lock; an entry of `m_SocketInfo`
is read while `RemoveSocket` erases it; and a socket is deleted while a send task has the lock of its chain. -/
theorem unguarded_shared :
    (∃ s, serverLocks.run serverLocks.start (working (.worker .frame 0) [5, 0, 1, 1, 0, 0] ++
        working (.worker .recv 1) [5, 1, 1, 1, 0, 0, 0, 0, 1, 0]) = some s ∧
      s.Uses (.worker .frame 0) .clientMap ∧ s.Uses (.worker .recv 1) .clientMap ∧
      s.holder .clientMapLock = some (.worker .recv 1)) ∧
    (∃ s, serverLocks.run serverLocks.start erasing = some s ∧
      s.Uses (.worker .send 0) .socketEntry ∧ s.Uses (.worker .recv 1) .socketInfo) ∧
    ∃ s, serverLocks.run serverLocks.start deleting = some s ∧
      s.Uses (.worker .send 0) (.outputChain 7) ∧ s.Uses (.worker .recv 1) (.deletion 7) :=
  ⟨⟨_, rfl, ⟨_, rfl⟩, ⟨_, rfl⟩, rfl⟩, ⟨_, rfl, ⟨_, rfl⟩, ⟨_, rfl⟩⟩, _, rfl, ⟨_, rfl⟩, ⟨_, rfl⟩⟩

end Locks

end CmdTran
