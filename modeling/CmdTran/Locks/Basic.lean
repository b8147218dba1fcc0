import CmdTran.Dispatch.Startup
import CmdTran.Lib.Locks

/-!
# The mutexes of the server

What the threads of the server do with its mutexes, function by function: each `pthread_mutex_lock` and
`pthread_mutex_unlock` on each way through the source is here with the accesses to the maps, chains and task
lists between them, and what decides between the ways is left open. The queues of `CMemPool` have no mutex,
and their waiting is not a matter of this module.
-/

namespace CmdTran

open LockProgram Server

/-- `OutputChainLock` is named by the address of its `SocketInformation`, `TaskListLock` by its pool and the
worker there. -/
inductive Mutex where
  | clientMapLock
  | socketInfoLock
  | outputChainLock (info : Nat)
  | sendingListLock
  | taskListLock (manager : Manager) (w : Nat)
  deriving DecidableEq

/-- `ClientMap`, `m_SocketInfo`, an `OutputChain` and a `TaskList`; and what is not done under a mutex of its
own: to read `it->second` of an entry that was found in `m_SocketInfo`, to read or set a `CurrSendState`, and to
delete a `SocketInformation`, with what is left of its chain. -/
inductive Shared where
  | clientMap
  | socketInfo
  | outputChain (info : Nat)
  | taskList (manager : Manager) (w : Nat)
  | socketEntry
  | currSendState (info : Nat)
  | deletion (info : Nat)
  deriving DecidableEq

namespace Locks

/-! ## Thread pools -/

def addTask (manager : Manager) (id : Nat) : LockProgram Mutex Shared :=
  locked (.taskListLock manager (worker id)) (use (.taskList manager (worker id)))

/-- `pthread_cond_wait` gives its mutex back and has it again when it returns. -/
def condWait (l : Mutex) : LockProgram Mutex Shared := seq (unlock l) (seq sleep (lock l))

/-- The list is tested before each wait and after the last one; a task is taken unless `RuningFlag` is false. -/
def getTask (manager : Manager) (w : Nat) : LockProgram Mutex Shared :=
  locked (.taskListLock manager w)
    (seq (loop (seq (use (.taskList manager w)) (condWait (.taskListLock manager w))))
      (seq (use (.taskList manager w)) (either skip (use (.taskList manager w)))))

/-- The last `GetTask` is the one after which `RuningFlag` is false. -/
def threadRoutine (manager : Manager) (w : Nat) (processTask : LockProgram Mutex Shared) : LockProgram Mutex Shared :=
  seq (loop (seq (getTask manager w) (either skip processTask))) (getTask manager w)

/-! ## `CEpollServer` -/

/-- Under the lock an entry is looked for; without it there is nothing to do. -/
def lookup (l : Mutex) (map : Shared) (found : LockProgram Mutex Shared) : LockProgram Mutex Shared :=
  seq (lock l) (seq (use map) (either (unlock l) found))

/-- With `EnableRead` as asked for there is nothing to do either. -/
def modifyRead : LockProgram Mutex Shared :=
  lookup .socketInfoLock .socketInfo
    (either (unlock .socketInfoLock) (seq (use .socketInfo) (unlock .socketInfoLock)))

/-- A task for the socket in `SendThreadManager`. -/
def queueSend (sock : Nat) : LockProgram Mutex Shared := locked .sendingListLock (addTask .send sock)

/-- The part of `SendData` and of a send task under `OutputChainLock`. `m_SocketInfoLock` has been given back,
and each use of `it->second` reads the entry again; it is taken to be the same socket each time. -/
def throughEntry (info : Nat) (p : LockProgram Mutex Shared) : LockProgram Mutex Shared :=
  seq (use .socketEntry)
    (locked (.outputChainLock info) (seq (use .socketEntry) (seq p (use .socketEntry))))

/-- Before the lookup a buffer may be refused; after it the socket's state may be waiting. -/
def sendData (sock : Nat) : LockProgram Mutex Shared :=
  either skip
    (lookup .socketInfoLock .socketInfo
      (choice fun info => seq (unlock .socketInfoLock)
        (seq (throughEntry info (use (.outputChain info)))
          (seq (use .socketEntry) (seq (use (.currSendState info)) (either skip (queueSend sock)))))))

/-- The entry is erased, then its chain is emptied; the socket is deleted without a lock. -/
def removeSocket : LockProgram Mutex Shared :=
  lookup .socketInfoLock .socketInfo
    (choice fun info => seq (use .socketInfo) (seq (unlock .socketInfoLock)
      (seq (locked (.outputChainLock info) (loop (use (.outputChain info)))) (use (.deletion info)))))

/-- A round of the send loop; after a short `send` the state is set to waiting. -/
def sendRound (info : Nat) : LockProgram Mutex Shared :=
  seq (use .socketEntry) (seq (use (.outputChain info))
    (either skip (seq (use .socketEntry) (use (.currSendState info)))))

/-- `ProcessTask` of `CSocketSendTask`; the loop over the chain is under its lock. -/
def sendTask : LockProgram Mutex Shared :=
  lookup .socketInfoLock .socketInfo
    (choice fun info => seq (unlock .socketInfoLock) (throughEntry info (loop (sendRound info))))

/-! ## `CRecvDataProc` -/

def addClient : LockProgram Mutex Shared := locked .clientMapLock (use .clientMap)

def quitClient : LockProgram Mutex Shared :=
  lookup .clientMapLock .clientMap (seq (use .clientMap) (unlock .clientMapLock))

/-- `IncreaseFrameCount` and `DecreaseFrameCount`: `DisableRead` or `EnableRead` is under the lock. -/
def changeFrameCount : LockProgram Mutex Shared :=
  lookup .clientMapLock .clientMap (seq (either skip modifyRead) (unlock .clientMapLock))

def increaseFrameCount : LockProgram Mutex Shared := changeFrameCount

def decreaseFrameCount : LockProgram Mutex Shared := changeFrameCount

def addFrameProcTask (sock : Nat) : LockProgram Mutex Shared := addTask .frame sock

/-- `SaveFrame` adds a task for each frame that it gets a block for. -/
def restructFrame (sock : Nat) : LockProgram Mutex Shared := loop (addFrameProcTask sock)

/-- The entry of the client is read without the lock. -/
def addRecvData (sock : Nat) : LockProgram Mutex Shared :=
  lookup .clientMapLock .clientMap
    (seq (unlock .clientMapLock) (seq (use .clientMap) (seq (restructFrame sock) increaseFrameCount)))

/-- A frame with another client type is refused first. At the end the entry is read for `LogInf`. -/
def newClient (sock : Nat) : LockProgram Mutex Shared :=
  either skip
    (lookup .clientMapLock .clientMap
      (seq (unlock .clientMapLock) (seq (sendData sock) (use .clientMap))))

def resetCameraId : LockProgram Mutex Shared :=
  lookup .clientMapLock .clientMap (seq (unlock .clientMapLock) (use .clientMap))

/-- `ClientMap` is read without its lock, first the sender's entry and then all. -/
def picDataRecv : LockProgram Mutex Shared :=
  seq (use .clientMap) (either skip (loop (seq (use .clientMap) (either skip (choice sendData)))))

def commandProc (sock : Nat) : LockProgram Mutex Shared :=
  either (seq (newClient sock) (either skip quitClient))
    (either resetCameraId (either picDataRecv skip))

/-- `ProcessTask` of `CFrameProcTask`. -/
def frameTask (sock : Nat) : LockProgram Mutex Shared := seq (commandProc sock) decreaseFrameCount

/-! ## Events -/

/-- Until `read` gives 0 or fails. -/
def processRecvData (sock : Nat) : LockProgram Mutex Shared :=
  seq (loop (addRecvData sock)) (either (seq quitClient removeSocket) skip)

/-- A connection that the epoll set takes has its entry in both maps. -/
def accept : LockProgram Mutex Shared :=
  either skip (seq (locked .socketInfoLock (use .socketInfo)) addClient)

def epollOut (sock : Nat) : LockProgram Mutex Shared :=
  lookup .socketInfoLock .socketInfo
    (choice fun info => seq (use (.currSendState info)) (seq (unlock .socketInfoLock) (queueSend sock)))

def processRecvEnts (sock : Nat) : LockProgram Mutex Shared :=
  either accept (either (processRecvData sock) (either (epollOut sock) quitClient))

/-- `epoll_wait` is a sleep; without a listen socket the thread ends. -/
def eventRecvFun : LockProgram Mutex Shared :=
  either skip (loop (seq sleep (loop (choice (addTask .recv)))))

/-! ## The threads -/

inductive ServerThread where
  | epoll
  | worker (manager : Manager) (w : Nat)
  deriving DecidableEq

/-- Each worker runs the tasks of its pool for any sockets. -/
def program : ServerThread → LockProgram Mutex Shared
  | .epoll => eventRecvFun
  | .worker .recv w => threadRoutine .recv w (choice processRecvEnts)
  | .worker .frame w => threadRoutine .frame w (choice frameTask)
  | .worker .send w => threadRoutine .send w sendTask

def serverLocks : StepSystem (LockThreads ServerThread Mutex Shared) (ServerThread × Nat) := lockThreads program

end Locks

end CmdTran
