import CmdTran.Custody.Basic

/-!
# What a step of a worker can be
-/

namespace CmdTran

namespace FrameBlocks

open Server (worker)

variable {sockOf : Conn → Nat} {s s' : FrameBlocks}

/-- What a step can be. -/
inductive Move (sockOf : Conn → Nat) (s : FrameBlocks) : FrameBlocks → Prop where
  | read (conn : Conn) (buff : ReadBuff) (hidle : s.recv (worker (sockOf conn)) = .idle) :
      Move sockOf s (s.read (worker (sockOf conn)) conn buff)
  | finish (w : Nat) (conn : Conn) (hstage : s.recv w = .saving conn []) : Move sockOf s (s.setRecv w .idle)
  | ask (w : Nat) (conn : Conn) (frame : List UInt8) (frames : List (List UInt8)) (users : PoolUsers Worker)
      (hstage : s.recv w = .saving conn (frame :: frames))
      (husers : s.users.step (.getBlock (.recv w)) = some users) :
      Move sockOf s ({ s with users }.setRecv w (.getting conn frame frames))
  | wait (w : Nat) (conn : Conn) (frame : List UInt8) (frames : List (List UInt8)) (users : PoolUsers Worker)
      (hstage : s.recv w = .getting conn frame frames)
      (husers : s.users.step (.goOn (.recv w)) = some users)
      (hreturns : s.users.pool.returnsBlock (.recv w) = none) : Move sockOf s { s with users }
  | got (w : Nat) (conn : Conn) (frame : List UInt8) (frames : List (List UInt8)) (users : PoolUsers Worker)
      (ret : Option Nat) (hstage : s.recv w = .getting conn frame frames)
      (husers : s.users.step (.goOn (.recv w)) = some users)
      (hreturns : s.users.pool.returnsBlock (.recv w) = some ret) :
      Move sockOf s ({ s with users }.gotBlock w (sockOf conn) conn frame frames ret)
  | copy (w : Nat) (task : BlockTask) (frames : List (List UInt8)) (hstage : s.recv w = .copying task frames) :
      Move sockOf s ((s.copy task).setRecv w (.queueing task frames))
  | queue (w : Nat) (task : BlockTask) (frames : List (List UInt8)) (hstage : s.recv w = .queueing task frames) :
      Move sockOf s ({ s with queues := Server.addTask s.queues task.sock task }.setRecv w
        (.saving task.conn frames))
  | take (w : Nat) (task : BlockTask) (tasks : List BlockTask) (hstage : s.work w = .idle)
      (hqueue : s.queues w = task :: tasks) :
      Move sockOf s ({ s with queues := Function.update s.queues w tasks }.setWork w (.handling task))
  | handle (w : Nat) (task : BlockTask) (hstage : s.work w = .handling task) :
      Move sockOf s ({ s with handled := s.handled ++ [(task.conn, s.content task)] }.setWork w (.handled task))
  | free (w : Nat) (task : BlockTask) (users : PoolUsers Worker) (hstage : s.work w = .handled task)
      (husers : s.users.step (.freeBlock (.frame w) task.pFrame) = some users) :
      Move sockOf s ({ s with users }.setWork w .freeing)
  | freeOn (w : Nat) (users : PoolUsers Worker) (stage : WorkStage) (hstage : s.work w = .freeing)
      (husers : s.users.step (.goOn (.frame w)) = some users) (hnext : stage = .freeing ∨ stage = .idle) :
      Move sockOf s ({ s with users }.setWork w stage)

theorem move_of_recvStep {w : Nat} (hs : s.recvStep sockOf w = some s') : Move sockOf s s' := by
  rw [recvStep] at hs
  split at hs
  · cases hs
  · rename_i conn hstage
    cases hs
    exact .finish w conn hstage
  · rename_i conn frame frames hstage
    rw [poolStep, Option.map_map] at hs
    obtain ⟨users, husers, rfl⟩ := Option.map_eq_some_iff.mp hs
    exact .ask w conn frame frames users hstage husers
  · rename_i conn frame frames hstage
    rw [poolStep, Option.map_map] at hs
    obtain ⟨users, husers, rfl⟩ := Option.map_eq_some_iff.mp hs
    dsimp only [Function.comp]
    split
    · rename_i hreturns
      exact .wait w conn frame frames users hstage husers hreturns
    · rename_i ret hreturns
      exact .got w conn frame frames users ret hstage husers hreturns
  · rename_i task frames hstage
    cases hs
    exact .copy w task frames hstage
  · rename_i task frames hstage
    cases hs
    exact .queue w task frames hstage

theorem move_of_frameStep {w : Nat} (hs : s.frameStep w = some s') : Move sockOf s s' := by
  rw [frameStep] at hs
  split at hs
  · rename_i hstage
    split at hs
    · cases hs
    · rename_i task tasks hqueue
      cases hs
      exact .take w task tasks hstage hqueue
  · rename_i task hstage
    cases hs
    exact .handle w task hstage
  · rename_i task hstage
    rw [poolStep, Option.map_map] at hs
    obtain ⟨users, husers, rfl⟩ := Option.map_eq_some_iff.mp hs
    exact .free w task users hstage husers
  · rename_i hstage
    rw [poolStep, Option.map_map] at hs
    obtain ⟨users, husers, rfl⟩ := Option.map_eq_some_iff.mp hs
    dsimp only [Function.comp]
    split
    · exact .freeOn w users .idle hstage husers (.inr rfl)
    · have hsame : ({ s with users }.setWork w .freeing) = { s with users } := by
        rw [setWork, ← hstage, Function.update_eq_self]
      rw [← hsame]
      exact .freeOn w users .freeing hstage husers (.inl rfl)

theorem move_of_step {a : FrameStep} (hs : s.step sockOf a = some s') : Move sockOf s s' := by
  cases a with
  | addRecvData conn buff =>
      rw [step] at hs
      split at hs
      · rename_i hidle
        cases hs
        exact .read conn buff hidle
      · cases hs
  | recv w => exact move_of_recvStep hs
  | frame w => exact move_of_frameStep hs

end FrameBlocks

end CmdTran
