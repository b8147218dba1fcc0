import CmdTran.Flow.Lemmas.View
import CmdTran.Parser.Failures
import CmdTran.Relay.Lemmas.Moves

/-!
# A parser without blocks

A failed `GetBuff` costs its own frame and nothing else: neither the place of the parser in its stream
nor the number that `AddRecvData` counts.
-/

namespace CmdTran

open Server

variable {ω : Type}

/-- `AddRecvData` queues the tasks of its call of `RestructFrame` and counts them. -/
theorem addRecvData_counts (env : World ω) {s : Server ω} {sock : Nat} {client : ClientInfo}
    (hclient : s.clientMap[sock]? = some client) (buff : ReadBuff) :
    ∃ (tasks : List CFrameProcTask) (client' : ClientInfo),
      (s.addRecvData env sock buff).1.frameTasks (worker sock) =
        s.frameTasks (worker sock) ++ tasks ∧
      (s.addRecvData env sock buff).1.clientMap[sock]? = some client' ∧
      client'.frameCount = client.frameCount + tasks.length := by
  let r := client.frameRestruct.call env.getBuff s.world buff
  let client₁ := { client with
    frameRestruct := client.frameRestruct.next env.getBuff s.world buff }
  let tasks := r.queued.map fun t => (⟨sock, t.1, t.2, s.kernel.fds sock⟩ : CFrameProcTask)
  let s₁ : Server ω := { s with
    world := r.pool
    clientMap := s.clientMap.insert sock client₁
    frameTasks := Function.update s.frameTasks (worker sock) (s.frameTasks (worker sock) ++ tasks) }
  have hcall : (s.addRecvData env sock buff).1 = (s₁.increaseFrameCount env sock r.frameCount).1 := by
    rw [addRecvData, hclient]
    dsimp only
    rw [addFrameProcTasks_eq]
  have hcount : r.frameCount = r.queued.length :=
    (client.frameRestruct.call_frameCount env.getBuff s.world buff).1
  have hclient₁ : s₁.clientMap[sock]? = some client₁ := (get_insert _ _ _ _).trans (if_pos rfl)
  obtain ⟨client', hclient', _, hcounted⟩ := get_increaseFrameCount env hclient₁ r.frameCount
  refine ⟨tasks, client', ?_, ?_, ?_⟩
  · rw [hcall, (same_recounted (recounted_increase s₁ sock r.frameCount)).tasks]
    exact Function.update_self _ _ _
  · rw [hcall]
    exact hclient'
  · have hsum : client'.frameCount = client.frameCount + r.frameCount :=
      congrArg FlowClient.frameCount hcounted
    rw [hsum, hcount, List.length_map]

variable {π π₀ : Type} {getBuff : π → Option Block × π} {getBuff₀ : π₀ → Option Block × π₀}

/-- From every state that calls lead to and for every pattern of answers, `RestructFrame` drops the
frames that got no block and is otherwise the call without failures, with exact integers and on the
machine; `AddRecvData` counts what was queued. -/
theorem restructFrame_dropsOnly (hpool₀ : ∀ p, (getBuff₀ p).1 ≠ none) (pool : π) (pool₀ : π₀)
    (recv : List UInt8) (env : World ω) :
    (∀ s, ReachableExact s → ∃ r r₀, restructFrame id getBuff s pool recv = .ok r ∧
      restructFrame id getBuff₀ s pool₀ recv = .ok r₀ ∧ DropsOnly getBuff pool r r₀) ∧
    (∀ s, Reachable int32 FitsInt s → FitsInt s recv →
      ∃ r r₀, restructFrame int32 getBuff s pool recv = .ok r ∧
        restructFrame int32 getBuff₀ s pool₀ recv = .ok r₀ ∧ DropsOnly getBuff pool r r₀) ∧
    ∀ (s : Server ω) (sock : Nat) (client : ClientInfo) (buff : ReadBuff),
      s.clientMap[sock]? = some client → ∃ (tasks : List CFrameProcTask) (client' : ClientInfo),
        (s.addRecvData env sock buff).1.frameTasks (worker sock) =
          s.frameTasks (worker sock) ++ tasks ∧
        (s.addRecvData env sock buff).1.clientMap[sock]? = some client' ∧
        client'.frameCount = client.frameCount + tasks.length := by
  refine ⟨?_, ?_, ?_⟩
  · intro s hs
    exact (hs.settled.calm recv).dropsOnly hpool₀ pool pool₀
  · intro s hs hfits
    obtain ⟨h0, h1⟩ := hs.exitLen_bounds fun s recv h0 h1 h => FitsInt.calm h0 h1 h
    exact (hfits.calm h0 h1).dropsOnly hpool₀ pool pool₀
  · intro s sock client buff hclient
    exact addRecvData_counts env hclient buff

/-- A pool that fails at its first call. -/
def lateBuff (given : Nat) : Option Block × Nat :=
  (if given = 0 then none else some (Buffer.fill memPoolBlockSize 0), given + 1)

/-- Two frames, the first of them dropped. -/
theorem restructFrame_dropsOnly_late : ∃ r r₀,
    restructFrame id lateBuff CFrameRestruct.new 0
      [0x7E, 0, 5, 0x10, 0xA5, 0x7E, 0, 5, 0x11, 0xA5, 0x7E] = .ok r ∧
    restructFrame id cleanPool CFrameRestruct.new ()
      [0x7E, 0, 5, 0x10, 0xA5, 0x7E, 0, 5, 0x11, 0xA5, 0x7E] = .ok r₀ ∧
    DropsOnly lateBuff 0 r r₀ :=
  (restructFrame_dropsOnly (fun _ => Option.some_ne_none _) 0 () _ plentiful).1 _ .new

end CmdTran
