import CmdTran.Relay.Lemmas.Numbers

/-!
# Input

The parser of an open descriptor has pending what the bytes of the connection behind it leave. A parser
that outlives its descriptor has nothing pending, up to the `QuitClient` that is on its way.
-/

namespace CmdTran

open Server Relay

variable {v v' : View} {inOrder : Prop}

/-! ## Handlers under way -/

/-- The closed descriptor that the handler goes on with. -/
def RecvStage.closing : RecvStage → Option Nat
  | closed fd _ | quit fd => some fd
  | _ => none

theorem RecvStage.fd_of_closing {stage : RecvStage} {fd : Nat} (h : stage.closing = some fd) :
    stage.fd = fd := by
  cases stage <;> cases h <;> rfl

theorem RecvStage.fd_of_saves {stage : RecvStage} {fd : Nat} (h : stage.saves = some fd) :
    stage.fd = fd := by
  cases stage with
  | saving =>
      cases h
      rfl
  | _ => cases h

/-- An accept handler closes and saves nothing. -/
theorem RecvStage.of_accepting {stage : RecvStage} (h : stage.accepting.isSome) :
    stage.closing = none ∧ stage.saves = none ∧ ∀ fd count, stage ≠ lost fd count := by
  cases stage with
  | accepted | polled | inserted => exact ⟨rfl, rfl, nofun⟩
  | _ => cases h

theorem RecvStage.fd_of_accepting {stage : RecvStage} {fd : Nat} {conn : Conn}
    (h : stage.accepting = some (fd, conn)) : stage.fd = fd := by
  cases stage <;> cases h <;> rfl

/-- Before `AddClient` nothing of the connection has been seen. -/
structure Accepting (v : View) (fd : Nat) (conn : Conn) : Prop where
  only : ∀ c, v.fds fd = some c → c = conn
  number : conn < v.accepted ∧ v.number conn = fd
  silent : received v.log conn = []
  frame : ∀ w task stage, v.frame w = some (task, stage) → task.sock ≠ fd
  tasks : ∀ w : Fin 4, ∀ task ∈ v.tasks w, task.sock ≠ fd
  saves : ∀ w stage, v.recv w = some stage → stage.saves ≠ some fd

structure Staged (v : View) : Prop where
  closed : ∀ w stage fd, v.recv w = some stage → stage.closing = some fd → v.fds fd = none
  accepting : ∀ w stage fd conn, v.recv w = some stage → stage.accepting = some (fd, conn) →
    Accepting v fd conn
  rejected : ∀ w task, v.frame w = some (task, .closing) → v.pending task.sock = none
  live : ∀ w fd count, v.recv w ≠ some (.lost fd count)

namespace Accepting

variable {fd : Nat} {conn : Conn}

theorem close (h : Accepting v fd conn) (fd' : Nat) : Accepting (v.close fd') fd conn := by
  refine ⟨?_, h.number, h.silent, h.frame, h.tasks, h.saves⟩
  intro c hc
  simp only [View.close, Function.update_apply] at hc
  split at hc
  · cases hc
  · exact h.only c hc

theorem setFrame (h : Accepting v fd conn) {w : Fin 4} {task : CFrameProcTask} (stage : FrameStage)
    (hsock : task.sock ≠ fd) : Accepting (v.setFrame w (some (task, stage))) fd conn := by
  refine ⟨h.only, h.number, h.silent, ?_, h.tasks, h.saves⟩
  intro w' task' stage' hstage
  simp only [View.setFrame, Function.update_apply] at hstage
  split at hstage
  · cases hstage
    exact hsock
  · exact h.frame w' task' stage' hstage

theorem received (h : Accepting v fd conn) (hnumbered : Numbered v) {fd' : Nat} {conn' : Conn}
    (bytes : List UInt8) (hopen : v.fds fd' = some conn') (hne : fd' ≠ fd) :
    Accepting (v.record (.received conn' bytes)) fd conn := by
  refine ⟨h.only, h.number, ?_, h.frame, h.tasks, h.saves⟩
  have hother : conn' ≠ conn := by
    rintro rfl
    exact hne ((hnumbered.fds fd' _ hopen).2.symm.trans h.number.2)
  simp only [View.record, received_received, if_neg hother, List.append_nil]
  exact h.silent

theorem record (h : Accepting v fd conn) (event : Event)
    (hevent : Relay.received (v.log ++ [event]) conn = Relay.received v.log conn) :
    Accepting (v.record event) fd conn :=
  ⟨h.only, h.number, hevent.trans h.silent, h.frame, h.tasks, h.saves⟩

end Accepting

namespace Staged

theorem setRecv (h : Staged v) (w : Fin 4) (stage : Option RecvStage)
    (hclosed : ∀ fd, stage.bind RecvStage.closing = some fd → v.fds fd = none)
    (haccepting : ∀ fd conn, stage.bind RecvStage.accepting = some (fd, conn) → Accepting v fd conn)
    (hsaves : ∀ fd, stage.bind RecvStage.saves = some fd →
      ∀ w' stage' conn, v.recv w' = some stage' → stage'.accepting ≠ some (fd, conn))
    (hlive : ∀ fd count, stage ≠ some (.lost fd count)) : Staged (v.setRecv w stage) := by
  refine ⟨?_, ?_, h.rejected, ?_⟩
  · intro w' stage' fd hstage' hfd
    simp only [View.setRecv, Function.update_apply] at hstage'
    split at hstage'
    · apply hclosed
      rw [hstage']
      exact hfd
    · exact h.closed w' stage' fd hstage' hfd
  · intro w' stage' fd conn hstage' hfd
    simp only [View.setRecv, Function.update_apply] at hstage'
    have hof : Accepting v fd conn ∧ stage.bind RecvStage.saves ≠ some fd := by
      split at hstage'
      · subst hstage'
        refine ⟨haccepting fd conn hfd, ?_⟩
        cases stage' <;> cases hfd
        all_goals
          intro hsaving
          cases hsaving
      · exact ⟨h.accepting w' stage' fd conn hstage' hfd,
          fun hsaving => hsaves fd hsaving w' stage' conn hstage' hfd⟩
    obtain ⟨hof, hnot⟩ := hof
    refine ⟨hof.only, hof.number, hof.silent, hof.frame, hof.tasks, ?_⟩
    intro w₁ stage₁ hstage₁
    simp only [View.setRecv, Function.update_apply] at hstage₁
    split at hstage₁
    · rw [hstage₁] at hnot
      exact hnot
    · exact hof.saves w₁ stage₁ hstage₁
  · intro w' fd count
    simp only [View.setRecv, Function.update_apply]
    split
    · exact hlive fd count
    · exact h.live w' fd count

theorem close (h : Staged v) (fd : Nat) : Staged (v.close fd) := by
  refine ⟨?_, ?_, h.rejected, h.live⟩
  · intro w stage fd' hstage hfd'
    simp only [View.close, Function.update_apply]
    rw [h.closed w stage fd' hstage hfd']
    exact ite_self none
  · intro w stage fd' conn hstage hfd'
    exact (h.accepting w stage fd' conn hstage hfd').close fd

theorem setPending (h : Staged v) (fd : Nat) (bytes : Option (List UInt8))
    (hrejected : ∀ w task, v.frame w = some (task, .closing) → task.sock = fd → bytes = none) :
    Staged (v.setPending fd bytes) := by
  refine ⟨h.closed, ?_, ?_, h.live⟩
  · intro w stage fd' conn hstage hfd'
    have hof := h.accepting w stage fd' conn hstage hfd'
    exact ⟨hof.only, hof.number, hof.silent, hof.frame, hof.tasks, hof.saves⟩
  · intro w task hstage
    simp only [View.setPending, Function.update_apply]
    split
    · rename_i hsock
      exact hrejected w task hstage hsock
    · exact h.rejected w task hstage

theorem putFrame (h : Staged v) {w : Fin 4} {task : CFrameProcTask} (stage : FrameStage)
    (hsock : ∀ w' stage fd conn, v.recv w' = some stage → stage.accepting = some (fd, conn) →
      task.sock ≠ fd) (hclosing : stage = .closing → v.pending task.sock = none) :
    Staged (v.setFrame w (some (task, stage))) := by
  refine ⟨h.closed, ?_, ?_, h.live⟩
  · intro w' stage' fd conn hstage' hfd
    exact (h.accepting w' stage' fd conn hstage' hfd).setFrame stage
      (hsock w' stage' fd conn hstage' hfd)
  · intro w' task' hstage'
    simp only [View.setFrame, Function.update_apply] at hstage'
    split at hstage'
    · cases hstage'
      exact hclosing rfl
    · exact h.rejected w' task' hstage'

theorem setFrame (h : Staged v) {w : Fin 4} {task : CFrameProcTask} {stage : FrameStage}
    (stage' : FrameStage) (hstage : v.frame w = some (task, stage))
    (hclosing : stage' = .closing → v.pending task.sock = none) :
    Staged (v.setFrame w (some (task, stage'))) :=
  h.putFrame stage' (fun w' stage₁ fd conn hstage₁ hfd =>
    (h.accepting w' stage₁ fd conn hstage₁ hfd).frame w task stage hstage) hclosing

theorem dropFrame (h : Staged v) (w : Fin 4) : Staged (v.setFrame w none) := by
  refine ⟨h.closed, ?_, ?_, h.live⟩
  · intro w' stage fd conn hstage hfd
    have hof := h.accepting w' stage fd conn hstage hfd
    refine ⟨hof.only, hof.number, hof.silent, ?_, hof.tasks, hof.saves⟩
    intro w₁ task stage₁ hstage₁
    simp only [View.setFrame, Function.update_apply] at hstage₁
    split at hstage₁
    · cases hstage₁
    · exact hof.frame w₁ task stage₁ hstage₁
  · intro w' task hstage
    simp only [View.setFrame, Function.update_apply] at hstage
    split at hstage
    · cases hstage
    · exact h.rejected w' task hstage

theorem record (h : Staged v) (event : Event)
    (hevent : ∀ conn, received (v.log ++ [event]) conn = received v.log conn) :
    Staged (v.record event) :=
  ⟨h.closed, fun w stage fd conn hstage hfd =>
    (h.accepting w stage fd conn hstage hfd).record event (hevent conn), h.rejected, h.live⟩

theorem accept (h : Staged v) (hnumbered : Numbered v) {w : Fin 4} {fd : Nat}
    (hrecv : ∀ w' stage, v.recv w' = some stage → stage.fd ≠ fd)
    (hframe : ∀ w' task stage, v.frame w' = some (task, stage) → task.sock ≠ fd)
    (htasks : ∀ w' : Fin 4, ∀ task ∈ v.tasks w', task.sock ≠ fd) :
    Staged { v with
      fds := Function.update v.fds fd (some v.accepted)
      accepted := v.accepted + 1
      number := Function.update v.number v.accepted fd
      recv := Function.update v.recv w (some (.accepted fd v.accepted)) } := by
  have hsaves (fd' : Nat) (hold : ∀ w' stage, v.recv w' = some stage → stage.saves ≠ some fd')
      (w' : Fin 4) (stage : RecvStage)
      (hstage : Function.update v.recv w (some (.accepted fd v.accepted)) w' = some stage) :
      stage.saves ≠ some fd' := by
    simp only [Function.update_apply] at hstage
    split at hstage
    · cases hstage
      exact nofun
    · exact hold w' stage hstage
  refine ⟨?_, ?_, h.rejected, ?_⟩
  · intro w' stage fd' hstage hfd'
    simp only [Function.update_apply] at hstage
    split at hstage
    · cases hstage
      cases hfd'
    · have hne : fd' ≠ fd := by
        rw [← RecvStage.fd_of_closing hfd']
        exact hrecv w' stage hstage
      simp only [Function.update_of_ne hne]
      exact h.closed w' stage fd' hstage hfd'
  · intro w' stage fd' conn hstage hfd'
    simp only [Function.update_apply] at hstage
    split at hstage
    · cases hstage
      cases hfd'
      have hnone (w' : Fin 4) (stage : RecvStage) (hstage : v.recv w' = some stage) :
          stage.saves ≠ some fd := fun hfd => hrecv w' stage hstage (RecvStage.fd_of_saves hfd)
      refine ⟨?_, ⟨Nat.lt_succ_self _, Function.update_self _ _ _⟩, ?_, hframe, htasks,
        hsaves fd hnone⟩
      · intro c hc
        simp only [Function.update_self] at hc
        exact (Option.some.inj hc).symm
      · exact (hnumbered.fresh _ (Nat.le_refl _)).1
    · have hne : fd' ≠ fd := by
        rw [← RecvStage.fd_of_accepting hfd']
        exact hrecv w' stage hstage
      have hof := h.accepting w' stage fd' conn hstage hfd'
      refine ⟨?_, ⟨Nat.lt_succ_of_lt hof.number.1, ?_⟩, hof.silent, hof.frame, hof.tasks,
        hsaves fd' hof.saves⟩
      · intro c hc
        simp only [Function.update_of_ne hne] at hc
        exact hof.only c hc
      · simp only [Function.update_of_ne (Nat.ne_of_lt hof.number.1)]
        exact hof.number.2
  · intro w' fd' count
    simp only [Function.update_apply]
    split
    · exact nofun
    · exact h.live w' fd' count

/-- The queue of one worker has changed, for descriptors that no accept handler has. -/
theorem setTasks (h : Staged v) (w : Nat) (tasks : List CFrameProcTask) (hworker : w < 4)
    (htasks : ∀ task ∈ tasks, task ∈ v.tasks w ∨
      ∀ w' stage conn, v.recv w' = some stage → stage.accepting ≠ some (task.sock, conn)) :
    Staged { v with tasks := Function.update v.tasks w tasks } := by
  refine ⟨h.closed, ?_, h.rejected, h.live⟩
  intro w' stage fd conn hstage hfd
  have hof := h.accepting w' stage fd conn hstage hfd
  refine ⟨hof.only, hof.number, hof.silent, hof.frame, ?_, hof.saves⟩
  intro w₁ task htask
  simp only [Function.update_apply] at htask
  split at htask
  · rcases htasks task htask with hold | hnone
    · exact hof.tasks ⟨w, hworker⟩ task hold
    · rintro rfl
      exact hnone w' stage conn hstage hfd
  · exact hof.tasks w₁ task htask

/-- A read at a descriptor that no accept handler has. -/
theorem received (h : Staged v) (hnumbered : Numbered v) {fd : Nat} {conn : Conn}
    (bytes : List UInt8) (hopen : v.fds fd = some conn)
    (haccepting : ∀ w stage conn, v.recv w = some stage → stage.accepting ≠ some (fd, conn)) :
    Staged (v.record (.received conn bytes)) := by
  refine ⟨h.closed, ?_, h.rejected, h.live⟩
  intro w stage fd' conn' hstage hfd'
  apply (h.accepting w stage fd' conn' hstage hfd').received hnumbered bytes hopen
  rintro rfl
  exact haccepting w stage conn' hstage hfd'

theorem push (h : Staged v) (fd : Nat) (source : Option Conn) (node : MemNode Nat) :
    Staged (v.push fd source node) := by
  have hlog := h.record (.queued (v.fds fd) source node.unsent) fun conn =>
    received_queued v.log conn (v.fds fd) source node.unsent
  exact ⟨hlog.closed, fun w stage fd' conn hstage hfd' =>
    have hof := hlog.accepting w stage fd' conn hstage hfd'
    ⟨hof.only, hof.number, hof.silent, hof.frame, hof.tasks, hof.saves⟩, hlog.rejected, hlog.live⟩

theorem read (h : Staged v) (hnumbered : Numbered v) {w : Fin 4} {fd : Nat} {conn : Conn}
    {bytes p : List UInt8} (frames : List (List UInt8)) (hopen : v.fds fd = some conn)
    (haccepting : ∀ w stage conn, v.recv w = some stage → stage.accepting ≠ some (fd, conn))
    (hpending : v.pending fd = some p) :
    Staged (((v.setPending fd (some (restOf (p ++ bytes)))).record (.received conn bytes)).setRecv w
      (some (.saving fd conn frames 0))) := by
  have hset := h.setPending fd (some (restOf (p ++ bytes))) (by
    rintro w task hframe rfl
    cases hpending.symm.trans (h.rejected w task hframe))
  have hlog := hset.received (v := v.setPending fd _) ⟨hnumbered.fds, hnumbered.fresh⟩ bytes hopen haccepting
  refine hlog.setRecv w (some (.saving fd conn frames 0)) nofun nofun ?_ nofun
  intro fd' hfd'
  cases hfd'
  exact haccepting

/-- `SaveFrame` queues the next of the frames that were found, or none. -/
theorem save (h : Staged v) {w : Fin 4} {fd : Nat} {conn : Conn} {frames frames' : List (List UInt8)}
    {count : Nat} (count' : Nat) {saved : List CFrameProcTask}
    (hstage : v.recv w = some (.saving fd conn frames count))
    (hsaved : ∀ task ∈ saved, task.sock = fd) :
    Staged { v.setRecv w (some (.saving fd conn frames' count')) with
      tasks := Function.update v.tasks (worker fd) (v.tasks (worker fd) ++ saved) } := by
  have hother : ∀ w' stage conn, v.recv w' = some stage → stage.accepting ≠ some (fd, conn) :=
    fun w' stage conn hstage' hfd =>
      (h.accepting w' stage fd conn hstage' hfd).saves w _ hstage rfl
  have htasks := h.setTasks (worker fd) (v.tasks (worker fd) ++ saved) (Nat.mod_lt fd (by decide)) (by
    intro task htask
    rcases List.mem_append.mp htask with hold | hnew
    · exact Or.inl hold
    · rw [hsaved task hnew]
      exact Or.inr hother)
  refine htasks.setRecv w (some (.saving fd conn frames' count')) nofun nofun ?_ nofun
  intro fd' hfd'
  cases hfd'
  exact hother

theorem forget (h : Staged v) (fd : Nat) : Staged (v.forget fd) := by
  refine ⟨h.closed, ?_, ?_, h.live⟩
  · intro w stage fd' conn hstage hfd'
    have hof := h.accepting w stage fd' conn hstage hfd'
    refine ⟨hof.only, hof.number, hof.silent, ?_, hof.tasks, hof.saves⟩
    intro w' task stage' hframe
    obtain ⟨⟨task', stage₁⟩, hold, heq⟩ := Option.map_eq_some_iff.mp hframe
    cases heq
    exact hof.frame w' task' stage₁ hold
  · intro w task hframe
    obtain ⟨⟨task', stage⟩, hold, heq⟩ := Option.map_eq_some_iff.mp hframe
    obtain ⟨rfl, hclosing⟩ := Prod.mk.inj heq
    cases FrameStage.eq_closing_of_forget hclosing
    exact h.rejected w task' hold

theorem take (h : Staged v) {w : Fin 4} {task : CFrameProcTask} {rest : List CFrameProcTask}
    (htasks : v.tasks w = task :: rest) :
    Staged { v.setFrame w (some (task, .taken)) with
      tasks := Function.update v.tasks w rest } := by
  have hsock : ∀ w' stage fd conn, v.recv w' = some stage →
      stage.accepting = some (fd, conn) → task.sock ≠ fd := by
    intro w' stage fd conn hstage hfd
    apply (h.accepting w' stage fd conn hstage hfd).tasks w
    rw [htasks]
    exact List.mem_cons_self
  have hset := h.setTasks w rest w.isLt (by
    intro task' htask'
    rw [htasks]
    exact Or.inl (List.mem_cons_of_mem _ htask'))
  exact hset.putFrame .taken hsock nofun

theorem move (h : Staged v) (hnumbered : Numbered v) (hmove : Move inOrder v v') : Staged v' := by
  cases hmove with
  | deliver => exact ⟨h.closed, fun w stage fd conn hstage hfd =>
      have hof := h.accepting w stage fd conn hstage hfd
      ⟨hof.only, hof.number, hof.silent, hof.frame, hof.tasks, hof.saves⟩, h.rejected, h.live⟩
  | drop => exact ⟨h.closed, fun w stage fd conn hstage hfd =>
      have hof := h.accepting w stage fd conn hstage hfd
      ⟨hof.only, hof.number, hof.silent, hof.frame, hof.tasks, hof.saves⟩, h.rejected, h.live⟩
  | accept w fd hidle hfree hrecv hframe htasks => exact h.accept hnumbered hrecv hframe htasks
  | advance w stage stage' hstage haccepting hsame =>
      rw [← hsame] at haccepting
      obtain ⟨hclosing, hsaves, hlost⟩ := RecvStage.of_accepting haccepting
      apply h.setRecv w (some stage')
      · intro fd hfd
        cases hclosing.symm.trans hfd
      · intro fd conn hfd
        exact h.accepting w stage fd conn hstage (hsame.symm.trans hfd)
      · intro fd hfd
        cases hsaves.symm.trans hfd
      · exact fun fd count heq => hlost fd count (Option.some.inj heq)
  | refuse w fd => exact (h.close fd).setRecv w none nofun nofun nofun nofun
  | addClient w fd conn hstage =>
      have hof := h.accepting w _ fd conn hstage rfl
      have hset := h.setPending fd (some ((v.pending fd).getD []))
        fun w' task hframe hsock => absurd hsock (hof.frame w' task _ hframe)
      exact hset.setRecv w none nofun nofun nofun nofun
  | turn w stage hfree hstage =>
      rcases hstage with rfl | ⟨fd, rfl, _⟩
      · exact h.setRecv w none nofun nofun nofun nofun
      · exact h.setRecv w _ nofun nofun nofun nofun
  | read w fd conn bytes p hstage hopen haccepting hpending =>
      exact h.read hnumbered _ hopen haccepting hpending
  | missed fd conn bytes hopen haccepting =>
      exact h.received hnumbered bytes hopen haccepting
  | save w fd conn frame frames count count' saved hstage hsaved =>
      exact h.save count' hstage fun task htask => (hsaved task htask).1
  | saved w fd conn count => exact h.setRecv w _ nofun nofun nofun nofun
  | close w fd removes =>
      apply (h.close fd).setRecv w (some (.closed fd removes)) _ nofun nofun nofun
      intro fd' hfd'
      cases hfd'
      exact Function.update_self _ _ _
  | forget fd => exact h.forget fd
  | quit w fd removes hstage =>
      have hset := h.setPending fd none fun _ _ _ _ => rfl
      cases removes with
      | false => exact hset.setRecv w none nofun nofun nofun nofun
      | true =>
          apply hset.setRecv w (some (.quit fd)) _ nofun nofun nofun
          intro fd' hfd'
          cases hfd'
          exact h.closed w _ fd hstage rfl
  | remove w fd =>
      have hset := h.setRecv w none nofun nofun nofun nofun
      exact ⟨hset.closed, fun w' stage fd' conn hstage hfd' =>
        have hof := hset.accepting w' stage fd' conn hstage hfd'
        ⟨hof.only, hof.number, hof.silent, hof.frame, hof.tasks, hof.saves⟩, hset.rejected, hset.live⟩
  | take w task rest hidle htasks => exact h.take htasks
  | pass w task stage stage' hstage hreaches hclosing =>
      exact h.setFrame stage' hstage fun heq => absurd heq hclosing
  | finish w => exact h.dropFrame w
  | ack fd node => exact h.push fd none node
  | relay w task cameraId it fd node hstage =>
      exact (h.push fd task.conn node).setFrame _ hstage nofun
  | reject w task hstage =>
      apply (h.setPending task.sock none fun _ _ _ _ => rfl).setFrame .closing hstage
      intro _
      exact Function.update_self _ _ _
  | shut w task hstage => exact (h.close task.sock).setFrame .finishing hstage nofun
  | send fd conn node front rest bytes =>
      have hlog := h.record (.sent conn node.tag bytes) fun c =>
        received_sent v.log c conn node.tag bytes
      exact ⟨hlog.closed, fun w stage fd' conn' hstage hfd' =>
        have hof := hlog.accepting w stage fd' conn' hstage hfd'
        ⟨hof.only, hof.number, hof.silent, hof.frame, hof.tasks, hof.saves⟩, hlog.rejected, hlog.live⟩

end Staged

/-! ## Pending bytes -/

structure Parsed (v : View) : Prop where
  opened : ∀ fd c p, v.pending fd = some p → v.fds fd = some c → p = restOf (received v.log c)
  shut : ∀ fd p, v.pending fd = some p → v.fds fd = none →
    p = [] ∨ ∃ w removes, v.recv w = some (.closed fd removes)

theorem restOf_nil : restOf [] = [] := by
  rw [restOf, frameScanner.scan_nil]

namespace Parsed

/-- A handler goes on, and if it was about to do `QuitClient`, then that is done. -/
theorem setRecv (h : Parsed v) (w : Fin 4) (stage : Option RecvStage)
    (hquit : ∀ fd removes, v.recv w = some (.closed fd removes) → v.pending fd = none) :
    Parsed (v.setRecv w stage) := by
  refine ⟨h.opened, ?_⟩
  intro fd p hp hfd
  rcases h.shut fd p hp hfd with hnil | ⟨w', removes, hstage⟩
  · exact Or.inl hnil
  · right
    have hne : w' ≠ w := by
      rintro rfl
      rw [View.setRecv, hquit fd removes hstage] at hp
      cases hp
    exact ⟨w', removes, (Function.update_of_ne hne _ _).trans hstage⟩

theorem close (h : Parsed v) (fd : Nat)
    (hp : ∀ p, v.pending fd = some p →
      p = [] ∨ ∃ w removes, v.recv w = some (.closed fd removes)) : Parsed (v.close fd) := by
  refine ⟨?_, ?_⟩
  · intro fd' c p hpending hc
    simp only [View.close, Function.update_apply] at hc
    split at hc
    · cases hc
    · exact h.opened fd' c p hpending hc
  · intro fd' p hpending hnone
    simp only [View.close, Function.update_apply] at hnone
    split at hnone
    · rename_i heq
      subst heq
      exact hp p hpending
    · exact h.shut fd' p hpending hnone

theorem setPending (h : Parsed v) (fd : Nat) (bytes : Option (List UInt8))
    (hopened : ∀ p c, bytes = some p → v.fds fd = some c → p = restOf (received v.log c))
    (hshut : ∀ p, bytes = some p → v.fds fd = none →
      p = [] ∨ ∃ w removes, v.recv w = some (.closed fd removes)) :
    Parsed (v.setPending fd bytes) := by
  refine ⟨?_, ?_⟩
  · intro fd' c p hp hc
    simp only [View.setPending, Function.update_apply] at hp
    split at hp
    · rename_i heq
      subst heq
      exact hopened p c hp hc
    · exact h.opened fd' c p hp hc
  · intro fd' p hp hnone
    simp only [View.setPending, Function.update_apply] at hp
    split at hp
    · rename_i heq
      subst heq
      exact hshut p hp hnone
    · exact h.shut fd' p hp hnone

theorem dropPending (h : Parsed v) (fd : Nat) : Parsed (v.setPending fd none) := by
  apply h.setPending
  · intro p c hp
    cases hp
  · intro p hp
    cases hp

theorem record (h : Parsed v) (event : Event)
    (hevent : ∀ conn, received (v.log ++ [event]) conn = received v.log conn) :
    Parsed (v.record event) :=
  ⟨fun fd c p hp hc => (h.opened fd c p hp hc).trans (congrArg restOf (hevent c).symm), h.shut⟩

theorem push (h : Parsed v) (fd : Nat) (source : Option Conn) (node : MemNode Nat) :
    Parsed (v.push fd source node) := by
  have hlog := h.record (.queued (v.fds fd) source node.unsent) fun conn =>
    received_queued v.log conn (v.fds fd) source node.unsent
  exact ⟨hlog.opened, hlog.shut⟩

theorem accept (h : Parsed v) (hnumbered : Numbered v) {w : Fin 4} {fd : Nat}
    (hidle : v.recv w = none) (hfree : v.fds fd = none)
    (hrecv : ∀ w' stage, v.recv w' = some stage → stage.fd ≠ fd) :
    Parsed { v with
      fds := Function.update v.fds fd (some v.accepted)
      accepted := v.accepted + 1
      number := Function.update v.number v.accepted fd
      recv := Function.update v.recv w (some (.accepted fd v.accepted)) } := by
  refine ⟨?_, ?_⟩
  · intro fd' c p hp hc
    simp only [Function.update_apply] at hc
    split at hc
    · rename_i heq
      subst heq
      cases hc
      rw [(hnumbered.fresh _ (Nat.le_refl _)).1, restOf_nil]
      rcases h.shut fd' p hp hfree with hnil | ⟨w', removes, hstage⟩
      · exact hnil
      · exact absurd rfl (hrecv w' _ hstage)
    · exact h.opened fd' c p hp hc
  · intro fd' p hp hnone
    simp only [Function.update_apply] at hnone
    split at hnone
    · cases hnone
    · rcases h.shut fd' p hp hnone with hnil | ⟨w', removes, hstage⟩
      · exact Or.inl hnil
      · right
        have hne : w' ≠ w := by
          rintro rfl
          rw [hidle] at hstage
          cases hstage
        exact ⟨w', removes, (Function.update_of_ne hne _ _).trans hstage⟩

theorem refuse (h : Parsed v) {w : Fin 4} {fd : Nat} {conn : Conn} (hof : Accepting v fd conn)
    (hstage : v.recv w = some (.accepted fd conn)) : Parsed ((v.close fd).setRecv w none) := by
  have hclose := h.close fd (by
    intro p hp
    cases hfd : v.fds fd with
    | none => exact h.shut fd p hp hfd
    | some c =>
        left
        rw [h.opened fd c p hp hfd, hof.only c hfd, hof.silent, restOf_nil])
  apply hclose.setRecv w
  intro fd' removes hclosed
  cases hstage.symm.trans hclosed

/-- The parser is new, or it was left behind with nothing pending. -/
theorem addClient (h : Parsed v) {w : Fin 4} {fd : Nat} {conn : Conn} (hof : Accepting v fd conn)
    (hstage : v.recv w = some (.inserted fd conn)) :
    Parsed ((v.setPending fd (some ((v.pending fd).getD []))).setRecv w none) := by
  have hset : Parsed (v.setPending fd (some ((v.pending fd).getD []))) := by
    cases hold : v.pending fd with
    | none =>
        apply h.setPending
        · intro p c hp hc
          cases hp
          rw [hof.only c hc, hof.silent, restOf_nil]
          rfl
        · intro p hp hnone
          cases hp
          exact Or.inl rfl
    | some q =>
        apply h.setPending
        · intro p c hp hc
          cases hp
          exact h.opened fd c q hold hc
        · intro p hp hnone
          cases hp
          exact h.shut fd q hold hnone
  apply hset.setRecv w
  intro fd' removes hclosed
  cases hstage.symm.trans hclosed

theorem read (h : Parsed v) (hnumbered : Numbered v) {fd : Nat} {conn : Conn} {p : List UInt8}
    (bytes : List UInt8) (hopen : v.fds fd = some conn) (hpending : v.pending fd = some p) :
    Parsed ((v.setPending fd (some (restOf (p ++ bytes)))).record (.received conn bytes)) := by
  have hold := h.opened fd conn p hpending hopen
  refine ⟨?_, ?_⟩
  · intro fd' c q hq hc
    dsimp only [View.record, View.setPending] at hq hc ⊢
    rw [received_received]
    simp only [Function.update_apply] at hq
    split at hq
    · rename_i heq
      subst heq
      cases hq
      cases hopen.symm.trans hc
      rw [if_pos rfl, restOf_append (received v.log conn), ← hold]
    · rename_i hne
      have hother : conn ≠ c := by
        rintro rfl
        exact hne (hnumbered.unique hc hopen)
      rw [if_neg hother, List.append_nil]
      exact h.opened fd' c q hq hc
  · intro fd' q hq hnone
    simp only [View.record, View.setPending, Function.update_apply] at hq
    split at hq
    · rename_i heq
      subst heq
      cases hopen.symm.trans hnone
    · exact h.shut fd' q hq hnone

theorem missed (h : Parsed v) (hnumbered : Numbered v) {fd : Nat} {conn : Conn} (bytes : List UInt8)
    (hopen : v.fds fd = some conn) (hpending : v.pending fd = none) :
    Parsed (v.record (.received conn bytes)) := by
  refine ⟨?_, h.shut⟩
  intro fd' c q hq hc
  have hother : conn ≠ c := by
    rintro rfl
    cases hnumbered.unique hc hopen
    cases hpending.symm.trans hq
  dsimp only [View.record]
  rw [received_received, if_neg hother, List.append_nil]
  exact h.opened fd' c q hq hc

theorem move (h : Parsed v) (hnumbered : Numbered v) (hstaged : Staged v) (hmove : Move inOrder v v') :
    Parsed v' := by
  have hnot {w : Fin 4} {stage : RecvStage} (hstage : v.recv w = some stage)
      (hne : ∀ fd removes, stage ≠ .closed fd removes) (fd : Nat) (removes : Bool)
      (hclosed : v.recv w = some (.closed fd removes)) : v.pending fd = none := by
    cases hstage.symm.trans hclosed
    exact absurd rfl (hne fd removes)
  have hfreed {w : Fin 4} (hfree : IsFree (v.recv w)) (fd : Nat) (removes : Bool)
      (hclosed : v.recv w = some (.closed fd removes)) : v.pending fd = none := by
    rcases hfree with hidle | ⟨fd', hreading⟩ | ⟨fd', count, hcounting⟩
    · cases hidle.symm.trans hclosed
    · exact hnot hreading nofun fd removes hclosed
    · exact hnot hcounting nofun fd removes hclosed
  cases hmove with
  | deliver => exact ⟨h.opened, h.shut⟩
  | drop => exact ⟨h.opened, h.shut⟩
  | accept w fd hidle hfree hrecv => exact h.accept hnumbered hidle hfree hrecv
  | advance w stage stage' hstage haccepting =>
      apply h.setRecv w
      intro fd removes hclosed
      rw [hstage] at hclosed
      cases hclosed
      cases haccepting
  | refuse w fd conn hstage => exact h.refuse (hstaged.accepting w _ fd conn hstage rfl) hstage
  | addClient w fd conn hstage => exact h.addClient (hstaged.accepting w _ fd conn hstage rfl) hstage
  | turn w stage hfree => exact h.setRecv w stage (hfreed hfree)
  | read w fd conn bytes p hstage hopen haccepting hpending =>
      apply (h.read hnumbered bytes hopen hpending).setRecv w
      intro fd' removes hclosed
      cases hstage.symm.trans hclosed
  | missed fd conn bytes hopen haccepting hpending => exact h.missed hnumbered bytes hopen hpending
  | save w fd conn frame frames count count' saved hstage =>
      have hset := h.setRecv w (some (.saving fd conn frames count')) (hnot hstage nofun)
      exact ⟨hset.opened, hset.shut⟩
  | saved w fd conn count hstage => exact h.setRecv w _ (hnot hstage nofun)
  | close w fd removes hfree =>
      have hset := h.setRecv w (some (.closed fd removes)) (hfreed hfree)
      exact hset.close fd fun p _ => Or.inr ⟨w, removes, Function.update_self _ _ _⟩
  | forget => exact ⟨h.opened, h.shut⟩
  | quit w fd removes hstage =>
      have hset := h.dropPending fd
      apply hset.setRecv w
      intro fd' removes' hclosed
      cases hstage.symm.trans hclosed
      exact Function.update_self _ _ _
  | remove w fd hstage =>
      have hset := h.setRecv w none (by
        intro fd' removes hclosed
        cases hstage.symm.trans hclosed)
      exact ⟨hset.opened, hset.shut⟩
  | take => exact ⟨h.opened, h.shut⟩
  | pass => exact ⟨h.opened, h.shut⟩
  | finish => exact ⟨h.opened, h.shut⟩
  | ack fd node => exact h.push fd none node
  | relay w task cameraId it fd node =>
      have hpush := h.push fd task.conn node
      exact ⟨hpush.opened, hpush.shut⟩
  | reject w task =>
      have hset := h.dropPending task.sock
      exact ⟨hset.opened, hset.shut⟩
  | shut w task hstage =>
      have hset := h.close task.sock (by
        intro p hp
        cases (hstaged.rejected w task hstage).symm.trans hp)
      exact ⟨hset.opened, hset.shut⟩
  | send fd conn node front rest bytes =>
      have hlog := h.record (.sent conn node.tag bytes) fun c =>
        received_sent v.log c conn node.tag bytes
      exact ⟨hlog.opened, hlog.shut⟩

end Parsed

end CmdTran
