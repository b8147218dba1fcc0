import CmdTran.Relay.Lemmas.Moves

/-!
# Numbers and frames

An open descriptor is the number of the connection behind it. Each event and each frame waits with the worker
of its descriptor, and the frame came from a connection that had this number.
-/

namespace CmdTran

open Server Relay

variable {v v' : View} {inOrder : Prop}

/-! ## Numbers -/

structure Numbered (v : View) : Prop where
  fds : ∀ fd c, v.fds fd = some c → c < v.accepted ∧ v.number c = fd
  fresh : ∀ c, v.accepted ≤ c → received v.log c = [] ∧ queued v.log c = [] ∧ sent v.log c = []

namespace Numbered

theorem unique (h : Numbered v) {fd fd' : Nat} {c : Conn} (hfd : v.fds fd = some c)
    (hfd' : v.fds fd' = some c) : fd = fd' :=
  (h.fds fd c hfd).2.symm.trans (h.fds fd' c hfd').2

theorem close (h : Numbered v) (fd : Nat) : Numbered (v.close fd) := by
  refine ⟨?_, h.fresh⟩
  intro fd' c hc
  simp only [View.close, Function.update_apply] at hc
  split at hc
  · cases hc
  · exact h.fds fd' c hc

theorem push (h : Numbered v) (fd : Nat) (source : Option Conn) (node : MemNode Nat) :
    Numbered (v.push fd source node) := by
  refine ⟨h.fds, ?_⟩
  intro c hc
  obtain ⟨hreceived, hqueued, hsent⟩ := h.fresh c hc
  have hother : v.fds fd ≠ some c := by
    intro hfd
    exact Nat.not_lt.mpr hc (h.fds fd c hfd).1
  refine ⟨?_, ?_, ?_⟩
  · simpa [View.push, View.record, View.setChain] using hreceived
  · simpa [View.push, View.record, View.setChain, hother] using hqueued
  · simpa [View.push, View.record, View.setChain] using hsent

theorem received (h : Numbered v) {fd : Nat} {conn : Conn} (bytes : List UInt8)
    (hopen : v.fds fd = some conn) : Numbered (v.record (.received conn bytes)) := by
  refine ⟨h.fds, ?_⟩
  intro c hc
  obtain ⟨hreceived, hqueued, hsent⟩ := h.fresh c hc
  have hother : conn ≠ c := Nat.ne_of_lt (Nat.lt_of_lt_of_le (h.fds fd conn hopen).1 hc)
  refine ⟨?_, ?_, ?_⟩
  · simpa [View.record, hother] using hreceived
  · simpa [View.record] using hqueued
  · simpa [View.record] using hsent

theorem sent (h : Numbered v) {fd : Nat} {conn : Conn} (made : Nat) (bytes : List UInt8)
    (hopen : v.fds fd = some conn) : Numbered (v.record (.sent conn made bytes)) := by
  refine ⟨h.fds, ?_⟩
  intro c hc
  obtain ⟨hreceived, hqueued, hsent⟩ := h.fresh c hc
  have hother : conn ≠ c := Nat.ne_of_lt (Nat.lt_of_lt_of_le (h.fds fd conn hopen).1 hc)
  refine ⟨?_, ?_, ?_⟩
  · simpa [View.record] using hreceived
  · simpa [View.record] using hqueued
  · simpa [View.record, hother] using hsent

theorem move (h : Numbered v) (hmove : Move inOrder v v') : Numbered v' := by
  cases hmove with
  | deliver => exact ⟨h.fds, h.fresh⟩
  | drop => exact ⟨h.fds, h.fresh⟩
  | accept w fd hidle hfree hrecv hframe htasks hchain =>
      refine ⟨?_, ?_⟩
      · intro fd' c hc
        dsimp only at hc ⊢
        simp only [Function.update_apply] at hc ⊢
        split at hc
        · cases hc
          rename_i heq
          exact ⟨Nat.lt_succ_self _, by rw [if_pos rfl, heq]⟩
        · obtain ⟨hlt, hnumber⟩ := h.fds fd' c hc
          exact ⟨Nat.lt_succ_of_lt hlt, by rw [if_neg (Nat.ne_of_lt hlt), hnumber]⟩
      · intro c hc
        exact h.fresh c (Nat.le_of_succ_le hc)
  | advance => exact ⟨h.fds, h.fresh⟩
  | refuse w fd => exact ⟨(h.close fd).fds, h.fresh⟩
  | addClient => exact ⟨h.fds, h.fresh⟩
  | turn => exact ⟨h.fds, h.fresh⟩
  | read w fd conn bytes p hstage hopen => exact ⟨h.fds, (h.received bytes hopen).fresh⟩
  | missed fd conn bytes hopen => exact h.received bytes hopen
  | save => exact ⟨h.fds, h.fresh⟩
  | saved => exact ⟨h.fds, h.fresh⟩
  | close w fd => exact ⟨(h.close fd).fds, h.fresh⟩
  | forget => exact ⟨h.fds, h.fresh⟩
  | quit => exact ⟨h.fds, h.fresh⟩
  | remove => exact ⟨h.fds, h.fresh⟩
  | take => exact ⟨h.fds, h.fresh⟩
  | pass => exact ⟨h.fds, h.fresh⟩
  | finish => exact ⟨h.fds, h.fresh⟩
  | ack fd node => exact h.push fd none node
  | relay w task cameraId it fd node =>
      exact ⟨(h.push fd task.conn node).fds, (h.push fd task.conn node).fresh⟩
  | reject => exact ⟨h.fds, h.fresh⟩
  | shut w task => exact ⟨(h.close task.sock).fds, h.fresh⟩
  | send fd conn node front rest bytes hopen => exact ⟨h.fds, (h.sent node.tag bytes hopen).fresh⟩

end Numbered

/-! ## Events -/

/-- The descriptor of the event that the worker has. -/
def RecvStage.reads : RecvStage → Option Nat
  | reading fd | saving fd _ _ _ | counting fd _ => some fd
  | _ => none

theorem RecvStage.reads_of_accepting {stage : RecvStage} (h : stage.accepting.isSome) :
    stage.reads = none := by
  cases stage with
  | accepted | polled | inserted => rfl
  | _ => cases h

structure Sorted (v : View) : Prop where
  events : ∀ w, ∀ ev ∈ v.events w, worker ev.fd = w
  recv : ∀ w stage fd, v.recv w = some stage → stage.reads = some fd → workerOf fd = w

namespace Sorted

theorem setRecv (h : Sorted v) (w : Fin 4) (stage : Option RecvStage)
    (hreads : ∀ fd, stage.bind RecvStage.reads = some fd → workerOf fd = w) :
    Sorted (v.setRecv w stage) := by
  refine ⟨h.events, ?_⟩
  intro w' stage' fd hstage hfd
  simp only [View.setRecv, Function.update_apply] at hstage
  split at hstage
  · rename_i heq
    rw [heq]
    apply hreads
    rw [hstage]
    exact hfd
  · exact h.recv w' stage' fd hstage hfd

theorem move (h : Sorted v) (hmove : Move inOrder v v') : Sorted v' := by
  cases hmove with
  | deliver ev =>
      refine ⟨?_, h.recv⟩
      intro w ev' hev
      simp only [addTask, Function.update_apply] at hev
      split at hev
      · rename_i heq
        rcases List.mem_append.mp hev with hold | hnew
        · exact (h.events _ ev' hold).trans heq.symm
        · rw [List.mem_singleton.mp hnew, heq]
      · exact h.events w ev' hev
  | drop w =>
      refine ⟨?_, h.recv⟩
      intro w' ev hev
      simp only [Function.update_apply] at hev
      split at hev
      · rename_i heq
        rw [heq]
        exact h.events w ev (List.mem_of_mem_tail hev)
      · exact h.events w' ev hev
  | accept w fd =>
      have hset := h.setRecv w (some (.accepted fd v.accepted)) (by rintro _ ⟨⟩)
      exact ⟨hset.events, hset.recv⟩
  | advance w stage stage' hstage haccepting hsame =>
      apply h.setRecv
      rw [← hsame] at haccepting
      intro fd hfd
      rw [Option.bind_some, RecvStage.reads_of_accepting haccepting] at hfd
      cases hfd
  | refuse w fd =>
      have hset := h.setRecv w none (by rintro _ ⟨⟩)
      exact ⟨hset.events, hset.recv⟩
  | addClient w fd =>
      have hset := h.setRecv w none (by rintro _ ⟨⟩)
      exact ⟨hset.events, hset.recv⟩
  | turn w stage hfree hstage =>
      apply h.setRecv
      intro fd hfd
      rcases hstage with rfl | ⟨fd', rfl, hworker⟩
      · cases hfd
      · cases hfd
        exact hworker
  | read w fd conn bytes p hstage =>
      have hset := h.setRecv w (some (.saving fd conn (framesOf (p ++ bytes)) 0)) (by
        intro fd' hfd'
        cases hfd'
        exact h.recv w _ fd hstage rfl)
      exact ⟨hset.events, hset.recv⟩
  | missed => exact ⟨h.events, h.recv⟩
  | save w fd conn frame frames count count' saved hstage =>
      have hset := h.setRecv w (some (.saving fd conn frames count')) (by
        intro fd' hfd'
        cases hfd'
        exact h.recv w _ fd hstage rfl)
      exact ⟨hset.events, hset.recv⟩
  | saved w fd conn count hstage =>
      apply h.setRecv
      intro fd' hfd'
      cases hfd'
      exact h.recv w _ fd hstage rfl
  | close w fd removes =>
      have hset := h.setRecv w (some (.closed fd removes)) (by rintro _ ⟨⟩)
      exact ⟨hset.events, hset.recv⟩
  | forget => exact ⟨h.events, h.recv⟩
  | quit w fd removes =>
      have hset := h.setRecv w (if removes then some (.quit fd) else none) (by
        cases removes <;> rintro _ ⟨⟩)
      exact ⟨hset.events, hset.recv⟩
  | remove w fd =>
      have hset := h.setRecv w none (by rintro _ ⟨⟩)
      exact ⟨hset.events, hset.recv⟩
  | take => exact ⟨h.events, h.recv⟩
  | pass => exact ⟨h.events, h.recv⟩
  | finish => exact ⟨h.events, h.recv⟩
  | ack => exact ⟨h.events, h.recv⟩
  | relay => exact ⟨h.events, h.recv⟩
  | reject => exact ⟨h.events, h.recv⟩
  | shut => exact ⟨h.events, h.recv⟩
  | send => exact ⟨h.events, h.recv⟩

end Sorted

/-! ## Frames -/

/-- A frame of the worker `w`. -/
structure OfWorker (accepted : Nat) (number : Conn → Nat) (w : Nat) (task : CFrameProcTask) :
    Prop where
  worker : w = worker task.sock
  form : WellFormed task.bytes
  conn : ∀ c, task.conn = some c → c < accepted ∧ number c = task.sock

/-- Frames that came from `conn` at `fd`. -/
structure Found (accepted : Nat) (number : Conn → Nat) (fd : Nat) (conn : Conn)
    (frames : List (List UInt8)) : Prop where
  form : ∀ f ∈ frames, WellFormed f
  conn : conn < accepted ∧ number conn = fd

structure Framed (v : View) : Prop where
  tasks : ∀ w, ∀ task ∈ v.tasks w, OfWorker v.accepted v.number w task
  frame : ∀ (w : Fin 4) task stage, v.frame w = some (task, stage) →
    OfWorker v.accepted v.number w task
  picture : ∀ w task stage, v.frame w = some (task, stage) → stage.IsRelaying →
    isPicture task.bytes = true
  recv : ∀ w fd conn frames count, v.recv w = some (.saving fd conn frames count) →
    Found v.accepted v.number fd conn frames

theorem isPicture_bytes {task : CFrameProcTask} (hform : WellFormed task.bytes)
    (h : byteAt task.frame 3 = 0x10) : isPicture task.bytes = true := by
  have hlen := hform.len_min
  simp only [frameLenMin, CFrameProcTask.bytes, List.length_take] at hlen
  have hget : task.bytes[3]? = task.frame.toList[3]? := by
    rw [CFrameProcTask.bytes, List.getElem?_take]
    exact if_pos (by omega)
  rw [isPicture, decide_eq_true_eq, List.getD_eq_getElem?_getD, hget,
    ← List.getD_eq_getElem?_getD]
  exact h

theorem OfWorker.accept {accepted : Nat} {number : Conn → Nat} {w : Nat} {task : CFrameProcTask}
    (h : OfWorker accepted number w task) (fd : Nat) :
    OfWorker (accepted + 1) (Function.update number accepted fd) w task := by
  refine ⟨h.worker, h.form, ?_⟩
  intro c hc
  obtain ⟨hlt, hsock⟩ := h.conn c hc
  rw [Function.update_of_ne (Nat.ne_of_lt hlt)]
  exact ⟨Nat.lt_succ_of_lt hlt, hsock⟩

theorem Found.accept {accepted : Nat} {number : Conn → Nat} {fd : Nat} {conn : Conn}
    {frames : List (List UInt8)} (h : Found accepted number fd conn frames) (fd' : Nat) :
    Found (accepted + 1) (Function.update number accepted fd') fd conn frames := by
  obtain ⟨hlt, hnumber⟩ := h.conn
  refine ⟨h.form, Nat.lt_succ_of_lt hlt, ?_⟩
  rw [Function.update_of_ne (Nat.ne_of_lt hlt)]
  exact hnumber

namespace Framed

theorem setFrame (h : Framed v) {w : Fin 4} {task : CFrameProcTask} (stage : FrameStage)
    (hof : OfWorker v.accepted v.number w task)
    (hpicture : stage.IsRelaying → isPicture task.bytes = true) :
    Framed (v.setFrame w (some (task, stage))) := by
  refine ⟨h.tasks, ?_, ?_, h.recv⟩
  · intro w' task' stage' hstage
    simp only [View.setFrame, Function.update_apply] at hstage
    split at hstage
    · rename_i heq
      cases hstage
      rw [heq]
      exact hof
    · exact h.frame w' task' stage' hstage
  · intro w' task' stage' hstage hrelaying
    simp only [View.setFrame, Function.update_apply] at hstage
    split at hstage
    · cases hstage
      exact hpicture hrelaying
    · exact h.picture w' task' stage' hstage hrelaying

theorem dropFrame (h : Framed v) (w : Fin 4) : Framed (v.setFrame w none) := by
  refine ⟨h.tasks, ?_, ?_, h.recv⟩
  · intro w' task stage hstage
    simp only [View.setFrame, Function.update_apply] at hstage
    split at hstage
    · cases hstage
    · exact h.frame w' task stage hstage
  · intro w' task stage hstage
    simp only [View.setFrame, Function.update_apply] at hstage
    split at hstage
    · cases hstage
    · exact h.picture w' task stage hstage

theorem setTasks (h : Framed v) {w : Nat} {tasks : List CFrameProcTask}
    (htasks : ∀ task ∈ tasks, OfWorker v.accepted v.number w task) :
    Framed { v with tasks := Function.update v.tasks w tasks } := by
  refine ⟨?_, h.frame, h.picture, h.recv⟩
  intro w' task htask
  simp only [Function.update_apply] at htask
  split at htask
  · rename_i heq
    rw [heq]
    exact htasks task htask
  · exact h.tasks w' task htask

theorem setRecv (h : Framed v) (w : Fin 4) (stage : Option RecvStage)
    (hfound : ∀ fd conn frames count, stage = some (.saving fd conn frames count) →
      Found v.accepted v.number fd conn frames) : Framed (v.setRecv w stage) := by
  refine ⟨h.tasks, h.frame, h.picture, ?_⟩
  intro w' fd conn frames count hstage
  simp only [View.setRecv, Function.update_apply] at hstage
  split at hstage
  · exact hfound fd conn frames count hstage
  · exact h.recv w' fd conn frames count hstage

theorem accept (h : Framed v) (w : Fin 4) (fd : Nat) :
    Framed { v with
      fds := Function.update v.fds fd (some v.accepted)
      accepted := v.accepted + 1
      number := Function.update v.number v.accepted fd
      recv := Function.update v.recv w (some (.accepted fd v.accepted)) } := by
  refine ⟨fun w' task htask => (h.tasks w' task htask).accept fd,
    fun w' task stage hstage => (h.frame w' task stage hstage).accept fd, h.picture, ?_⟩
  intro w' fd' conn frames count hstage
  simp only [Function.update_apply] at hstage
  split at hstage
  · cases hstage
  · exact (h.recv w' fd' conn frames count hstage).accept fd

/-- `SaveFrame` queues the next of the frames that were found, or none. -/
theorem save (h : Framed v) {w : Fin 4} {fd : Nat} {conn : Conn} {frame : List UInt8}
    {frames : List (List UInt8)} {count : Nat} (count' : Nat) {saved : List CFrameProcTask}
    (hstage : v.recv w = some (.saving fd conn (frame :: frames) count))
    (hsaved : ∀ task ∈ saved, task.sock = fd ∧ task.conn = some conn)
    (hbytes : (saved.map CFrameProcTask.bytes).Sublist [frame]) :
    Framed { v.setRecv w (some (.saving fd conn frames count')) with
      tasks := Function.update v.tasks (worker fd) (v.tasks (worker fd) ++ saved) } := by
  obtain ⟨hform, hconn⟩ := h.recv w fd conn _ count hstage
  have hnew : ∀ task ∈ v.tasks (worker fd) ++ saved, OfWorker v.accepted v.number (worker fd) task := by
    intro task htask
    rcases List.mem_append.mp htask with hold | hnew
    · exact h.tasks _ task hold
    · obtain ⟨hsock, hsource⟩ := hsaved task hnew
      have hmem := List.mem_singleton.mp (hbytes.subset (List.mem_map_of_mem hnew))
      refine ⟨by rw [hsock], ?_, ?_⟩
      · rw [hmem]
        exact hform frame List.mem_cons_self
      · intro c hc
        cases hsource.symm.trans hc
        rw [hsock]
        exact hconn
  have hset := (h.setTasks hnew).setRecv w (some (.saving fd conn frames count')) (by
    intro fd' conn' frames' count'' heq
    cases heq
    exact ⟨fun f hf => hform f (List.mem_cons_of_mem frame hf), hconn⟩)
  exact ⟨hset.tasks, hset.frame, hset.picture, hset.recv⟩

theorem forget (h : Framed v) (fd : Nat) : Framed (v.forget fd) := by
  refine ⟨h.tasks, ?_, ?_, h.recv⟩
  · intro w task stage hstage
    obtain ⟨⟨task', stage'⟩, hold, heq⟩ := Option.map_eq_some_iff.mp hstage
    cases heq
    exact h.frame w task' stage' hold
  · intro w task stage hstage hrelaying
    obtain ⟨⟨task', stage'⟩, hold, heq⟩ := Option.map_eq_some_iff.mp hstage
    cases heq
    exact h.picture w task' stage' hold (FrameStage.isRelaying_of_forget hrelaying)

theorem move (h : Framed v) (hnumbered : Numbered v) (hmove : Move inOrder v v') : Framed v' := by
  cases hmove with
  | deliver => exact ⟨h.tasks, h.frame, h.picture, h.recv⟩
  | drop => exact ⟨h.tasks, h.frame, h.picture, h.recv⟩
  | accept w fd => exact h.accept w fd
  | advance w stage stage' hstage haccepting hsame =>
      apply h.setRecv
      rintro fd conn frames count heq
      cases heq
      rw [← hsame] at haccepting
      cases haccepting
  | refuse w fd =>
      have hset := h.setRecv w none nofun
      exact ⟨hset.tasks, hset.frame, hset.picture, hset.recv⟩
  | addClient w fd =>
      have hset := h.setRecv w none nofun
      exact ⟨hset.tasks, hset.frame, hset.picture, hset.recv⟩
  | turn w stage hfree hstage =>
      apply h.setRecv
      rintro fd conn frames count rfl
      rcases hstage with heq | ⟨_, heq, _⟩ <;> cases heq
  | read w fd conn bytes p hstage hopen =>
      have hset := h.setRecv w (some (.saving fd conn (framesOf (p ++ bytes)) 0)) (by
        intro fd' conn' frames count heq
        cases heq
        exact ⟨fun f hf => wellFormed_of_mem_framesOf hf, hnumbered.fds fd conn hopen⟩)
      exact ⟨hset.tasks, hset.frame, hset.picture, hset.recv⟩
  | missed => exact ⟨h.tasks, h.frame, h.picture, h.recv⟩
  | save w fd conn frame frames count count' saved hstage hsaved hbytes =>
      exact h.save count' hstage hsaved hbytes
  | saved w fd conn count => exact h.setRecv w _ nofun
  | close w fd removes =>
      have hset := h.setRecv w (some (.closed fd removes)) nofun
      exact ⟨hset.tasks, hset.frame, hset.picture, hset.recv⟩
  | forget fd => exact h.forget fd
  | quit w fd removes =>
      have hset := h.setRecv w (if removes then some (.quit fd) else none) (by
        cases removes <;> exact nofun)
      exact ⟨hset.tasks, hset.frame, hset.picture, hset.recv⟩
  | remove w fd =>
      have hset := h.setRecv w none nofun
      exact ⟨hset.tasks, hset.frame, hset.picture, hset.recv⟩
  | take w task rest hidle htasks =>
      have hof : ∀ task' ∈ task :: rest, OfWorker v.accepted v.number w task' := by
        rw [← htasks]
        exact h.tasks w
      have hrest := h.setTasks fun task' htask' => hof task' (List.mem_cons_of_mem _ htask')
      have hset := hrest.setFrame .taken (hof task List.mem_cons_self) nofun
      exact ⟨hset.tasks, hset.frame, hset.picture, hset.recv⟩
  | pass w task stage stage' hstage hreaches hclosing hpicture =>
      have hof := h.frame w task stage hstage
      apply h.setFrame stage' hof
      intro hrelaying
      rcases hpicture hrelaying with hold | hbyte
      · exact h.picture w task stage hstage hold
      · exact isPicture_bytes hof.form hbyte
  | finish w => exact h.dropFrame w
  | ack => exact ⟨h.tasks, h.frame, h.picture, h.recv⟩
  | relay w task cameraId it fd node hstage =>
      have hset := h.setFrame (.relayed cameraId it) (h.frame w task _ hstage)
        fun _ => h.picture w task _ hstage trivial
      exact ⟨hset.tasks, hset.frame, hset.picture, hset.recv⟩
  | reject w task hstage =>
      have hset := h.setFrame .closing (h.frame w task _ hstage) nofun
      exact ⟨hset.tasks, hset.frame, hset.picture, hset.recv⟩
  | shut w task hstage =>
      have hset := h.setFrame .finishing (h.frame w task _ hstage) nofun
      exact ⟨hset.tasks, hset.frame, hset.picture, hset.recv⟩
  | send => exact ⟨h.tasks, h.frame, h.picture, h.recv⟩

end Framed

end CmdTran
