import CmdTran.Relay.Lemmas.Output

/-!
# Order

What was relayed from a phone to a client, the frame of the phone that its worker has and may still
relay to this client, the frames of the phone that wait and those that `RestructFrame` has still to save are,
in this order, some of the frames that the phone sent. This needs iterators that are at entries.
-/

namespace CmdTran

open Server Relay

variable {v v' : View}

/-! ## Backlogs -/

instance (stage : FrameStage) (n : Nat) : Decidable (stage.Reaches n) := by
  unfold FrameStage.Reaches
  split <;> infer_instance

/-- The frame of the phone that its worker has, if it may still go to a client at the descriptor `n`. -/
def inflight (frame : Option (CFrameProcTask × FrameStage)) (phone : Conn) (n : Nat) :
    List (List UInt8) :=
  match frame with
  | none => []
  | some (task, stage) => if task.conn = some phone ∧ stage.Reaches n then [task.bytes] else []

/-- The frames of the phone in the queue of its worker. -/
def waiting (tasks : List CFrameProcTask) (phone : Conn) : List (List UInt8) :=
  (tasks.filter (·.conn = some phone)).map CFrameProcTask.bytes

/-- The frames of the phone that `RestructFrame` has still to save. -/
def unsaved (recv : Option RecvStage) (phone : Conn) : List (List UInt8) :=
  match recv with
  | some (.saving _ conn frames _) => if conn = phone then frames else []
  | _ => []

def View.backlog (v : View) (phone : Conn) (n : Nat) : List (List UInt8) :=
  inflight (v.frame (workerOf (v.number phone))) phone n ++
    waiting (v.tasks (worker (v.number phone))) phone ++
      unsaved (v.recv (workerOf (v.number phone))) phone

theorem inflight_sublist {task : CFrameProcTask} {stage stage' : FrameStage} (phone : Conn) {n : Nat}
    (hreaches : stage'.Reaches n → stage.Reaches n) :
    (inflight (some (task, stage')) phone n).Sublist (inflight (some (task, stage)) phone n) := by
  unfold inflight
  dsimp only
  split
  · rename_i h
    rw [if_pos ⟨h.1, hreaches h.2⟩]
  · exact List.nil_sublist _

theorem waiting_cons (task : CFrameProcTask) (rest : List CFrameProcTask) (phone : Conn) (n : Nat) :
    waiting (task :: rest) phone =
      inflight (some (task, .taken)) phone n ++ waiting rest phone := by
  unfold waiting inflight
  by_cases h : task.conn = some phone
  · simp [h, FrameStage.Reaches]
  · simp [h]

theorem waiting_append (tasks tasks' : List CFrameProcTask) (phone : Conn) :
    waiting (tasks ++ tasks') phone = waiting tasks phone ++ waiting tasks' phone := by
  simp only [waiting, List.filter_append, List.map_append]

theorem waiting_eq_nil {tasks : List CFrameProcTask} {phone : Conn}
    (h : ∀ task ∈ tasks, task.conn ≠ some phone) : waiting tasks phone = [] := by
  rw [waiting, List.map_eq_nil_iff, List.filter_eq_nil_iff]
  intro task htask
  simpa using h task htask

theorem waiting_saved {saved : List CFrameProcTask} {conn : Conn} (phone : Conn)
    (hsaved : ∀ task ∈ saved, task.conn = some conn) :
    waiting saved phone = if conn = phone then saved.map CFrameProcTask.bytes else [] := by
  split
  · rename_i heq
    subst heq
    rw [waiting, List.filter_eq_self.mpr fun task htask => decide_eq_true (hsaved task htask)]
  · rename_i hne
    apply waiting_eq_nil
    intro task htask heq
    exact hne (Option.some.inj ((hsaved task htask).symm.trans heq))

/-! ## The order of the pictures -/

structure Ordered (v : View) : Prop where
  pictures : ∀ phone conn, ∀ f ∈ relayed v.log phone conn, isPicture f = true
  order : ∀ phone conn n, (conn < v.accepted → v.number conn = n) →
    (relayed v.log phone conn ++ v.backlog phone n).Sublist (framesOf (received v.log phone))

theorem framesOf_nil : framesOf [] = [] := by
  rw [framesOf, frameScanner.scan_nil]

/-- No iterator is at an entry that was erased. -/
def Placed (v : View) : Prop := ∀ w, (v.frame w).bind (·.2.iter) ≠ some .erased

theorem View.forget_eq {fd : Nat} (hiter : ∀ w, (v.frame w).bind (·.2.iter) ≠ some (.entry fd)) :
    v.forget fd = v := by
  have hframe : (fun w => (v.frame w).map fun p => (p.1, p.2.forget fd)) = v.frame := by
    funext w
    cases hframe : v.frame w with
    | none => rfl
    | some p =>
        have hp := hiter w
        rw [hframe] at hp
        rw [Option.map_some, FrameStage.forget_eq hp]
  rw [View.forget, hframe]

namespace Placed

theorem setFrame (h : Placed v) (w : Fin 4) (frame : Option (CFrameProcTask × FrameStage))
    (hframe : frame.bind (·.2.iter) ≠ some .erased) : Placed (v.setFrame w frame) := by
  intro w'
  simp only [View.setFrame, Function.update_apply]
  split
  · exact hframe
  · exact h w'

theorem move (h : Placed v) (hmove : Move True v v') : Placed v' := by
  cases hmove with
  | forget fd hiter =>
      rw [View.forget_eq (hiter trivial)]
      exact h
  | take w task => exact h.setFrame w (some (task, .taken)) nofun
  | pass w task stage stage' hstage hreaches => exact h.setFrame w _ (hreaches trivial).1
  | finish w => exact h.setFrame w none nofun
  | relay w task cameraId it fd node hstage hit =>
      apply h.setFrame w (some (task, .relayed cameraId it))
      rw [hit trivial]
      exact nofun
  | reject w task => exact h.setFrame w (some (task, .closing)) nofun
  | shut w task => exact h.setFrame w (some (task, .finishing)) nofun
  | _ => exact h

end Placed

namespace Ordered

theorem setFrame (h : Ordered v) (w : Fin 4) (frame : Option (CFrameProcTask × FrameStage))
    (hsub : ∀ phone n, (inflight frame phone n).Sublist (inflight (v.frame w) phone n)) :
    Ordered (v.setFrame w frame) := by
  refine ⟨h.pictures, ?_⟩
  intro phone conn n hn
  have hbacklog : ((v.setFrame w frame).backlog phone n).Sublist (v.backlog phone n) := by
    apply (List.Sublist.append_right · _)
    apply (List.Sublist.append_right · _)
    simp only [View.setFrame, Function.update_apply]
    split
    · rename_i heq
      rw [heq]
      exact hsub phone n
    · exact List.Sublist.refl _
  exact ((List.Sublist.refl _).append hbacklog).trans (h.order phone conn n hn)

theorem stage (h : Ordered v) {w : Fin 4} {task : CFrameProcTask} {stage : FrameStage}
    (stage' : FrameStage) (hstage : v.frame w = some (task, stage))
    (hreaches : ∀ n, stage'.Reaches n → stage.Reaches n) :
    Ordered (v.setFrame w (some (task, stage'))) := by
  apply h.setFrame
  intro phone n
  rw [hstage]
  exact inflight_sublist phone (hreaches n)

theorem setRecv (h : Ordered v) (w : Fin 4) (stage : Option RecvStage)
    (hsub : ∀ phone, (unsaved stage phone).Sublist (unsaved (v.recv w) phone)) :
    Ordered (v.setRecv w stage) := by
  refine ⟨h.pictures, ?_⟩
  intro phone conn n hn
  have hbacklog : ((v.setRecv w stage).backlog phone n).Sublist (v.backlog phone n) := by
    apply List.Sublist.append_left
    simp only [View.setRecv, Function.update_apply]
    split
    · rename_i heq
      rw [heq]
      exact hsub phone
    · exact List.Sublist.refl _
  exact ((List.Sublist.refl _).append hbacklog).trans (h.order phone conn n hn)

theorem record (h : Ordered v) (event : Event)
    (hreceived : ∀ phone, received (v.log ++ [event]) phone = received v.log phone)
    (hrelayed : ∀ phone conn, relayed (v.log ++ [event]) phone conn = relayed v.log phone conn) :
    Ordered (v.record event) := by
  refine ⟨?_, ?_⟩
  · intro phone conn f hf
    simp only [View.record, hrelayed] at hf
    exact h.pictures phone conn f hf
  · intro phone conn n hn
    dsimp only [View.record]
    rw [hreceived, hrelayed]
    exact h.order phone conn n hn

/-- A connection is new: nothing of it has been seen. -/
theorem accept (h : Ordered v) (hnumbered : Numbered v) (hframed : Framed v) {w : Fin 4} (fd : Nat)
    (hidle : v.recv w = none) :
    Ordered { v with
      fds := Function.update v.fds fd (some v.accepted)
      accepted := v.accepted + 1
      number := Function.update v.number v.accepted fd
      recv := Function.update v.recv w (some (.accepted fd v.accepted)) } := by
  refine ⟨h.pictures, ?_⟩
  intro phone conn n hn
  have hn' : conn < v.accepted → v.number conn = n := by
    intro hlt
    rw [← hn (Nat.lt_succ_of_lt hlt)]
    exact (Function.update_of_ne (Nat.ne_of_lt hlt) _ _).symm
  have hold := h.order phone conn n hn'
  have hunsaved (w' : Fin 4) :
      unsaved (Function.update v.recv w (some (.accepted fd v.accepted)) w') phone =
        unsaved (v.recv w') phone := by
    rw [Function.update_apply]
    split
    · rename_i heq
      rw [heq, hidle]
      rfl
    · rfl
  by_cases hphone : phone = v.accepted
  · subst hphone
    rw [(hnumbered.fresh _ (Nat.le_refl _)).1, framesOf_nil, List.sublist_nil, List.append_eq_nil_iff]
      at hold
    have hstranger : ∀ w task, OfWorker v.accepted v.number w task →
        task.conn ≠ some v.accepted := by
      intro w task hof hconn
      exact Nat.lt_irrefl _ (hof.conn _ hconn).1
    have hnone : ∀ w : Fin 4, inflight (v.frame w) v.accepted n = [] := by
      intro w
      unfold inflight
      split
      · rfl
      · rename_i task stage hstage
        exact if_neg fun hboth => hstranger w task (hframed.frame w task stage hstage) hboth.1
    have hall : ∀ w : Fin 4, unsaved (v.recv w) v.accepted = [] := by
      intro w
      unfold unsaved
      split
      · rename_i conn' _ _ hstage
        exact if_neg fun heq => Nat.lt_irrefl _ (heq ▸ (hframed.recv w _ conn' _ _ hstage).conn.1)
      · rfl
    dsimp only [View.backlog]
    rw [hold.1, List.nil_append, waiting_eq_nil, List.append_nil, hunsaved, hnone, hall]
    · exact List.nil_sublist _
    · intro task htask
      exact hstranger _ task (hframed.tasks _ task htask)
  · dsimp only [View.backlog]
    rw [Function.update_of_ne hphone, hunsaved]
    exact hold

theorem read (h : Ordered v) (hnumbered : Numbered v) (hsorted : Sorted v) (hparsed : Parsed v)
    {w : Fin 4} {fd : Nat} {conn : Conn} {bytes p : List UInt8} (hstage : v.recv w = some (.reading fd))
    (hopen : v.fds fd = some conn) (hpending : v.pending fd = some p) :
    Ordered (((v.setPending fd (some (restOf (p ++ bytes)))).record (.received conn bytes)).setRecv w
      (some (.saving fd conn (framesOf (p ++ bytes)) 0))) := by
  have hnumber := (hnumbered.fds fd conn hopen).2
  have hw : workerOf fd = w := hsorted.recv w _ fd hstage rfl
  refine ⟨?_, ?_⟩
  · intro phone conn' f hf
    simp only [View.record, View.setPending, View.setRecv, relayed_received] at hf
    exact h.pictures phone conn' f hf
  · intro phone conn' n hn
    have hold := h.order phone conn' n hn
    dsimp only [View.record, View.setPending, View.setRecv, View.backlog] at hold ⊢
    rw [relayed_received, received_received]
    by_cases hphone : conn = phone
    · subst hphone
      have hnone : unsaved (v.recv w) conn = [] := by
        rw [hstage]
        rfl
      have hnew : unsaved (some (.saving fd conn (framesOf (p ++ bytes)) 0)) conn =
          framesOf (p ++ bytes) := if_pos rfl
      rw [if_pos rfl, framesOf_append (received v.log conn), ← hparsed.opened fd conn p hpending hopen,
        hnumber, hw, Function.update_self, hnew, ← List.append_assoc]
      rw [hnumber, hw, hnone, List.append_nil] at hold
      exact hold.append (List.Sublist.refl _)
    · have hunsaved (w' : Fin 4) : unsaved (Function.update v.recv w
          (some (.saving fd conn (framesOf (p ++ bytes)) 0)) w') phone = unsaved (v.recv w') phone := by
        rw [Function.update_apply]
        split
        · rename_i heq
          rw [heq, hstage]
          exact if_neg hphone
        · rfl
      rw [hunsaved, if_neg hphone, List.append_nil]
      exact hold

/-- `SaveFrame` queues the next of the frames that were found, or none. -/
theorem save (h : Ordered v) (hsorted : Sorted v) (hframed : Framed v) {w : Fin 4} {fd : Nat}
    {conn : Conn} {frame : List UInt8} {frames : List (List UInt8)} {count : Nat} (count' : Nat)
    {saved : List CFrameProcTask} (hstage : v.recv w = some (.saving fd conn (frame :: frames) count))
    (hsaved : ∀ task ∈ saved, task.sock = fd ∧ task.conn = some conn)
    (hbytes : (saved.map CFrameProcTask.bytes).Sublist [frame]) :
    Ordered { v.setRecv w (some (.saving fd conn frames count')) with
      tasks := Function.update v.tasks (worker fd) (v.tasks (worker fd) ++ saved) } := by
  have hnumber := (hframed.recv w fd conn _ count hstage).conn.2
  have hw : workerOf fd = w := hsorted.recv w _ fd hstage rfl
  have hconn : ∀ task ∈ saved, task.conn = some conn := fun task htask => (hsaved task htask).2
  refine ⟨h.pictures, ?_⟩
  intro phone conn' n hn
  have hold := h.order phone conn' n hn
  dsimp only [View.setRecv, View.backlog] at hold ⊢
  by_cases hphone : conn = phone
  · subst hphone
    have hbefore : unsaved (v.recv w) conn = frame :: frames := by
      rw [hstage]
      exact if_pos rfl
    have hafter : unsaved (some (.saving fd conn frames count')) conn = frames := if_pos rfl
    rw [hnumber, hw, hbefore] at hold
    rw [hnumber, hw, Function.update_self, Function.update_self, hafter, waiting_append,
      waiting_saved conn hconn, if_pos rfl]
    refine List.Sublist.trans ?_ hold
    simp only [List.append_assoc]
    apply List.Sublist.append_left
    apply List.Sublist.append_left
    apply List.Sublist.append_left
    exact hbytes.append (List.Sublist.refl frames)
  · have hunsaved (w' : Fin 4) : unsaved (Function.update v.recv w
        (some (.saving fd conn frames count')) w') phone = unsaved (v.recv w') phone := by
      rw [Function.update_apply]
      split
      · rename_i heq
        rw [heq, hstage]
        exact (if_neg hphone).trans (if_neg hphone).symm
      · rfl
    have hwaiting : waiting (Function.update v.tasks (worker fd) (v.tasks (worker fd) ++ saved)
        (worker (v.number phone))) phone = waiting (v.tasks (worker (v.number phone))) phone := by
      rw [Function.update_apply]
      split
      · rename_i heq
        rw [waiting_append, waiting_saved phone hconn, if_neg hphone, List.append_nil, heq]
      · rfl
    rw [hunsaved, hwaiting]
    exact hold

theorem missed (h : Ordered v) (conn : Conn) (bytes : List UInt8) :
    Ordered (v.record (.received conn bytes)) := by
  refine ⟨?_, ?_⟩
  · intro phone conn' f hf
    simp only [View.record, relayed_received] at hf
    exact h.pictures phone conn' f hf
  · intro phone conn' n hn
    dsimp only [View.record]
    rw [relayed_received, received_received, framesOf_append]
    exact (h.order phone conn' n hn).trans (List.sublist_append_left _ _)

theorem take (h : Ordered v) {w : Fin 4} {task : CFrameProcTask}
    {rest : List CFrameProcTask} (hidle : v.frame w = none) (htasks : v.tasks w = task :: rest) :
    Ordered { v.setFrame w (some (task, .taken)) with
      tasks := Function.update v.tasks w rest } := by
  refine ⟨h.pictures, ?_⟩
  intro phone conn n hn
  have hold := h.order phone conn n hn
  dsimp only [View.backlog, View.setFrame] at hold ⊢
  by_cases hw : workerOf (v.number phone) = w
  · have hworker : worker (v.number phone) = w := by
      rw [← hw]
      rfl
    rw [hworker, htasks, waiting_cons task rest phone n, hw, hidle] at hold
    rw [hworker, hw, Function.update_self, Function.update_self]
    exact hold
  · have hworker : worker (v.number phone) ≠ w := fun heq => hw (Fin.ext heq)
    rw [Function.update_of_ne hw, Function.update_of_ne hworker]
    exact hold

theorem relay (h : Ordered v) (hnumbered : Numbered v) (hframed : Framed v) {w : Fin 4}
    {task : CFrameProcTask} {cameraId fd : Nat} {node : MemNode Nat}
    (hstage : v.frame w = some (task, .relaying cameraId (.entry fd))) (hnode : node.unsent = task.bytes) :
    Ordered ((v.push fd task.conn node).setFrame w (some (task, .relayed cameraId (.entry fd)))) := by
  have hof := hframed.frame w task _ hstage
  refine ⟨?_, ?_⟩
  · intro phone conn f hf
    simp only [View.setFrame, View.push, View.record, View.setChain, relayed_queued,
      List.mem_append] at hf
    rcases hf with hold | hnew
    · exact h.pictures phone conn f hold
    · split at hnew
      · rw [List.mem_singleton.mp hnew, hnode]
        exact hframed.picture w task _ hstage trivial
      · cases hnew
  · intro phone conn n hn
    by_cases hboth : v.fds fd = some conn ∧ task.conn = some phone
    · obtain ⟨hopen, hconn⟩ := hboth
      obtain ⟨hlt, hnumber⟩ := hnumbered.fds fd conn hopen
      have hfd : n = fd := (hn hlt).symm.trans hnumber
      subst hfd
      have hw : workerOf (v.number phone) = w := by
        apply Fin.ext
        rw [(hof.conn phone hconn).2]
        exact hof.worker.symm
      have hbefore : inflight (v.frame w) phone n = [task.bytes] := by
        rw [hstage]
        exact if_pos ⟨hconn, Nat.le_refl n⟩
      have hafter : inflight (some (task, .relayed cameraId (.entry n))) phone n = [] :=
        if_neg fun hreaches => Nat.lt_irrefl n hreaches.2
      have hold := h.order phone conn n hn
      dsimp only [View.backlog, View.setFrame, View.push, View.record, View.setChain] at hold ⊢
      rw [relayed_queued, received_queued, if_pos ⟨hopen, hconn⟩, hw, Function.update_self, hafter,
        hnode, List.nil_append, List.append_assoc]
      rw [hw, hbefore, List.append_assoc] at hold
      exact hold
    · have hrest := (h.stage (.relayed cameraId (.entry fd)) hstage fun n' hn' =>
        Nat.le_of_lt hn').order phone conn n hn
      dsimp only [View.backlog, View.setFrame, View.push, View.record, View.setChain] at hrest ⊢
      rw [relayed_queued, received_queued, if_neg hboth, List.append_nil]
      exact hrest

theorem move (h : Ordered v) (hnumbered : Numbered v) (hsorted : Sorted v) (hframed : Framed v)
    (hparsed : Parsed v) (hmove : Move True v v') : Ordered v' := by
  have hnone (w : Fin 4) (stage : Option RecvStage) (hstage : ∀ phone, unsaved stage phone = []) :
      Ordered (v.setRecv w stage) := by
    apply h.setRecv
    intro phone
    rw [hstage]
    exact List.nil_sublist _
  cases hmove with
  | deliver => exact ⟨h.pictures, h.order⟩
  | drop => exact ⟨h.pictures, h.order⟩
  | accept w fd hidle => exact h.accept hnumbered hframed fd hidle
  | advance w stage stage' hstage haccepting hsame =>
      apply hnone
      intro phone
      rw [← hsame] at haccepting
      cases stage' with
      | accepted | polled | inserted => rfl
      | _ => cases haccepting
  | refuse w =>
      have hset := hnone w none fun _ => rfl
      exact ⟨hset.pictures, hset.order⟩
  | addClient w =>
      have hset := hnone w none fun _ => rfl
      exact ⟨hset.pictures, hset.order⟩
  | turn w stage hfree hstage =>
      apply hnone
      rcases hstage with rfl | ⟨fd, rfl, _⟩
      · exact fun _ => rfl
      · exact fun _ => rfl
  | read w fd conn bytes p hstage hopen haccepting hpending =>
      exact h.read hnumbered hsorted hparsed hstage hopen hpending
  | missed fd conn bytes => exact h.missed conn bytes
  | save w fd conn frame frames count count' saved hstage hsaved hbytes =>
      exact h.save hsorted hframed count' hstage hsaved hbytes
  | saved w => exact hnone w _ fun _ => rfl
  | close w fd removes =>
      have hset := hnone w (some (.closed fd removes)) fun _ => rfl
      exact ⟨hset.pictures, hset.order⟩
  | forget fd hiter =>
      rw [View.forget_eq (hiter trivial)]
      exact h
  | quit w fd removes =>
      have hset := hnone w (if removes then some (.quit fd) else none) (by
        intro phone
        cases removes <;> rfl)
      exact ⟨hset.pictures, hset.order⟩
  | remove w =>
      have hset := hnone w none fun _ => rfl
      exact ⟨hset.pictures, hset.order⟩
  | take w task rest hidle htasks => exact h.take hidle htasks
  | pass w task stage stage' hstage hreaches => exact h.stage stage' hstage (hreaches trivial).2
  | finish w =>
      apply h.setFrame
      intro phone n
      exact List.nil_sublist _
  | ack fd node =>
      have hlog := h.record (.queued (v.fds fd) none node.unsent)
        (fun phone => received_queued _ _ _ _ _) fun phone conn => by
          rw [relayed_queued, if_neg (fun hboth => nomatch hboth.2), List.append_nil]
      exact ⟨hlog.pictures, hlog.order⟩
  | relay w task cameraId it fd node hstage hit hnode =>
      rw [hit trivial] at hstage ⊢
      exact h.relay hnumbered hframed hstage hnode
  | reject w task hstage =>
      have hset := h.stage .closing hstage nofun
      exact ⟨hset.pictures, hset.order⟩
  | shut w task hstage =>
      have hset := h.stage .finishing hstage nofun
      exact ⟨hset.pictures, hset.order⟩
  | send fd conn node front rest bytes =>
      have hlog := h.record (.sent conn node.tag bytes) (fun phone => received_sent _ _ _ _ _)
        fun phone conn' => relayed_sent _ _ _ _ _ _
      exact ⟨hlog.pictures, hlog.order⟩

end Ordered

end CmdTran
