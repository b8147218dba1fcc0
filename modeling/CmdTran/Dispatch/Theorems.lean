import Mathlib.Data.List.Nodup
import CmdTran.Dispatch.Basic

/-!
# Tasks of one id run one after another

An id has one worker and a worker has one thread. What was submitted to a worker is what it has
finished, what it runs and what is in its list, in this order.
-/

namespace CmdTran

variable {α τ : Type}

/-! ## `InitPool` -/

namespace CMasterWorkPool

theorem foldl_insert (count n : Nat) :
    ((List.range n).map InitStep.insert).foldl initStep (⟨count, fun _ => none⟩ : CMasterWorkPool τ) =
      ⟨count, fun w => if w < n then some CThreadPool.new else none⟩ := by
  induction n with
  | zero => simp
  | succ n ih =>
      rw [List.range_succ, List.map_append, List.foldl_append, ih]
      simp only [List.map_cons, List.map_nil, List.foldl_cons, List.foldl_nil, initStep]
      congr 1
      funext w
      rcases Nat.lt_trichotomy w n with hlt | rfl | hgt
      · rw [Function.update_of_ne (by omega), if_pos hlt, if_pos (by omega)]
      · simp
      · rw [Function.update_of_ne (by omega), if_neg (by omega), if_neg (by omega)]

theorem foldl_initWorker (p : CMasterWorkPool τ) (n : Nat) :
    ((List.range n).map InitStep.initWorker).foldl initStep p =
      ⟨p.workerCount, fun w =>
        if w < n then (p.threadMap w).map CThreadPool.initPool else p.threadMap w⟩ := by
  induction n with
  | zero => simp
  | succ n ih =>
      rw [List.range_succ, List.map_append, List.foldl_append, ih]
      simp only [List.map_cons, List.map_nil, List.foldl_cons, List.foldl_nil, initStep]
      congr 1
      funext w
      rcases Nat.lt_trichotomy w n with hlt | rfl | hgt
      · rw [Function.update_of_ne (by omega), if_pos hlt, if_pos (by omega)]
      · simp
      · rw [Function.update_of_ne (by omega), if_neg (by omega), if_neg (by omega)]

theorem initPool_eq (p : CMasterWorkPool τ) (n : Nat) :
    p.initPool n =
      ⟨n, fun w => if w < n then some CThreadPool.new.initPool else none⟩ := by
  rw [initPool, initSteps, List.cons_append, List.foldl_cons, List.cons_append, List.foldl_cons,
    List.foldl_append]
  dsimp only [initStep]
  rw [foldl_insert, foldl_initWorker]
  congr 1
  funext w
  dsimp only
  split <;> rfl

end CMasterWorkPool

/-! ## One worker -/

namespace CThreadPool

variable {p p' : CThreadPool τ}

/-- The thread moves the tasks of its worker from the list to `ProcessTask` and out of it. -/
theorem goOn_spec (h : p.goOn = some p') (hflag : p.runingFlag = true) :
    p'.runingFlag = true ∧ p'.thread.isSome ∧ p.running ++ p.next ++ p'.taskList =
      p.running ++ p.taskList ∧ p'.running = p.next ∧ (p.running = [] ∨ p.next = []) := by
  unfold goOn at h
  split at h
  · rename_i hthread
    cases h
    cases htasks : p.taskList with
    | nil => simp [getTask, running, next, hflag, hthread, htasks]
    | cons task tasks => simp [getTask, running, next, hflag, hthread, htasks]
  · rename_i task hthread
    cases h
    simp [running, next, hflag, hthread]
  · cases h

theorem wake_spec (h : p.wake = some p') :
    p'.runingFlag = p.runingFlag ∧ p'.thread.isSome ∧ p'.taskList = p.taskList ∧
      p'.running = p.running := by
  unfold wake at h
  split at h
  · rename_i hthread
    cases h
    simp [running, hthread]
  · cases h

theorem running_length (p : CThreadPool τ) : p.running.length ≤ 1 := by
  unfold running
  split
  · simp
  · simp

end CThreadPool

/-! ## The invariant -/

namespace Dispatch

variable {n : Nat} {s s' : Dispatch α}

/-- The tasks of a worker. -/
def ofWorker (n w : Nat) (tickets : List (Ticket α)) : List (Ticket α) :=
  tickets.filter (·.id % n = w)

theorem ofWorker_append (n w : Nat) (l l' : List (Ticket α)) :
    ofWorker n w (l ++ l') = ofWorker n w l ++ ofWorker n w l' := List.filter_append _ _

theorem ofWorker_eq_self {w : Nat} {l : List (Ticket α)} (h : ∀ t ∈ l, t.id % n = w) :
    ofWorker n w l = l := List.filter_eq_self.mpr (by simpa using h)

theorem ofWorker_eq_nil {w w' : Nat} {l : List (Ticket α)} (h : ∀ t ∈ l, t.id % n = w)
    (hne : w' ≠ w) : ofWorker n w' l = [] := by
  rw [ofWorker, List.filter_eq_nil_iff]
  intro t ht heq
  exact hne ((of_decide_eq_true heq).symm.trans (h t ht))

theorem mem_ofWorker {w : Nat} {t : Ticket α} {l : List (Ticket α)} :
    t ∈ ofWorker n w l ↔ t ∈ l ∧ t.id % n = w := by
  simp [ofWorker]

/-- What a worker has to do with what was submitted to it. -/
structure Line (n : Nat) (s : Dispatch α) (w : Nat) (p : CThreadPool (Ticket α)) : Prop where
  runingFlag : p.runingFlag = true
  submitted : ofWorker n w s.submitted = ofWorker n w s.finished ++ p.running ++ p.taskList
  started : ofWorker n w s.started = ofWorker n w s.finished ++ p.running

structure Inv (n : Nat) (s : Dispatch α) : Prop where
  count : s.pool.workerCount = n
  entries : ∀ w, (s.pool.threadMap w).isSome ↔ w < n
  lines : ∀ w p, s.pool.threadMap w = some p → Line n s w p
  numbers : s.submitted.map Ticket.number = List.range s.submitted.length

theorem inv_start (n : Nat) : Inv n (start n : Dispatch α) := by
  have hpool : (start n : Dispatch α).pool = _ := CMasterWorkPool.initPool_eq _ n
  refine ⟨?_, ?_, ?_, rfl⟩
  · rw [hpool]
  · intro w
    rw [hpool]
    simp
  · intro w p hp
    rw [hpool] at hp
    dsimp only at hp
    split at hp
    · cases hp
      exact ⟨rfl, rfl, rfl⟩
    · cases hp

namespace Inv

theorem mem_line (h : Inv n s) {w : Nat} {p : CThreadPool (Ticket α)}
    (hp : s.pool.threadMap w = some p) {t : Ticket α} (ht : t ∈ p.running ++ p.taskList) :
    t ∈ s.submitted ∧ t.id % n = w := by
  rw [← mem_ofWorker, (h.lines w p hp).submitted, List.append_assoc]
  exact List.mem_append_right _ ht

/-! ## One step -/

/-- The entry of a worker is replaced and the other lines are as they were. -/
theorem setWorker (h : Inv n s) {w : Nat} {p p' : CThreadPool (Ticket α)}
    (hp : s.pool.threadMap w = some p) {submitted started finished : List (Ticket α)}
    (hnumbers : submitted.map Ticket.number = List.range submitted.length)
    (hothers : ∀ w', w' ≠ w → ofWorker n w' submitted = ofWorker n w' s.submitted ∧
      ofWorker n w' started = ofWorker n w' s.started ∧
      ofWorker n w' finished = ofWorker n w' s.finished)
    (hline : Line n ⟨s.pool.setWorker w p', submitted, started, finished⟩ w p') :
    Inv n ⟨s.pool.setWorker w p', submitted, started, finished⟩ := by
  refine ⟨h.count, ?_, ?_, hnumbers⟩
  · intro w'
    simp only [CMasterWorkPool.setWorker, Function.update_apply]
    split
    · rename_i heq
      subst heq
      simpa [hp] using h.entries w'
    · exact h.entries w'
  · intro w' q hq
    simp only [CMasterWorkPool.setWorker, Function.update_apply] at hq
    split at hq
    · rename_i heq
      subst heq
      cases hq
      exact hline
    · rename_i hne
      obtain ⟨hsubmitted, hstarted, hfinished⟩ := hothers w' hne
      obtain ⟨hflag, hall, hbegun⟩ := h.lines w' q hq
      refine ⟨hflag, ?_, ?_⟩
      · simp only [hsubmitted, hfinished, hall]
      · simp only [hstarted, hfinished, hbegun]

theorem addTask (h : Inv n s) {id : Nat} {task : α} (hs : s.step (.addTask id task) = some s') :
    Inv n s' := by
  simp only [Dispatch.step, CMasterWorkPool.addTask, h.count] at hs
  split at hs
  · cases hs
  · obtain ⟨pool, hpool, rfl⟩ := Option.map_eq_some_iff.mp hs
    obtain ⟨p, hp, rfl⟩ := Option.map_eq_some_iff.mp hpool
    obtain ⟨hflag, hall, hbegun⟩ := h.lines _ p hp
    let t : Ticket α := ⟨id, s.submitted.length, task⟩
    have hmine : ∀ u ∈ [t], u.id % n = id % n := by simp [t]
    apply h.setWorker hp
    · rw [List.map_append, h.numbers, List.length_append]
      simp [List.range_succ]
    · intro w' hne
      refine ⟨?_, rfl, rfl⟩
      rw [ofWorker_append, ofWorker_eq_nil hmine hne, List.append_nil]
    · refine ⟨hflag, ?_, hbegun⟩
      change ofWorker n (id % n) (s.submitted ++ [t]) =
        ofWorker n (id % n) s.finished ++ p.running ++ (p.taskList ++ [t])
      rw [ofWorker_append, ofWorker_eq_self hmine, hall]
      simp

theorem goOn (h : Inv n s) {w : Nat} (hs : s.step (.goOn w) = some s') : Inv n s' := by
  obtain ⟨p, hp, hs⟩ := Option.bind_eq_some_iff.mp hs
  obtain ⟨p', hp', rfl⟩ := Option.map_eq_some_iff.mp hs
  obtain ⟨hflag, hall, hbegun⟩ := h.lines w p hp
  obtain ⟨hflag', _, htasks, hrunning, hone⟩ := CThreadPool.goOn_spec hp' hflag
  have hmine : ∀ t ∈ p.running ++ p.next, t.id % n = w := by
    intro t ht
    apply (h.mem_line hp _).2
    rw [← htasks]
    exact List.mem_append_left _ ht
  have hrun := fun t ht => hmine t (List.mem_append_left p.next ht)
  have hnext := fun t ht => hmine t (List.mem_append_right p.running ht)
  apply h.setWorker hp h.numbers
  · intro w' hne
    refine ⟨rfl, ?_, ?_⟩
    · rw [ofWorker_append, ofWorker_eq_nil hnext hne, List.append_nil]
    · rw [ofWorker_append, ofWorker_eq_nil hrun hne, List.append_nil]
  · refine ⟨hflag', ?_, ?_⟩
    · change ofWorker n w s.submitted = ofWorker n w (s.finished ++ p.running) ++ p'.running ++ p'.taskList
      rw [hall, ofWorker_append, ofWorker_eq_self hrun, hrunning, List.append_assoc _ p.running,
        ← htasks]
      simp only [List.append_assoc]
    · change ofWorker n w (s.started ++ p.next) = ofWorker n w (s.finished ++ p.running) ++ p'.running
      rw [ofWorker_append, ofWorker_append, hbegun, ofWorker_eq_self hrun, ofWorker_eq_self hnext,
        hrunning]

theorem wake (h : Inv n s) {w : Nat} (hs : s.step (.wake w) = some s') : Inv n s' := by
  obtain ⟨p, hp, hs⟩ := Option.bind_eq_some_iff.mp hs
  obtain ⟨p', hp', rfl⟩ := Option.map_eq_some_iff.mp hs
  obtain ⟨hflag, hall, hbegun⟩ := h.lines w p hp
  obtain ⟨hflag', _, htasks, hrunning⟩ := CThreadPool.wake_spec hp'
  apply h.setWorker hp h.numbers
  · intro w' hne
    exact ⟨rfl, rfl, rfl⟩
  · exact ⟨hflag'.trans hflag, by rw [htasks, hrunning]; exact hall, by rw [hrunning]; exact hbegun⟩

theorem step (h : Inv n s) {a : DispatchStep α} (hs : s.step a = some s') : Inv n s' := by
  cases a with
  | addTask id task => exact h.addTask hs
  | goOn w => exact h.goOn hs
  | wake w => exact h.wake hs

/-! ## What a state says -/

theorem nodup (h : Inv n s) : s.submitted.Nodup := by
  apply List.Nodup.of_map Ticket.number
  rw [h.numbers]
  exact List.nodup_range

/-- The tasks of a worker are in the order of their numbers. -/
theorem pairwise_line (h : Inv n s) (w : Nat) :
    (ofWorker n w s.submitted).Pairwise fun t u => t.number < u.number := by
  have hall : s.submitted.Pairwise fun t u => t.number < u.number := by
    rw [← List.pairwise_map, h.numbers]
    exact List.pairwise_lt_range
  exact hall.filter _

/-- What a worker has had is without repetitions. -/
theorem line_nodup (h : Inv n s) {w : Nat} {p : CThreadPool (Ticket α)}
    (hp : s.pool.threadMap w = some p) :
    (ofWorker n w s.finished ++ p.running ++ p.taskList).Nodup := by
  rw [← (h.lines w p hp).submitted]
  exact h.nodup.filter _

theorem exists_worker (h : Inv n s) (hn : 0 < n) (id : Nat) :
    ∃ p, s.pool.threadMap (id % n) = some p :=
  Option.isSome_iff_exists.mp ((h.entries _).mpr (Nat.mod_lt id hn))

theorem ofId_ofWorker (n id : Nat) (l : List (Ticket α)) :
    ofId id (ofWorker n (id % n) l) = ofId id l := by
  rw [ofId, ofWorker, List.filter_filter, ofId]
  apply List.filter_congr
  intro t _
  by_cases hid : t.id = id
  · simp [hid]
  · simp [hid]

theorem ofId_started (h : Inv n s) {id : Nat} {p : CThreadPool (Ticket α)}
    (hp : s.pool.threadMap (id % n) = some p) :
    ofId id s.started = ofId id s.finished ++ ofId id p.running := by
  rw [← ofId_ofWorker n, (h.lines _ p hp).started, ofId, List.filter_append]
  exact congrArg (· ++ _) (ofId_ofWorker n id s.finished)

theorem ofId_submitted (h : Inv n s) {id : Nat} {p : CThreadPool (Ticket α)}
    (hp : s.pool.threadMap (id % n) = some p) :
    ofId id s.submitted = ofId id s.started ++ ofId id p.taskList := by
  rw [h.ofId_started hp, ← ofId_ofWorker n, (h.lines _ p hp).submitted, ofId, List.filter_append,
    List.filter_append]
  exact congrArg (· ++ _ ++ _) (ofId_ofWorker n id s.finished)

theorem running_iff (h : Inv n s) {t : Ticket α} {p : CThreadPool (Ticket α)}
    (hp : s.pool.threadMap (t.id % n) = some p) : s.Running t ↔ t ∈ p.running := by
  constructor
  · rintro ⟨w, q, hq, ht⟩
    obtain rfl := (h.mem_line hq (List.mem_append_left _ ht)).2
    cases hp.symm.trans hq
    exact ht
  · intro ht
    exact ⟨_, p, hp, ht⟩

theorem queued_iff (h : Inv n s) {t : Ticket α} {p : CThreadPool (Ticket α)}
    (hp : s.pool.threadMap (t.id % n) = some p) : s.Queued t ↔ t ∈ p.taskList := by
  constructor
  · rintro ⟨w, q, hq, ht⟩
    obtain rfl := (h.mem_line hq (List.mem_append_right _ ht)).2
    cases hp.symm.trans hq
    exact ht
  · intro ht
    exact ⟨_, p, hp, ht⟩

/-- A submitted task is in one part of the line of its worker. -/
theorem place (h : Inv n s) (hn : 0 < n) {t : Ticket α} (ht : t ∈ s.submitted) :
    s.Queued t ∧ ¬s.Running t ∧ t ∉ s.finished ∨ ¬s.Queued t ∧ s.Running t ∧ t ∉ s.finished ∨
      ¬s.Queued t ∧ ¬s.Running t ∧ t ∈ s.finished := by
  obtain ⟨p, hp⟩ := h.exists_worker hn t.id
  have hfinished : t ∈ s.finished ↔ t ∈ ofWorker n (t.id % n) s.finished := by simp [mem_ofWorker]
  have hin : t ∈ ofWorker n (t.id % n) s.submitted := mem_ofWorker.mpr ⟨ht, rfl⟩
  have hnodup := h.line_nodup hp
  rw [(h.lines _ p hp).submitted, List.mem_append, List.mem_append] at hin
  rw [List.nodup_append, List.nodup_append] at hnodup
  obtain ⟨⟨_, _, hdone⟩, _, hlist⟩ := hnodup
  rw [h.queued_iff hp, h.running_iff hp, hfinished]
  rcases hin with (hf | hr) | hq
  · refine Or.inr (Or.inr ⟨?_, ?_, hf⟩)
    · exact fun hq => hlist t (List.mem_append_left _ hf) t hq rfl
    · exact fun hr => hdone t hf t hr rfl
  · refine Or.inr (Or.inl ⟨?_, hr, ?_⟩)
    · exact fun hq => hlist t (List.mem_append_right _ hr) t hq rfl
    · exact fun hf => hdone t hf t hr rfl
  · refine Or.inl ⟨hq, ?_, ?_⟩
    · exact fun hr => hlist t (List.mem_append_right _ hr) t hq rfl
    · exact fun hf => hlist t (List.mem_append_left _ hf) t hq rfl

theorem started_nodup (h : Inv n s) (hn : 0 < n) : s.started.Nodup := by
  classical
  rw [List.nodup_iff_count_le_one]
  intro t
  obtain ⟨p, hp⟩ := h.exists_worker hn t.id
  have hline : (ofWorker n (t.id % n) s.started).Nodup := by
    have hnodup := h.line_nodup hp
    rw [(h.lines _ p hp).started]
    exact (List.nodup_append.mp hnodup).1
  have hcount := List.nodup_iff_count_le_one.mp hline t
  rwa [ofWorker, List.count_filter (by simp)] at hcount

theorem serial (h : Inv n s) (hn : 0 < n) : Serial s := by
  refine ⟨?_, ⟨h.nodup, h.started_nodup hn⟩, ?_, fun t ht => h.place hn ht⟩
  · intro id
    obtain ⟨p, hp⟩ := h.exists_worker hn id
    rw [h.ofId_submitted hp]
    exact List.prefix_append _ _
  · intro id
    obtain ⟨p, hp⟩ := h.exists_worker hn id
    refine ⟨ofId id p.running, h.ofId_started hp, ?_, ?_⟩
    · exact (List.length_filter_le _ _).trans p.running_length
    · intro t
      rw [ofId, List.mem_filter, decide_eq_true_eq]
      refine and_congr_left fun hid => ?_
      subst hid
      exact (h.running_iff hp).symm

/-- When a task starts, what its worker was given before has been finished. -/
theorem startsInTurn (h : Inv n s) {a : DispatchStep α} (hs : s.step a = some s') :
    StartsInTurn s s' := by
  intro t ht hnew u hu hid hbefore
  cases a with
  | addTask id task =>
      obtain ⟨pool, _, rfl⟩ := Option.map_eq_some_iff.mp hs
      exact absurd ht hnew
  | wake w =>
      obtain ⟨p, _, hs⟩ := Option.bind_eq_some_iff.mp hs
      obtain ⟨p', _, rfl⟩ := Option.map_eq_some_iff.mp hs
      exact absurd ht hnew
  | goOn w =>
      obtain ⟨p, hp, hs⟩ := Option.bind_eq_some_iff.mp hs
      obtain ⟨p', hp', rfl⟩ := Option.map_eq_some_iff.mp hs
      have hline := h.lines w p hp
      obtain ⟨_, _, htasks, hrunning, hone⟩ := CThreadPool.goOn_spec hp' hline.runingFlag
      have hstarts : t ∈ p.next := (List.mem_append.mp ht).resolve_left hnew
      have hidle : p.running = [] := hone.resolve_right (List.ne_nil_of_mem hstarts)
      rw [hidle, List.nil_append, List.nil_append] at htasks
      have hnext : p.next = [t] := by
        have hlen : p.next.length ≤ 1 := hrunning ▸ p'.running_length
        obtain ⟨x, hx⟩ := List.length_eq_one_iff.mp
          (Nat.le_antisymm hlen (List.length_pos_of_mem hstarts))
        rw [hx] at hstarts ⊢
        rw [List.mem_singleton.mp hstarts]
      have hall := hline.submitted
      rw [hidle, List.append_nil, ← htasks, hnext] at hall
      have htw : t.id % n = w := by
        apply (h.mem_line hp _).2
        rw [hidle, ← htasks, hnext]
        exact List.mem_cons_self
      have hin : u ∈ ofWorker n w s.submitted := mem_ofWorker.mpr ⟨hu, by rw [hid, htw]⟩
      have hpairs := h.pairwise_line w
      rw [hall] at hin hpairs
      rcases List.mem_append.mp hin with hdone | hlater
      · exact (mem_ofWorker.mp hdone).1
      · rcases List.mem_cons.mp hlater with rfl | hrest
        · exact absurd hbefore (Nat.lt_irrefl _)
        · have hafter := List.rel_of_pairwise_cons (List.pairwise_append.mp hpairs).2.1 hrest
          exact absurd hafter (Nat.lt_asymm hbefore)

end Inv

/-! ## Every run -/

/-- In every state of every run, the tasks of each id run one after another in the order in which they
were appended, and no task is in two places or in none. -/
theorem serial_of_run (hn : 0 < n) {steps : List (DispatchStep α)}
    (hrun : (dispatch n).run (start n) steps = some s) :
    Serial s ∧ ∀ a s', s.step a = some s' → StartsInTurn s s' := by
  have hstep : ∀ (s : Dispatch α) a s', Inv n s → (dispatch n).step s a = some s' → Inv n s' :=
    fun _ _ _ h hs => h.step hs
  have hinv : Inv n s := (dispatch n).run_invariant hstep (inv_start n) hrun
  exact ⟨hinv.serial hn, fun a s' hs => hinv.startsInTurn hs⟩

/-- Ids 0 and 2 share the first of two workers; id 1 has the other. -/
def twoWorkers : List (DispatchStep Nat) :=
  [.addTask 0 7, .addTask 2 8, .goOn 0, .addTask 1 9, .goOn 1, .addTask 0 5, .goOn 0, .goOn 0, .goOn 1]

theorem serial_of_run_twoWorkers : ∃ s, (dispatch 2).run (start 2) twoWorkers = some s ∧
    s.finished.map (·.task) = [7, 9] ∧ Serial s ∧
    ∀ a s', s.step a = some s' → StartsInTurn s s' := by
  have hlists : ((dispatch 2).run (start 2) twoWorkers).map (fun s => s.finished.map (·.task)) =
      some [7, 9] := by
    decide +kernel
  obtain ⟨s, hrun, hs⟩ := Option.map_eq_some_iff.mp hlists
  exact ⟨s, hrun, hs, serial_of_run (by decide) hrun⟩

end Dispatch

end CmdTran
