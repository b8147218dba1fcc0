import CmdTran.Dispatch.Basic
import CmdTran.Server.Basic

/-!
# Starting the server

`CEpollServer::Start` creates the epoll thread and then initialises the two pools that it dispatches to.
`CRecvDataProc` has its own pool, which its constructor has initialised before.

Which calls of `AddTask` a task makes is left open as far as it depends on the bytes it reads: a recv
worker may queue any number of frames of a registered descriptor, a frame may lead to a `SendData` to any
registered socket.
-/

namespace CmdTran

/-! ## State -/

/-- `ThreadManager`, `RecvFrameProcTM` and `SendThreadManager`. -/
inductive Manager where
  | recv
  | frame
  | send
  deriving DecidableEq, Repr

inductive ServerTask where
  | event (ev : EpollEvent)
  | frame (sock : Nat)
  | send (sock : Nat)
  deriving DecidableEq

inductive StartStep where
  | createThread
  | init (manager : Manager) (step : InitStep)
  deriving DecidableEq

/-- What `Start` does, in order. -/
def startSteps : List StartStep :=
  .createThread :: (initSteps 4).map (.init .recv) ++ (initSteps 4).map (.init .send)

/-- Before `InitScoket` of `_EventRecvFun`, and in its loop with the events of `epoll_wait` that it has
still to hand on. -/
inductive EpollStage where
  | absent
  | created
  | looping (events : List EpollEvent)
  | ended
  deriving DecidableEq

/-- After one event of the loop. -/
def EpollStage.next : EpollStage → EpollStage
  | .looping events => .looping events.tail
  | stage => stage

/-- `program` is what `Start` has still to do. `registered` has the connections that are in
`m_SocketInfo` and in the epoll set. A server that did what C++ does not define is `broken`. -/
structure Startup where
  program : List StartStep
  epoll : EpollStage
  registered : List Nat
  pools : Manager → CMasterWorkPool ServerTask
  broken : Bool

inductive StartupStep where
  | main
  | initScoket (ok : Bool)
  | epollWait (events : List EpollEvent)
  | deliver
  | goOn (manager : Manager) (w : Nat)
  | wake (manager : Manager) (w : Nat)
  | accept (w fd : Nat)
  | readFrame (w : Nat)
  | writable (w : Nat)
  | closeSocket (w : Nat)
  | sendData (w sock : Nat)

namespace Startup

/-- The pools at the beginning of `Start`. -/
def initialPools : Manager → CMasterWorkPool ServerTask
  | .frame => CMasterWorkPool.new.initPool 4
  | _ => CMasterWorkPool.new

def start : Startup := ⟨startSteps, .absent, [], initialPools, false⟩

/-! ## Steps -/

def setPool (s : Startup) (m : Manager) (p : CMasterWorkPool ServerTask) : Startup :=
  { s with pools := Function.update s.pools m p }

/-- The event that a recv worker has in `ProcessTask`. -/
def runningEvent (s : Startup) (w : Nat) : Option EpollEvent :=
  match (s.pools .recv).threadMap w with
  | some ⟨_, _, some (.running (.event ev))⟩ => some ev
  | _ => none

/-- Whether a frame worker has a frame in `ProcessTask`. -/
def runsFrame (s : Startup) (w : Nat) : Bool :=
  match (s.pools .frame).threadMap w with
  | some ⟨_, _, some (.running (.frame _))⟩ => true
  | _ => false

def runMain (s : Startup) : Option Startup :=
  match s.program with
  | [] => none
  | .createThread :: program => some { s with program, epoll := .created }
  | .init m i :: program =>
      some { s with program, pools := Function.update s.pools m ((s.pools m).initStep i) }

/-- The call of `AddTask` that a step makes: the pool, the id and the task. -/
def attempt (listenSocket : Nat) (s : Startup) : StartupStep → Option (Manager × Nat × ServerTask)
  | .deliver =>
      match s.epoll with
      | .looping (ev :: _) => some (.recv, ev.fd, .event ev)
      | _ => none
  | .readFrame w =>
      (s.runningEvent w).bind fun ev =>
        if ev.fd ≠ listenSocket ∧ ev.epollin ∧ ev.fd ∈ s.registered then
          some (.frame, ev.fd, .frame ev.fd)
        else none
  | .writable w =>
      (s.runningEvent w).bind fun ev =>
        if ev.fd ≠ listenSocket ∧ ¬ev.epollin ∧ ev.epollout ∧ ev.fd ∈ s.registered then
          some (.send, ev.fd, .send ev.fd)
        else none
  | .sendData w sock =>
      if s.runsFrame w ∧ sock ∈ s.registered then some (.send, sock, .send sock) else none
  | _ => none

def addTask (s : Startup) (c : Manager × Nat × ServerTask) : Startup :=
  match (s.pools c.1).addTask c.2.1 c.2.2 with
  | some p => s.setPool c.1 p
  | none => { s with broken := true }

def onWorker (s : Startup) (m : Manager) (w : Nat)
    (f : CThreadPool ServerTask → Option (CThreadPool ServerTask)) : Option Startup :=
  ((s.pools m).threadMap w).bind fun worker =>
    (f worker).map fun worker' => s.setPool m ((s.pools m).setWorker w worker')

def step (listenSocket : Nat) (s : Startup) (a : StartupStep) : Option Startup :=
  if s.broken then none
  else
    match a with
    | .main => s.runMain
    | .initScoket ok =>
        if s.epoll = .created then some { s with epoll := if ok then .looping [] else .ended } else none
    | .epollWait events =>
        if s.epoll = .looping [] ∧ ∀ ev ∈ events, ev.fd = listenSocket ∨ ev.fd ∈ s.registered then
          some { s with epoll := .looping events }
        else none
    | .goOn m w => s.onWorker m w CThreadPool.goOn
    | .wake m w => s.onWorker m w CThreadPool.wake
    | .accept w fd =>
        (s.runningEvent w).bind fun ev =>
          if ev.fd = listenSocket ∧ fd ≠ listenSocket then
            some { s with registered := s.registered.insert fd }
          else none
    | .closeSocket w =>
        (s.runningEvent w).map fun ev => { s with registered := s.registered.erase ev.fd }
    | .deliver => (s.attempt listenSocket a).map { s with epoll := s.epoll.next }.addTask
    | .readFrame _ | .writable _ | .sendData _ _ => (s.attempt listenSocket a).map s.addTask

/-! ## What should hold -/

/-- `AddTask` with this id is defined, and finds a worker that has been initialised. -/
def Ready (p : CMasterWorkPool ServerTask) (id : Nat) : Prop :=
  0 < p.workerCount ∧
    ∃ worker, p.threadMap (id % p.workerCount) = some worker ∧ worker.thread.isSome

/-- The call of `AddTask` that the step makes, if it makes one, is ready. -/
def Safe (listenSocket : Nat) (s : Startup) (a : StartupStep) : Prop :=
  ∀ m id task, s.attempt listenSocket a = some (m, id, task) → Ready (s.pools m) id

/-- `Start` has initialised the worker of the id that the step calls `AddTask` with, if it does. -/
def NotEarly (listenSocket : Nat) (s : Startup) (a : StartupStep) : Prop :=
  ∀ m id task, s.attempt listenSocket a = some (m, id, task) →
    .init m (.initWorker (id % 4)) ∉ s.program

instance (listenSocket : Nat) (s : Startup) (a : StartupStep) : Decidable (NotEarly listenSocket s a) :=
  decidable_of_iff
    (∀ call ∈ s.attempt listenSocket a, .init call.1 (.initWorker (call.2.1 % 4)) ∉ s.program)
    ⟨fun h m id task hcall => h (m, id, task) hcall, fun h call hcall => h call.1 call.2.1 call.2.2 hcall⟩

end Startup

def startup (listenSocket : Nat) : StepSystem Startup StartupStep where
  start := Startup.start
  step := Startup.step listenSocket

/-! ## How far the pools are -/

namespace CMasterWorkPool

variable {τ : Type} {p q : CMasterWorkPool τ}

/-- The count, and which workers are there and have a thread. -/
def shape (p : CMasterWorkPool τ) : Nat × (Nat → Option Bool) :=
  (p.workerCount, fun w => (p.threadMap w).map (·.thread.isSome))

theorem shape_setWorker {w : Nat} {worker worker' : CThreadPool τ}
    (hw : p.threadMap w = some worker) (h : worker'.thread.isSome = worker.thread.isSome) :
    (p.setWorker w worker').shape = p.shape := by
  have hworkers : ∀ k, ((p.setWorker w worker').threadMap k).map (·.thread.isSome) =
      (p.threadMap k).map (·.thread.isSome) := by
    intro k
    by_cases hk : k = w
    · subst hk
      simp [setWorker, hw, h]
    · simp [setWorker, hk]
  exact congrArg (Prod.mk p.workerCount) (funext hworkers)

theorem shape_addTask {id : Nat} {task : τ} (h : p.addTask id task = some q) : q.shape = p.shape := by
  unfold addTask at h
  split at h
  · cases h
  · obtain ⟨worker, hw, rfl⟩ := Option.map_eq_some_iff.mp h
    exact shape_setWorker hw rfl

/-- A step of `InitPool` does to the shape what it does to the pool. -/
theorem shape_initStep (h : p.shape = q.shape) (i : InitStep) :
    (p.initStep i).shape = (q.initStep i).shape := by
  obtain ⟨hcount, hworkers⟩ := Prod.mk.inj h
  cases i with
  | setCount n => exact congrArg (Prod.mk n) hworkers
  | clear => exact congrArg (fun n => (n, fun _ => none)) hcount
  | insert i | initWorker i =>
      apply Prod.ext hcount
      funext k
      have hk := congrFun hworkers k
      have hi := congrFun hworkers i
      by_cases hki : k = i
      · subst hki
        simp only [shape, initStep, Function.update_self]
        cases hp : p.threadMap k <;> cases hq : q.threadMap k <;> simp_all [CThreadPool.initPool]
      · simpa [shape, initStep, hki] using hk

end CMasterWorkPool

namespace Startup

variable {listenSocket : Nat} {s s' : Startup}

/-- The steps of `InitPool` on one of the pools. -/
def initOf (m : Manager) : StartStep → Option InitStep
  | .init m' i => if m' = m then some i else none
  | .createThread => none

/-- The pool after these steps of `Start`, with no task in it. -/
def poolAfter (m : Manager) (done : List StartStep) : CMasterWorkPool ServerTask :=
  (done.filterMap (initOf m)).foldl CMasterWorkPool.initStep (initialPools m)

/-- Every step of `Start` is done or to come, and the pools are as the done ones have made them, but for
their tasks. -/
def Inv (s : Startup) : Prop :=
  ∃ done, done ++ s.program = startSteps ∧ ∀ m, (s.pools m).shape = (poolAfter m done).shape

theorem inv_start : Inv start := ⟨[], rfl, fun _ => rfl⟩

/-! ## Steps -/

theorem Inv.setPool (h : Inv s) {m : Manager} {p : CMasterWorkPool ServerTask}
    (hp : p.shape = (s.pools m).shape) : Inv (s.setPool m p) := by
  obtain ⟨done, hdone, hshape⟩ := h
  refine ⟨done, hdone, ?_⟩
  intro m'
  by_cases hm : m' = m
  · subst hm
    simpa [Startup.setPool, hp] using hshape m'
  · simpa [Startup.setPool, hm] using hshape m'

theorem Inv.runMain (h : Inv s) (hs : s.runMain = some s') : Inv s' := by
  obtain ⟨done, hdone, hshape⟩ := h
  unfold Startup.runMain at hs
  split at hs
  · cases hs
  · rename_i program hprogram
    cases hs
    refine ⟨done ++ [.createThread], ?_, ?_⟩
    · rw [← hdone, hprogram, List.append_assoc]
      rfl
    · intro m
      simpa [poolAfter, List.filterMap_cons, initOf] using hshape m
  · rename_i m i program hprogram
    cases hs
    refine ⟨done ++ [.init m i], ?_, ?_⟩
    · rw [← hdone, hprogram, List.append_assoc]
      rfl
    · intro m'
      by_cases hm : m' = m
      · subst hm
        simpa [poolAfter, initOf] using CMasterWorkPool.shape_initStep (hshape m') i
      · simpa [poolAfter, initOf, hm, Ne.symm hm] using hshape m'

theorem Inv.onWorker (h : Inv s) {m : Manager} {w : Nat}
    {f : CThreadPool ServerTask → Option (CThreadPool ServerTask)}
    (hf : ∀ p p', f p = some p' → p'.thread.isSome = p.thread.isSome)
    (hs : s.onWorker m w f = some s') : Inv s' := by
  obtain ⟨worker, hw, hs⟩ := Option.bind_eq_some_iff.mp hs
  obtain ⟨worker', hw', rfl⟩ := Option.map_eq_some_iff.mp hs
  exact h.setPool (CMasterWorkPool.shape_setWorker hw (hf worker worker' hw'))

theorem Inv.addTask (h : Inv s) (c : Manager × Nat × ServerTask) : Inv (s.addTask c) := by
  unfold Startup.addTask
  split
  · rename_i p hp
    exact h.setPool (CMasterWorkPool.shape_addTask hp)
  · exact h

theorem goOn_isSome (p p' : CThreadPool ServerTask) (h : p.goOn = some p') :
    p'.thread.isSome = p.thread.isSome := by
  unfold CThreadPool.goOn at h
  split at h
  · rename_i hthread
    cases h
    unfold CThreadPool.getTask
    split
    · split <;> simp [hthread]
    · simp [hthread]
  · rename_i hthread
    cases h
    simp [hthread]
  · cases h

theorem wake_isSome (p p' : CThreadPool ServerTask) (h : p.wake = some p') :
    p'.thread.isSome = p.thread.isSome := by
  unfold CThreadPool.wake at h
  split at h
  · rename_i hthread
    cases h
    simp [hthread]
  · cases h

theorem Inv.step (h : Inv s) {a : StartupStep} (hs : s.step listenSocket a = some s') : Inv s' := by
  unfold Startup.step at hs
  split at hs
  · cases hs
  · cases a with
    | main => exact h.runMain hs
    | initScoket | epollWait =>
        dsimp only at hs
        split at hs
        · cases hs
          exact h
        · cases hs
    | goOn m w => exact h.onWorker goOn_isSome hs
    | wake m w => exact h.onWorker wake_isSome hs
    | accept w fd =>
        obtain ⟨ev, _, hs⟩ := Option.bind_eq_some_iff.mp hs
        split at hs
        · cases hs
          exact h
        · cases hs
    | closeSocket w =>
        obtain ⟨ev, _, rfl⟩ := Option.map_eq_some_iff.mp hs
        exact h
    | deliver =>
        obtain ⟨c, _, rfl⟩ := Option.map_eq_some_iff.mp hs
        have hnext : Inv { s with epoll := s.epoll.next } := h
        exact hnext.addTask c
    | readFrame | writable | sendData =>
        obtain ⟨c, _, rfl⟩ := Option.map_eq_some_iff.mp hs
        exact h.addTask c

/-! ## Which workers are there -/

/-- After each number of steps: a pool has no count yet, or has all its workers in sight. -/
theorem poolAfter_ready (m : Manager) : ∀ k ≤ startSteps.length,
    ((poolAfter m (startSteps.take k)).workerCount = 0 ∧
      ∀ i < 4, .init m (.initWorker i) ∈ startSteps.drop k) ∨
    (poolAfter m (startSteps.take k)).workerCount = 4 ∧ ∀ i < 4,
      ((poolAfter m (startSteps.take k)).shape.2 i = some true ↔
        .init m (.initWorker i) ∉ startSteps.drop k) := by
  cases m with
  | recv => decide +kernel
  | frame => decide +kernel
  | send => decide +kernel

theorem ready_iff {p : CMasterWorkPool ServerTask} {id : Nat} :
    Ready p id ↔ 0 < p.shape.1 ∧ p.shape.2 (id % p.shape.1) = some true := by
  constructor
  · rintro ⟨hpos, worker, hworker, hthread⟩
    exact ⟨hpos, by simp [CMasterWorkPool.shape, hworker, hthread]⟩
  · rintro ⟨hpos, hworker⟩
    obtain ⟨worker, hworker, hthread⟩ := Option.map_eq_some_iff.mp hworker
    exact ⟨hpos, worker, hworker, hthread⟩

/-- A worker is ready from its `InitPool(1)` on, and not before. -/
theorem Inv.ready_iff_not_mem (h : Inv s) (m : Manager) (id : Nat) :
    Ready (s.pools m) id ↔ .init m (.initWorker (id % 4)) ∉ s.program := by
  obtain ⟨done, hdone, hshape⟩ := h
  have htake : startSteps.take done.length = done := by rw [← hdone, List.take_left]
  have hdrop : startSteps.drop done.length = s.program := by rw [← hdone, List.drop_left]
  have hlength : done.length ≤ startSteps.length := by simp [← hdone]
  have hmod : id % 4 < 4 := Nat.mod_lt id (by decide)
  have hpool := poolAfter_ready m done.length hlength
  rw [htake, hdrop] at hpool
  rw [ready_iff, hshape m]
  rcases hpool with ⟨hzero, hahead⟩ | ⟨hfour, hworkers⟩
  · have hcount : (poolAfter m done).shape.1 = 0 := hzero
    simp [hcount, hahead (id % 4) hmod]
  · have hcount : (poolAfter m done).shape.1 = 4 := hfour
    rw [hcount, hworkers (id % 4) hmod]
    simp

theorem Inv.safe_iff (h : Inv s) {a : StartupStep} :
    Safe listenSocket s a ↔ NotEarly listenSocket s a := by
  constructor
  · intro hsafe m id task hattempt
    exact (h.ready_iff_not_mem m id).mp (hsafe m id task hattempt)
  · intro hlate m id task hattempt
    exact (h.ready_iff_not_mem m id).mpr (hlate m id task hattempt)

/-! ## Every run -/

/-- Each call of `AddTask` in a run is safe exactly when `Start` has initialised the worker of its id
before. -/
theorem safe_iff_meets {steps : List StartupStep}
    (hrun : (startup listenSocket).run start steps = some s) :
    (∀ before a s₁ s₂, before ++ [a] <+: steps →
      (startup listenSocket).run start before = some s₁ → s₁.step listenSocket a = some s₂ →
      Safe listenSocket s₁ a) ↔ (startup listenSocket).Meets (NotEarly listenSocket) start steps := by
  apply (startup listenSocket).meets_iff_forall_steps (fun s a _ => Safe listenSocket s a) _ _
    inv_start hrun
  · intro s a s' hinv hs hlate
    exact ⟨hinv.safe_iff.mpr hlate, hinv.step hs⟩
  · intro s a s' hinv _ hsafe
    exact hinv.safe_iff.mp hsafe

/-- The whole of `Start`, and then a connection. -/
theorem safe_iff_meets_connect :
    let steps : List StartupStep := List.replicate 21 .main ++
      [.initScoket true, .epollWait [⟨3, true, false⟩], .deliver, .goOn .recv 3, .accept 3 5, .goOn .recv 3]
    (startup 3).Meets (NotEarly 3) start steps ∧
      ∀ before a s₁ s₂, before ++ [a] <+: steps →
        (startup 3).run start before = some s₁ → s₁.step 3 a = some s₂ → Safe 3 s₁ a := by
  intro steps
  have hrun : ((startup 3).run start steps).isSome := by decide +kernel
  have hmeets : (startup 3).Meets (NotEarly 3) start steps := by decide +kernel
  exact ⟨hmeets, (safe_iff_meets (Option.some_get hrun).symm).mpr hmeets⟩

/-- A connection before the pools have a count: `id % m_iWorkerCount` divides by zero. -/
theorem broken_early : ∃ s s',
    (startup 3).run start [.main, .initScoket true, .epollWait [⟨3, true, false⟩]] = some s ∧
    s.step 3 .deliver = some s' ∧ ¬Safe 3 s .deliver ∧ s'.broken = true := by
  refine ⟨_, _, rfl, rfl, ?_, rfl⟩
  intro hsafe
  have hcount := (hsafe .recv 3 (.event ⟨3, true, false⟩) rfl).1
  exact absurd hcount (by decide)

end Startup

end CmdTran
