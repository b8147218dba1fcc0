import CmdTran.Lib.System
import CmdTran.Queue.Basic

/-!
# The queue, thread by thread

Any number of threads call `Push` and `Pop`. Each load of an index, each access to a slot, each CAS and
each atomic addition is one step, and the steps of the threads interleave.

`reserved` has the elements in the order in which a CAS on `m_writeIndex` reserved their places,
`taken` what the calls of `Pop` return, in the order of their CAS on `m_readIndex`. No step looks at
them.
-/

namespace CmdTran

variable {ι α : Type}

/-- What a thread does next. `Push`: load `m_writeIndex`; load `m_readIndex` and see whether the queue
is full; CAS on `m_writeIndex`; store the element; CAS on `m_maximumReadIndex`; `AtomicAdd`. `Pop`:
load `m_readIndex`; load `m_maximumReadIndex` and see whether the queue is empty; load the element;
CAS on `m_readIndex`; `AtomicSub`. -/
inductive ThreadStage (α : Type) where
  | idle
  | pushing (data : α)
  | pushLoaded (data : α) (currentWriteIndex : UInt32)
  | reserving (data : α) (currentWriteIndex : UInt32)
  | storing (data : α) (currentWriteIndex : UInt32)
  | committing (currentWriteIndex : UInt32)
  | adding
  | popping
  | popLoaded (currentReadIndex : UInt32)
  | copying (currentReadIndex : UInt32)
  | taking (currentReadIndex : UInt32) (data : α)
  | subtracting (data : α)

structure Threads (ι α : Type) where
  queue : CLockFreeQueue α
  stage : ι → ThreadStage α
  reserved : List α
  taken : List α

/-- A thread that is in no call begins one, or a thread goes on. -/
inductive ThreadStep (ι α : Type) where
  | call (i : ι) (c : Call α)
  | goOn (i : ι)

namespace Threads

def start (junk : Nat → α) : Threads ι α := ⟨CLockFreeQueue.new junk, fun _ => .idle, [], []⟩

variable [DecidableEq ι]

def goto (s : Threads ι α) (i : ι) (stage : ThreadStage α) : Threads ι α :=
  { s with stage := Function.update s.stage i stage }

def enter : Call α → ThreadStage α
  | .push data => .pushing data
  | .pop => .popping

/-! ## What a thread does to the rest -/

def reserve (s : Threads ι α) (data : α) : Threads ι α :=
  { s with
    queue := { s.queue with writeIndex := s.queue.writeIndex + 1 }
    reserved := s.reserved ++ [data] }

def store (s : Threads ι α) (currentWriteIndex : UInt32) (data : α) : Threads ι α :=
  { s with queue := { s.queue with
      slots := Function.update s.queue.slots (countToIndex currentWriteIndex) data } }

def commit (s : Threads ι α) : Threads ι α :=
  { s with queue := { s.queue with maximumReadIndex := s.queue.maximumReadIndex + 1 } }

def take (s : Threads ι α) (data : α) : Threads ι α :=
  { s with
    queue := { s.queue with readIndex := s.queue.readIndex + 1 }
    taken := s.taken ++ [data] }

def setSize (s : Threads ι α) (size : UInt32) : Threads ι α :=
  { s with queue := { s.queue with size } }

/-- The thread is at the stage. -/
def act (s : Threads ι α) (i : ι) : ThreadStage α → Option (Threads ι α)
  | .idle => none
  | .pushing data => some (s.goto i (.pushLoaded data s.queue.writeIndex))
  | .pushLoaded data currentWriteIndex =>
      if countToIndex (currentWriteIndex + 1) = countToIndex s.queue.readIndex then
        some (s.goto i .idle)
      else some (s.goto i (.reserving data currentWriteIndex))
  | .reserving data currentWriteIndex =>
      if s.queue.writeIndex = currentWriteIndex then
        some ((s.reserve data).goto i (.storing data currentWriteIndex))
      else some (s.goto i (.pushing data))
  | .storing data currentWriteIndex =>
      some ((s.store currentWriteIndex data).goto i (.committing currentWriteIndex))
  | .committing currentWriteIndex =>
      if s.queue.maximumReadIndex = currentWriteIndex then some (s.commit.goto i .adding)
      else some (s.goto i (.committing currentWriteIndex))
  | .adding => some ((s.setSize (s.queue.size + 1)).goto i .idle)
  | .popping => some (s.goto i (.popLoaded s.queue.readIndex))
  | .popLoaded currentReadIndex =>
      if countToIndex currentReadIndex = countToIndex s.queue.maximumReadIndex then
        some (s.goto i .idle)
      else some (s.goto i (.copying currentReadIndex))
  | .copying currentReadIndex =>
      some (s.goto i (.taking currentReadIndex (s.queue.slots (countToIndex currentReadIndex))))
  | .taking currentReadIndex data =>
      if s.queue.readIndex = currentReadIndex then
        some ((s.take data).goto i (.subtracting data))
      else some (s.goto i .popping)
  | .subtracting _ => some ((s.setSize (s.queue.size - 1)).goto i .idle)

def step (s : Threads ι α) : ThreadStep ι α → Option (Threads ι α)
  | .call i c =>
      match s.stage i with
      | .idle => some (s.goto i (enter c))
      | _ => none
  | .goOn i => s.act i (s.stage i)

/-! ## What should hold -/

/-- `m_readIndex <= m_maximumReadIndex <= m_writeIndex <= m_readIndex + QUEUE_LEN - 1` -/
def Bounded (q : CLockFreeQueue α) : Prop :=
  q.readIndex.toNat ≤ q.maximumReadIndex.toNat ∧ q.maximumReadIndex.toNat ≤ q.writeIndex.toNat ∧
    q.writeIndex.toNat ≤ q.readIndex.toNat + (queueLen - 1)

/-- The slots of the elements that are committed and not taken have not changed. -/
def KeepsUnread (q q' : CLockFreeQueue α) : Prop :=
  ∀ count : UInt32, q.readIndex ≤ count → count < q.maximumReadIndex →
    q'.slots (countToIndex count) = q.slots (countToIndex count)

end Threads

def threads [DecidableEq ι] (junk : Nat → α) : StepSystem (Threads ι α) (ThreadStep ι α) where
  start := Threads.start junk
  step := Threads.step

/-! ## What a step can be -/

namespace Threads

/-- A step from one stage to another, with what it does to the rest. -/
inductive Move (s : Threads ι α) : ThreadStage α → Threads ι α → ThreadStage α → Prop where
  | loadWrite (data : α) : Move s (.pushing data) s (.pushLoaded data s.queue.writeIndex)
  | full (data : α) (w : UInt32) (htest : countToIndex (w + 1) = countToIndex s.queue.readIndex) :
      Move s (.pushLoaded data w) s .idle
  | notFull (data : α) (w : UInt32) (htest : countToIndex (w + 1) ≠ countToIndex s.queue.readIndex) :
      Move s (.pushLoaded data w) s (.reserving data w)
  | reserve (data : α) :
      Move s (.reserving data s.queue.writeIndex) (s.reserve data)
        (.storing data s.queue.writeIndex)
  | retryPush (data : α) (w : UInt32) : Move s (.reserving data w) s (.pushing data)
  | store (data : α) (w : UInt32) : Move s (.storing data w) (s.store w data) (.committing w)
  | commit : Move s (.committing s.queue.maximumReadIndex) s.commit .adding
  | spin (w : UInt32) : Move s (.committing w) s (.committing w)
  | add : Move s .adding (s.setSize (s.queue.size + 1)) .idle
  | loadRead : Move s .popping s (.popLoaded s.queue.readIndex)
  | empty (r : UInt32) (htest : countToIndex r = countToIndex s.queue.maximumReadIndex) :
      Move s (.popLoaded r) s .idle
  | notEmpty (r : UInt32) (htest : countToIndex r ≠ countToIndex s.queue.maximumReadIndex) :
      Move s (.popLoaded r) s (.copying r)
  | copy (r : UInt32) : Move s (.copying r) s (.taking r (s.queue.slots (countToIndex r)))
  | take (data : α) : Move s (.taking s.queue.readIndex data) (s.take data) (.subtracting data)
  | retryPop (r : UInt32) (data : α) : Move s (.taking r data) s .popping
  | sub (data : α) : Move s (.subtracting data) (s.setSize (s.queue.size - 1)) .idle

variable {s s' : Threads ι α} {i : ι}

section Move

variable {s₁ : Threads ι α} {old new : ThreadStage α}

/-- It leaves the stages to the thread itself. -/
theorem Move.stage (h : Move s old s₁ new) : s₁.stage = s.stage := by
  cases h <;> rfl

theorem Move.reserved_le (h : Move s old s₁ new) :
    s.reserved.length ≤ s₁.reserved.length := by
  cases h with
  | reserve data => simp [Threads.reserve]
  | _ => exact Nat.le_refl _

theorem Move.taken_le (h : Move s old s₁ new) : s.taken.length ≤ s₁.taken.length := by
  cases h with
  | take data => simp [Threads.take]
  | _ => exact Nat.le_refl _

end Move

variable [DecidableEq ι]

theorem act_move {stage : ThreadStage α} (hs : s.act i stage = some s') :
    ∃ s₁ stage', Move s stage s₁ stage' ∧ s' = s₁.goto i stage' := by
  cases stage with
  | idle => cases hs
  | pushing data =>
      cases hs
      exact ⟨s, _, .loadWrite data, rfl⟩
  | pushLoaded data w =>
      rw [act] at hs
      split at hs <;> rename_i htest <;> cases hs
      · exact ⟨s, _, .full data w htest, rfl⟩
      · exact ⟨s, _, .notFull data w htest, rfl⟩
  | reserving data w =>
      rw [act] at hs
      split at hs
      · rename_i hcas
        cases hs
        subst hcas
        exact ⟨_, _, .reserve data, rfl⟩
      · cases hs
        exact ⟨s, _, .retryPush data w, rfl⟩
  | storing data w =>
      cases hs
      exact ⟨_, _, .store data w, rfl⟩
  | committing w =>
      rw [act] at hs
      split at hs
      · rename_i hcas
        cases hs
        subst hcas
        exact ⟨_, _, .commit, rfl⟩
      · cases hs
        exact ⟨s, _, .spin w, rfl⟩
  | adding =>
      cases hs
      exact ⟨_, _, .add, rfl⟩
  | popping =>
      cases hs
      exact ⟨s, _, .loadRead, rfl⟩
  | popLoaded r =>
      rw [act] at hs
      split at hs <;> rename_i htest <;> cases hs
      · exact ⟨s, _, .empty r htest, rfl⟩
      · exact ⟨s, _, .notEmpty r htest, rfl⟩
  | copying r =>
      cases hs
      exact ⟨s, _, .copy r, rfl⟩
  | taking r data =>
      rw [act] at hs
      split at hs
      · rename_i hcas
        cases hs
        subst hcas
        exact ⟨_, _, .take data, rfl⟩
      · cases hs
        exact ⟨s, _, .retryPop r data, rfl⟩
  | subtracting data =>
      cases hs
      exact ⟨_, _, .sub data, rfl⟩

/-- A step begins a call, or is a move of one thread. -/
theorem step_cases {a : ThreadStep ι α} (hs : s.step a = some s') :
    (∃ i c, a = .call i c ∧ s.stage i = .idle ∧ s' = s.goto i (enter c)) ∨
      ∃ i s₁ stage, a = .goOn i ∧ Move s (s.stage i) s₁ stage ∧ s' = s₁.goto i stage := by
  cases a with
  | call i c =>
      rw [step] at hs
      split at hs
      · rename_i hidle
        cases hs
        exact .inl ⟨i, c, rfl, hidle, rfl⟩
      · cases hs
  | goOn i =>
      obtain ⟨s₁, stage, hmove, heq⟩ := act_move hs
      exact .inr ⟨i, s₁, stage, rfl, hmove, heq⟩

end Threads

/-! ## A thread that nobody interrupts -/

namespace Threads

variable [DecidableEq ι] {s : Threads ι α} {i : ι} {junk : Nat → α}

@[simp] theorem goto_stage (stage : ThreadStage α) : (s.goto i stage).stage i = stage :=
  Function.update_self _ _ _

theorem goto_idle (h : s.stage i = .idle) : s.goto i .idle = s := by
  rw [goto, ← h, Function.update_eq_self]

theorem act_goto (stage stage' : ThreadStage α) : (s.goto i stage').act i stage = s.act i stage := by
  cases stage with
  | idle => rfl
  | pushing | adding | popping | copying | subtracting | storing =>
      simp only [act, goto, store, setSize, Function.update_idem]
  | pushLoaded | reserving | committing | popLoaded | taking =>
      simp only [act, goto, reserve, commit, take, Function.update_idem]

/-- One step of a thread that is at `stage`. -/
theorem steps_act {stage : ThreadStage α} {s' : Threads ι α} (h : s.act i stage = some s') :
    (threads junk).Steps (s.goto i stage) s' := by
  have hstep : (s.goto i stage).step (.goOn i) = some s' := by
    rw [step, goto_stage, act_goto]
    exact h
  exact .single (a := .goOn i) hstep

theorem steps_enter (c : Call α) (hidle : s.stage i = .idle) :
    (threads junk).Steps s (s.goto i (enter c)) := by
  have hstep : s.step (.call i c) = some (s.goto i (enter c)) := by
    rw [step, hidle]
  exact .single (a := .call i c) hstep

/-- `Push` -/
theorem steps_push {data : α} {q : CLockFreeQueue α} {done : Bool} (hidle : s.stage i = .idle)
    (hpush : s.queue.push data = some (q, done)) :
    (threads junk).Steps s
      { s with queue := q, reserved := if done then s.reserved ++ [data] else s.reserved } := by
  let w := s.queue.writeIndex
  have hload : (threads junk).Steps s (s.goto i (.pushLoaded data w)) :=
    (steps_enter (.push data) hidle).trans (steps_act rfl)
  refine hload.trans ?_
  unfold CLockFreeQueue.push at hpush
  dsimp only at hpush
  split at hpush
  · rename_i hfull
    cases hpush
    have htest : s.act i (.pushLoaded data w) = some (s.goto i .idle) := if_pos hfull
    rw [goto_idle hidle] at htest
    exact steps_act htest
  · rename_i hfull
    split at hpush
    · rename_i hturn
      cases hpush
      let s₁ := s.reserve data
      let s₂ := s₁.store w data
      have htest : s.act i (.pushLoaded data w) = some (s.goto i (.reserving data w)) :=
        if_neg hfull
      have hreserve : s.act i (.reserving data w) = some (s₁.goto i (.storing data w)) := if_pos rfl
      have hstore : s₁.act i (.storing data w) = some (s₂.goto i (.committing w)) := rfl
      have hcommit : s₂.act i (.committing w) = some (s₂.commit.goto i .adding) := if_pos hturn
      have hadd : s₂.commit.act i .adding =
          some ((s₂.commit.setSize (s.queue.size + 1)).goto i .idle) := rfl
      rw [goto_idle (s := s₂.commit.setSize (s.queue.size + 1)) hidle] at hadd
      have hall : (threads junk).Steps _ _ := (steps_act htest).trans ((steps_act hreserve).trans
        ((steps_act hstore).trans ((steps_act hcommit).trans (steps_act hadd))))
      simp only [s₂, s₁, reserve, store, commit, setSize, hturn] at hall
      exact hall
    · cases hpush

/-- `Pop` -/
theorem steps_pop (hidle : s.stage i = .idle) :
    (threads junk).Steps s
      { s with queue := s.queue.pop.1, taken := s.taken ++ s.queue.pop.2.toList } := by
  let r := s.queue.readIndex
  have hload : (threads junk).Steps s (s.goto i (.popLoaded r)) :=
    (steps_enter .pop hidle).trans (steps_act rfl)
  refine hload.trans ?_
  unfold CLockFreeQueue.pop
  dsimp only
  split
  · rename_i hempty
    have htest : s.act i (.popLoaded r) = some (s.goto i .idle) := if_pos hempty
    rw [goto_idle hidle] at htest
    rw [Option.toList_none, List.append_nil]
    exact steps_act htest
  · rename_i hempty
    let data := s.queue.slots (countToIndex r)
    let s₁ := s.take data
    have htest : s.act i (.popLoaded r) = some (s.goto i (.copying r)) := if_neg hempty
    have hcopy : s.act i (.copying r) = some (s.goto i (.taking r data)) := rfl
    have htake : s.act i (.taking r data) = some (s₁.goto i (.subtracting data)) := if_pos rfl
    have hsubtract : s₁.act i (.subtracting data) =
        some ((s₁.setSize (s.queue.size - 1)).goto i .idle) := rfl
    rw [goto_idle (s := s₁.setSize (s.queue.size - 1)) hidle] at hsubtract
    exact (steps_act htest).trans ((steps_act hcopy).trans
      ((steps_act htake).trans (steps_act hsubtract)))

end Threads

end CmdTran
