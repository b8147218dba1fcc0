import Mathlib.Data.Finset.Card
import CmdTran.Lib.Traces
import CmdTran.Pool.Threads
import CmdTran.Queue.Failures
import CmdTran.Queue.Progress

/-!
# Linearizability

What the queue is for, as a queue whose calls take effect at once, and that the calls of `CLockFreeQueue`
look from outside as if they did: a `Push` at its CAS on `m_maximumReadIndex`, a `Pop` at its CAS on
`m_readIndex`, a refusal where the last index is loaded.
-/

namespace CmdTran

/-! ## A queue with calls that take effect at once -/

/-- What the callers see. -/
inductive QueueEvent (ι α : Type) where
  | call (i : ι) (c : Call α)
  | ret (i : ι) (r : Reply α)
  deriving DecidableEq

/-- A call has begun, or it has taken effect and can return. -/
inductive AtomicStage (α : Type) where
  | idle
  | called (c : Call α)
  | done (r : Reply α)

/-- `contents` are the elements that can be taken. -/
structure AtomicQueue (ι α : Type) where
  contents : List α
  stage : ι → AtomicStage α

/-- Between its beginning and its return a call takes effect or is refused, once. -/
inductive AtomicStep (ι α : Type) where
  | call (i : ι) (c : Call α)
  | act (i : ι)
  | refuse (i : ι)
  | ret (i : ι)

variable {ι α : Type}

def AtomicStage.isPush : AtomicStage α → Bool
  | called (.push _) => true
  | _ => false

namespace AtomicQueue

def start : AtomicQueue ι α := ⟨[], fun _ => .idle⟩

variable [DecidableEq ι]

def goto (s : AtomicQueue ι α) (i : ι) (stage : AtomicStage α) : AtomicQueue ι α :=
  { s with stage := Function.update s.stage i stage }

variable [Fintype ι]

/-- The calls of `Push` by others that have begun and not taken effect. -/
def pushes (s : AtomicQueue ι α) (i : ι) : Nat :=
  (Finset.univ.filter fun j => j ≠ i ∧ (s.stage j).isPush).card

/-- An element is added at the end as long as there is room, and taken from the front. `Pop` is refused by an
empty queue only; `Push` only when the elements and the other calls of `Push` fill the queue. -/
def step (s : AtomicQueue ι α) : AtomicStep ι α → Option (AtomicQueue ι α)
  | .call i c =>
      match s.stage i with
      | .idle => some (s.goto i (.called c))
      | _ => none
  | .act i =>
      match s.stage i with
      | .called (.push data) =>
          if s.contents.length < queueLen - 1 then
            some ({ s with contents := s.contents ++ [data] }.goto i (.done (.pushed true)))
          else none
      | .called .pop =>
          match s.contents with
          | [] => none
          | data :: rest => some ({ s with contents := rest }.goto i (.done (.popped (some data))))
      | _ => none
  | .refuse i =>
      match s.stage i with
      | .called (.push _) =>
          if queueLen - 1 ≤ s.contents.length + s.pushes i then some (s.goto i (.done (.pushed false)))
          else none
      | .called .pop => if s.contents.isEmpty then some (s.goto i (.done (.popped none))) else none
      | _ => none
  | .ret i =>
      match s.stage i with
      | .done _ => some (s.goto i .idle)
      | _ => none

def event (s : AtomicQueue ι α) : AtomicStep ι α → Option (QueueEvent ι α)
  | .call i c => some (.call i c)
  | .ret i =>
      match s.stage i with
      | .done r => some (.ret i r)
      | _ => none
  | .act _ | .refuse _ => none

end AtomicQueue

def atomicQueue [DecidableEq ι] [Fintype ι] : StepSystem (AtomicQueue ι α) (AtomicStep ι α) where
  start := AtomicQueue.start
  step := AtomicQueue.step

/-! ## The threads as such a queue -/

namespace Threads

/-- A call begins, or this is its last step. -/
def event (s : Threads ι α) : ThreadStep ι α → Option (QueueEvent ι α)
  | .call i c => some (.call i c)
  | .goOn i => (s.returns i).map (.ret i)

/-- The elements between `m_readIndex` and `m_maximumReadIndex`. -/
def visible (s : Threads ι α) : List α :=
  (s.reserved.take s.queue.maximumReadIndex.toNat).drop s.taken.length

/-- What the stage of a thread looks like from outside. -/
inductive Looks (reserved : List α) : ThreadStage α → AtomicStage α → Prop where
  | idle : Looks reserved .idle .idle
  | pushing (data : α) : Looks reserved (.pushing data) (.called (.push data))
  | pushLoaded (data : α) (w : UInt32) : Looks reserved (.pushLoaded data w) (.called (.push data))
  | reserving (data : α) (w : UInt32) : Looks reserved (.reserving data w) (.called (.push data))
  | storing (data : α) (w : UInt32) : Looks reserved (.storing data w) (.called (.push data))
  | committing (data : α) (w : UInt32) (hdata : reserved[w.toNat]? = some data) :
      Looks reserved (.committing w) (.called (.push data))
  | adding : Looks reserved .adding (.done (.pushed true))
  | popping : Looks reserved .popping (.called .pop)
  | popLoaded (r : UInt32) : Looks reserved (.popLoaded r) (.called .pop)
  | copying (r : UInt32) : Looks reserved (.copying r) (.called .pop)
  | taking (r : UInt32) (data : α) : Looks reserved (.taking r data) (.called .pop)
  | subtracting (data : α) : Looks reserved (.subtracting data) (.done (.popped (some data)))

structure LooksLike (s : Threads ι α) (t : AtomicQueue ι α) : Prop where
  contents : t.contents = s.visible
  stages : ∀ i, Looks s.reserved (s.stage i) (t.stage i)

variable {s s₁ : Threads ι α} {t : AtomicQueue ι α} {i : ι}

/-! ## The elements -/

theorem Inv.length_visible (h : Inv s) : s.visible.length = s.queue.maximumReadIndex.toNat - s.taken.length := by
  rw [visible, List.length_drop, List.length_take, Nat.min_eq_left h.le_write]

theorem Inv.visible_reserve (h : Inv s) (data : α) : (s.reserve data).visible = s.visible := by
  simp only [visible, Threads.reserve]
  rw [List.take_append_of_le_length h.le_write]

theorem Inv.visible_commit (h : Inv s) {data : α}
    (hdata : s.reserved[s.queue.maximumReadIndex.toNat]? = some data) :
    s.commit.visible = s.visible ++ [data] := by
  obtain ⟨hlt, hget⟩ := List.getElem?_eq_some_iff.mp hdata
  have hnext : (s.queue.maximumReadIndex + 1).toNat = s.queue.maximumReadIndex.toNat + 1 :=
    toNat_succ (Nat.lt_of_le_of_lt hlt h.few)
  have htaken : s.taken.length ≤ (s.reserved.take s.queue.maximumReadIndex.toNat).length := by
    rw [List.length_take, Nat.min_eq_left h.le_write]
    exact h.read_le
  simp only [visible, Threads.commit]
  rw [hnext, ← List.take_append_getElem hlt, hget, List.drop_append_of_le_length htaken]

theorem visible_take {data : α} (hlt : s.taken.length < s.queue.maximumReadIndex.toNat)
    (hdata : s.reserved[s.taken.length]? = some data) : s.visible = data :: (s.take data).visible := by
  have hget : (s.reserved.take s.queue.maximumReadIndex.toNat)[s.taken.length]? = some data := by
    rw [List.getElem?_take_of_lt hlt]
    exact hdata
  obtain ⟨hin, hget⟩ := List.getElem?_eq_some_iff.mp hget
  simp only [visible, Threads.take, List.length_append, List.length_singleton]
  rw [List.drop_eq_getElem_cons hin, hget]

/-! ## The stages -/

theorem Looks.mono {reserved reserved' : List α} {stage : ThreadStage α} {stage' : AtomicStage α}
    (h : Looks reserved stage stage') (hreserved : reserved <+: reserved') : Looks reserved' stage stage' := by
  cases h with
  | committing data w hdata =>
      obtain ⟨more, rfl⟩ := hreserved
      refine .committing data w ?_
      rw [List.getElem?_append_left (List.getElem?_eq_some_iff.mp hdata).1]
      exact hdata
  | _ => constructor

variable [DecidableEq ι]

namespace LooksLike

/-- One thread goes on, and so does its call as it is seen from outside. -/
theorem goto (h : LooksLike s t) {new : ThreadStage α} {new' : AtomicStage α} {contents : List α}
    (hstages : s₁.stage = s.stage)
    (hreserved : s.reserved <+: s₁.reserved)
    (hcontents : contents = s₁.visible) (hnew : Looks s₁.reserved new new') :
    LooksLike (s₁.goto i new) ({ t with contents }.goto i new') := by
  refine ⟨hcontents, fun j => ?_⟩
  by_cases hj : j = i
  · subst hj
    simpa only [Threads.goto, AtomicQueue.goto, Function.update_self] using hnew
  · simpa only [Threads.goto, AtomicQueue.goto, Function.update_of_ne hj, hstages]
      using (h.stages j).mono hreserved

/-- One thread goes on, and from outside nothing is seen of it. -/
theorem stay (h : LooksLike s t) {new : ThreadStage α} (hstages : s₁.stage = s.stage)
    (hreserved : s.reserved <+: s₁.reserved)
    (hcontents : s₁.visible = s.visible) (hnew : Looks s₁.reserved new (t.stage i)) :
    LooksLike (s₁.goto i new) t := by
  have hgoto := h.goto (i := i) hstages hreserved (h.contents.trans hcontents.symm) hnew
  have hsame : { t with contents := t.contents }.goto i (t.stage i) = t := by
    rw [AtomicQueue.goto, Function.update_eq_self]
  rw [hsame] at hgoto
  exact hgoto

variable [Fintype ι]

/-- A step that nobody sees. -/
theorem hidden (h : LooksLike s t) {old new : ThreadStage α} (hstage : s.stage i = old)
    (hstages : s₁.stage = s.stage)
    (hreserved : s.reserved <+: s₁.reserved)
    (hcontents : s₁.visible = s.visible)
    (hnew : ∀ stage', Looks s.reserved old stage' → Looks s₁.reserved new stage')
    (hevent : s.event (.goOn i) = none) :
    ∃ t', atomicQueue.Shows AtomicQueue.event t (s.event (.goOn i)).toList t' ∧
      LooksLike (s₁.goto i new) t' := by
  refine ⟨t, ?_, h.stay hstages hreserved hcontents (hnew _ (hstage ▸ h.stages i))⟩
  rw [hevent]
  exact .refl t

/-- A call takes effect. -/
theorem acts (h : LooksLike s t) {new' : AtomicStage α} {new : ThreadStage α} {contents : List α}
    (hstep : t.step (.act i) = some ({ t with contents }.goto i new')) (hstages : s₁.stage = s.stage)
    (hreserved : s.reserved <+: s₁.reserved)
    (hcontents : contents = s₁.visible) (hnew : Looks s₁.reserved new new')
    (hevent : s.event (.goOn i) = none) :
    ∃ t', atomicQueue.Shows AtomicQueue.event t (s.event (.goOn i)).toList t' ∧
      LooksLike (s₁.goto i new) t' := by
  refine ⟨_, ?_, h.goto hstages hreserved hcontents hnew⟩
  rw [hevent]
  exact .single (b := AtomicStep.act i) hstep

/-- A call returns. -/
theorem returns (h : LooksLike s t) {r : Reply α} (ht : t.stage i = .done r) (hstages : s₁.stage = s.stage)
    (hreserved : s.reserved <+: s₁.reserved)
    (hcontents : s₁.visible = s.visible) (hevent : s.event (.goOn i) = some (.ret i r)) :
    ∃ t', atomicQueue.Shows AtomicQueue.event t (s.event (.goOn i)).toList t' ∧
      LooksLike (s₁.goto i .idle) t' := by
  have hstep : atomicQueue.step t (.ret i) = some (t.goto i .idle) := by
    simp only [atomicQueue, AtomicQueue.step, ht]
  have hshow : t.event (.ret i) = some (.ret i r) := by simp only [AtomicQueue.event, ht]
  refine ⟨t.goto i .idle, ?_, h.goto hstages hreserved (h.contents.trans hcontents.symm) .idle⟩
  rw [hevent, ← hshow]
  exact .single hstep

/-- A call is refused and returns. -/
theorem refused (h : LooksLike s t) {r : Reply α} (hstep : t.step (.refuse i) = some (t.goto i (.done r)))
    (hevent : s.event (.goOn i) = some (.ret i r)) :
    ∃ t', atomicQueue.Shows AtomicQueue.event t (s.event (.goOn i)).toList t' ∧
      LooksLike (s.goto i .idle) t' := by
  have hret : atomicQueue.step (t.goto i (.done r)) (.ret i) = some (t.goto i .idle) := by
    simp only [atomicQueue, AtomicQueue.step, AtomicQueue.goto, Function.update_self, Function.update_idem]
  have hshow : (t.goto i (.done r)).event (.ret i) = some (.ret i r) := by
    simp only [AtomicQueue.event, AtomicQueue.goto, Function.update_self]
  refine ⟨t.goto i .idle, ?_, h.goto rfl List.prefix_rfl h.contents .idle⟩
  rw [hevent, ← hshow]
  exact StepSystem.Shows.trans (.single (b := AtomicStep.refuse i) hstep) (.single hret)

/-! ## Refusals -/

/-- `Push` finds no room with current indices: the queue is full of elements and of other pushes. -/
theorem full (h : LooksLike s t) (hinv : Inv s) (hcovered : Covered s) {data : α} {w : UInt32}
    (hstage : s.stage i = .pushLoaded data w)
    (htest : countToIndex (w + 1) = countToIndex s.queue.readIndex) (hcurrent : s.queue.readIndex < w + 1) :
    queueLen - 1 ≤ t.contents.length + t.pushes i := by
  have hloaded : w.toNat ≤ s.reserved.length := by
    have hlocal := hinv.stages i
    rw [hstage] at hlocal
    exact hlocal
  have hlt : s.queue.readIndex.toNat < (w + 1).toNat := hcurrent
  have hnext := toNat_succ_of_lt hlt
  have hdist : ¬(w + 1).toNat < s.queue.readIndex.toNat + queueLen :=
    fun hdist => countToIndex_ne hlt hdist htest.symm
  have howners := reserved_le_owners hinv.few hcovered
  have hsubset : (Finset.univ.filter fun j => (s.stage j).owned.isSome) ⊆
      Finset.univ.filter fun j => j ≠ i ∧ (t.stage j).isPush := by
    intro j hj
    have howned := (Finset.mem_filter.mp hj).2
    have hlook := h.stages j
    refine Finset.mem_filter.mpr ⟨Finset.mem_univ j, ?_, ?_⟩
    · rintro rfl
      rw [hstage] at howned
      cases howned
    · generalize s.stage j = stage at howned hlook
      generalize t.stage j = stage' at hlook
      cases hlook with
      | storing | committing => rfl
      | _ => cases howned
  have hcard : _ ≤ t.pushes i := Finset.card_le_card hsubset
  have hlength := hinv.length_visible
  have hread := hinv.read
  have hread_le := hinv.read_le
  rw [h.contents]
  omega

omit [DecidableEq ι] [Fintype ι] in
/-- `Pop` finds the queue empty with current indices. -/
theorem empty (h : LooksLike s t) (hinv : Inv s)
    (htest : countToIndex s.queue.readIndex = countToIndex s.queue.maximumReadIndex) : t.contents = [] := by
  have hread := hinv.read
  have hle := hinv.read_le
  have hmax := hinv.le_write
  have hroom := hinv.room
  have hsame : ¬s.queue.readIndex.toNat < s.queue.maximumReadIndex.toNat :=
    fun hlt => countToIndex_ne hlt (by omega) htest
  rw [h.contents, ← List.length_eq_zero_iff, hinv.length_visible]
  omega

/-! ## One step -/

theorem call (h : LooksLike s t) (c : Call α) (hidle : s.stage i = .idle) :
    ∃ t', atomicQueue.Shows AtomicQueue.event t (s.event (.call i c)).toList t' ∧
      LooksLike (s.goto i (enter c)) t' := by
  have hlook := h.stages i
  rw [hidle] at hlook
  have ht : t.stage i = .idle := by
    generalize t.stage i = stage' at hlook
    cases hlook
    rfl
  have hstep : atomicQueue.step t (.call i c) = some (t.goto i (.called c)) := by
    simp only [atomicQueue, AtomicQueue.step, ht]
  have hnew : Looks s.reserved (enter c) (.called c) := by
    cases c with
    | push | pop => constructor
  exact ⟨_, .single hstep, h.goto rfl List.prefix_rfl h.contents hnew⟩

theorem goOn (h : LooksLike s t) (hinv : Inv s) (hcovered : Covered s) {old new : ThreadStage α}
    (hcurrent : ∀ refusal, s.refusal (.goOn i) = some (i, refusal) →
      match refusal with
      | .full w => s.queue.readIndex < w + 1
      | .empty r => s.queue.readIndex = r)
    (hmove : Move s old s₁ new) (hstage : s.stage i = old) :
    ∃ t', atomicQueue.Shows AtomicQueue.event t (s.event (.goOn i)).toList t' ∧
      LooksLike (s₁.goto i new) t' := by
  have hlook := h.stages i
  rw [hstage] at hlook
  have hlocal := hinv.stages i
  rw [hstage] at hlocal
  generalize ht : t.stage i = seen at hlook
  cases hmove with
  | loadWrite data =>
      refine h.hidden hstage rfl List.prefix_rfl rfl ?_ (by simp [event, Threads.returns, hstage])
      rintro _ ⟨⟩
      constructor
  | full data w htest =>
      cases hlook
      have hlt := hcurrent (.full w) (by rw [refusal, hstage]; exact if_pos htest)
      apply h.refused
      · rw [AtomicQueue.step, ht]
        exact if_pos (h.full hinv hcovered hstage htest hlt)
      · simp [event, Threads.returns, hstage, htest]
  | notFull data w htest =>
      refine h.hidden hstage rfl List.prefix_rfl rfl ?_ (by simp [event, Threads.returns, hstage, htest])
      rintro _ ⟨⟩
      constructor
  | reserve data =>
      refine h.hidden hstage rfl (List.prefix_append _ _) (hinv.visible_reserve data) ?_
        (by simp [event, Threads.returns, hstage])
      rintro _ ⟨⟩
      constructor
  | retryPush data w =>
      refine h.hidden hstage rfl List.prefix_rfl rfl ?_ (by simp [event, Threads.returns, hstage])
      rintro _ ⟨⟩
      constructor
  | store data w =>
      refine h.hidden hstage rfl List.prefix_rfl rfl ?_ (by simp [event, Threads.returns, hstage])
      rintro _ ⟨⟩
      exact .committing data w hlocal.2
  | commit =>
      cases hlook with
      | committing data w hdata =>
          have hroom : t.contents.length < queueLen - 1 := by
            have hroom := hinv.room
            have hread := hinv.read_le
            have hlength := hinv.length_visible
            have hlt := (List.getElem?_eq_some_iff.mp hdata).1
            rw [h.contents]
            omega
          have hcontents : t.contents ++ [data] = s.commit.visible := by
            rw [h.contents, hinv.visible_commit hdata]
          refine h.acts ?_ rfl List.prefix_rfl hcontents .adding (by simp [event, Threads.returns, hstage])
          rw [AtomicQueue.step, ht]
          exact if_pos hroom
  | spin w =>
      refine h.hidden hstage rfl List.prefix_rfl rfl ?_ (by simp [event, Threads.returns, hstage])
      exact fun _ hlook => hlook
  | add =>
      cases hlook
      exact h.returns ht rfl List.prefix_rfl rfl (by simp [event, Threads.returns, hstage])
  | loadRead =>
      refine h.hidden hstage rfl List.prefix_rfl rfl ?_ (by simp [event, Threads.returns, hstage])
      rintro _ ⟨⟩
      constructor
  | empty r htest =>
      cases hlook
      have hr : s.queue.readIndex = r := hcurrent (.empty r) (by rw [refusal, hstage]; exact if_pos htest)
      subst hr
      apply h.refused
      · rw [AtomicQueue.step, ht]
        exact if_pos (List.isEmpty_iff.mpr (h.empty hinv htest))
      · simp [event, Threads.returns, hstage, htest]
  | notEmpty r htest =>
      refine h.hidden hstage rfl List.prefix_rfl rfl ?_ (by simp [event, Threads.returns, hstage, htest])
      rintro _ ⟨⟩
      constructor
  | copy r =>
      refine h.hidden hstage rfl List.prefix_rfl rfl ?_ (by simp [event, Threads.returns, hstage])
      rintro _ ⟨⟩
      constructor
  | take data =>
      cases hlook
      obtain ⟨hlt, hdata⟩ := hlocal.2 hinv.read
      refine h.acts ?_ rfl List.prefix_rfl rfl (.subtracting data) (by simp [event, Threads.returns, hstage])
      rw [AtomicQueue.step, ht, h.contents, visible_take hlt hdata]
  | retryPop r data =>
      refine h.hidden hstage rfl List.prefix_rfl rfl ?_ (by simp [event, Threads.returns, hstage])
      rintro _ ⟨⟩
      constructor
  | sub data =>
      cases hlook
      exact h.returns ht rfl List.prefix_rfl rfl (by simp [event, Threads.returns, hstage])

end LooksLike

/-! ## Main result -/

variable [Fintype ι]

theorem simulated {s s' : Observed ι α} {a : ThreadStep ι α}
    (h : Inv s.threads ∧ Covered s.threads ∧ LooksLike s.threads t) (hcurrent : Observed.Current s a)
    (hs : s.step a = some s') (hfew : s'.threads.reserved.length < 0x100000000) :
    ∃ t', atomicQueue.Shows AtomicQueue.event t (s.threads.event a).toList t' ∧
      Inv s'.threads ∧ Covered s'.threads ∧ LooksLike s'.threads t' := by
  obtain ⟨hinv, hcovered, hlooks⟩ := h
  obtain ⟨threads, hthreads, rfl⟩ := Option.map_eq_some_iff.mp hs
  have hseen : ∃ t', atomicQueue.Shows AtomicQueue.event t (s.threads.event a).toList t' ∧
      LooksLike threads t' := by
    rcases step_cases hthreads with ⟨i, c, rfl, hidle, rfl⟩ | ⟨i, s₁, stage, rfl, hmove, rfl⟩
    · exact hlooks.call c hidle
    · exact hlooks.goOn hinv hcovered (fun refusal hr => hcurrent i refusal hr) hmove rfl
  obtain ⟨t', hshows, hlooks'⟩ := hseen
  exact ⟨t', hshows, hinv.step hthreads hfew, hcovered.step hinv hthreads, hlooks'⟩

/-- Whatever the callers see of a run in which the indices have not wrapped and no refusal is by a test of an
old index, they could see of the queue whose calls take effect at once. -/
theorem linearizable_of_meets (junk : Nat → α) {steps : List (ThreadStep ι α)} {s : Observed ι α}
    (hrun : (observed junk).run (Observed.start junk) steps = some s)
    (hfew : s.threads.reserved.length < 0x100000000)
    (hmeets : (observed junk).Meets Observed.Current (Observed.start junk) steps) :
    ∃ steps' t, atomicQueue.run AtomicQueue.start steps' = some t ∧
      atomicQueue.trace AtomicQueue.event AtomicQueue.start steps' =
        (observed junk).trace (fun s a => s.threads.event a) (Observed.start junk) steps := by
  have hmono : ∀ (s : Observed ι α) a s', (observed junk).step s a = some s' →
      s.threads.reserved.length ≤ s'.threads.reserved.length :=
    fun _ _ _ hs => Observed.reserved_le_of_step hs
  have hguards := hmeets.and _ ((observed junk).meets_below hmono hrun hfew)
  have hstep : ∀ (s : Observed ι α) (t : AtomicQueue ι α) a s',
      Inv s.threads ∧ Covered s.threads ∧ LooksLike s.threads t →
      (Observed.Current s a ∧
        ∀ s', (observed junk).step s a = some s' → s'.threads.reserved.length < 0x100000000) →
      (observed junk).step s a = some s' →
      ∃ t', atomicQueue.Shows AtomicQueue.event t (s.threads.event a).toList t' ∧
        Inv s'.threads ∧ Covered s'.threads ∧ LooksLike s'.threads t' :=
    fun _ _ _ s' h hok hs => simulated h hok.1 hs (hok.2 s' hs)
  have hstart : LooksLike (Observed.start junk : Observed ι α).threads AtomicQueue.start :=
    ⟨rfl, fun _ => .idle⟩
  obtain ⟨t, ⟨steps', hrun', htrace⟩, -⟩ :=
    hguards.simulated _ atomicQueue hstep ⟨inv_start junk, covered_start junk, hstart⟩ hrun
  exact ⟨steps', t, hrun', htrace⟩

theorem linearizable_of_meets_overtakenPushes : ∃ steps' t,
    atomicQueue.run AtomicQueue.start steps' = some t ∧
    atomicQueue.trace AtomicQueue.event (AtomicQueue.start : AtomicQueue (Fin 3) Nat) steps' =
      [.call 0 (.push 7), .call 1 (.push 8), .ret 0 (.pushed true), .ret 1 (.pushed true), .call 2 .pop,
        .ret 2 (.popped (some 7))] := by
  have hreserved : ((observed fun _ => 0).run (Observed.start fun _ => 0) overtakenPushes).map
      (fun s => s.threads.reserved) = some [7, 8] := by
    decide +kernel
  have htrace : (observed fun _ => 0).trace (fun s a => s.threads.event a) (Observed.start fun _ => 0)
      overtakenPushes = [.call 0 (.push 7), .call 1 (.push 8), .ret 0 (.pushed true), .ret 1 (.pushed true),
        .call 2 .pop, .ret 2 (.popped (some 7))] := by
    decide +kernel
  have hquiet : (observed fun _ => 0).Meets (fun s a => s.threads.refusal a = none)
      (Observed.start fun _ => 0) overtakenPushes := by
    decide +kernel
  obtain ⟨s, hrun, hs⟩ := Option.map_eq_some_iff.mp hreserved
  have hcurrent : ∀ (s : Observed (Fin 3) Nat) a s', True → s.threads.refusal a = none →
      (observed fun _ => 0).step s a = some s' → True ∧ Observed.Current s a := by
    intro s a s' _ hnone _
    refine ⟨trivial, fun i refusal hr => ?_⟩
    rw [hnone] at hr
    cases hr
  rw [← htrace]
  refine linearizable_of_meets (fun _ => 0) hrun ?_ (hquiet.imp _ hcurrent trivial hrun)
  rw [hs]
  decide

end Threads

end CmdTran
