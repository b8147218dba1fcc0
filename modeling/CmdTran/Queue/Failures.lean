import CmdTran.Queue.Interleaving

/-!
# What a refusal says

`Push` and `Pop` return false when two residues agree, of an index that may have been loaded long ago and
of one that is loaded now.

`sawFull` and `sawEmpty` say for each thread whether the queue has been full, or empty, at some moment
since the thread began its last call. No step looks at them.
-/

namespace CmdTran

variable {ι α : Type}

namespace CLockFreeQueue

/-- `m_writeIndex - m_readIndex == QUEUE_LEN - 1` -/
def full (q : CLockFreeQueue α) : Bool := (q.writeIndex - q.readIndex).toNat = queueLen - 1

/-- `m_readIndex == m_maximumReadIndex` -/
def empty (q : CLockFreeQueue α) : Bool := q.readIndex = q.maximumReadIndex

end CLockFreeQueue

structure Observed (ι α : Type) where
  threads : Threads ι α
  sawFull : ι → Bool
  sawEmpty : ι → Bool

/-- A `Push` that returns false with the `m_writeIndex` that it has loaded, a `Pop` that returns false
with the `m_readIndex` that it has loaded. -/
inductive Refusal where
  | full (currentWriteIndex : UInt32)
  | empty (currentReadIndex : UInt32)
  deriving DecidableEq

/-- The step is a `return false`. -/
def Threads.refusal (s : Threads ι α) : ThreadStep ι α → Option (ι × Refusal)
  | .call _ _ => none
  | .goOn i =>
      match s.stage i with
      | .pushLoaded _ currentWriteIndex =>
          if countToIndex (currentWriteIndex + 1) = countToIndex s.queue.readIndex then
            some (i, .full currentWriteIndex)
          else none
      | .popLoaded currentReadIndex =>
          if countToIndex currentReadIndex = countToIndex s.queue.maximumReadIndex then
            some (i, .empty currentReadIndex)
          else none
      | _ => none

namespace Observed

def start (junk : Nat → α) : Observed ι α :=
  ⟨Threads.start junk, fun _ => (CLockFreeQueue.new junk).full,
    fun _ => (CLockFreeQueue.new junk).empty⟩

variable [DecidableEq ι]

/-- The step is the beginning of a call of the thread. -/
def begins (i : ι) : ThreadStep ι α → Bool
  | .call j _ => i = j
  | .goOn _ => false

def step (s : Observed ι α) (a : ThreadStep ι α) : Option (Observed ι α) :=
  (s.threads.step a).map fun threads =>
    { threads
      sawFull := fun i => (!begins i a && s.sawFull i) || threads.queue.full
      sawEmpty := fun i => (!begins i a && s.sawEmpty i) || threads.queue.empty }

/-! ## What should hold -/

/-- If the step is the `return false` of a call, the queue was full, or empty, during that call. -/
def Justified (s : Observed ι α) (a : ThreadStep ι α) : Prop :=
  ∀ i refusal, s.threads.refusal a = some (i, refusal) →
    match refusal with
    | .full _ => s.sawFull i
    | .empty _ => s.sawEmpty i

/-- If the step is the `return false` of a call, `m_readIndex` has not reached the index that `Push`
tests, or not moved since `Pop` has loaded it. -/
def Current (s : Observed ι α) (a : ThreadStep ι α) : Prop :=
  ∀ i refusal, s.threads.refusal a = some (i, refusal) →
    match refusal with
    | .full currentWriteIndex => s.threads.queue.readIndex < currentWriteIndex + 1
    | .empty currentReadIndex => s.threads.queue.readIndex = currentReadIndex

end Observed

def observed [DecidableEq ι] (junk : Nat → α) : StepSystem (Observed ι α) (ThreadStep ι α) where
  start := Observed.start junk
  step := Observed.step

/-! ## One thread and the others -/

/-- An index that is ahead of another one has not wrapped. -/
theorem toNat_succ_of_lt {m n : UInt32} (h : m.toNat < (n + 1).toNat) :
    (n + 1).toNat = n.toNat + 1 := by
  have hn := n.toNat_lt
  have hsum : (n + 1).toNat = (n.toNat + 1) % 0x100000000 := UInt32.toNat_add n 1
  omega

namespace Threads

variable {s s' : Threads ι α} {i j : ι} {a : ThreadStep ι α}

/-- With no room left the queue is full in the words of its indices. -/
theorem Inv.full (h : Inv s) (hroom : s.reserved.length + 1 = s.taken.length + queueLen) :
    s.queue.full = true := by
  have hwrite := h.write
  have hread := h.read
  have hle : s.queue.readIndex ≤ s.queue.writeIndex := by
    have hmax := h.read_le
    have hmax' := h.le_write
    rw [UInt32.le_iff_toNat_le]
    omega
  rw [CLockFreeQueue.full, decide_eq_true_iff, UInt32.toNat_sub_of_le _ _ hle]
  omega

variable [DecidableEq ι]

theorem taken_le_of_step (hs : s.step a = some s') : s.taken.length ≤ s'.taken.length := by
  rcases step_cases hs with ⟨i, _, _, _, rfl⟩ | ⟨i, s₁, stage, _, hmove, rfl⟩
  · exact Nat.le_refl _
  · exact hmove.taken_le

/-- A thread that has loaded `m_writeIndex` has done so just now, or before this step. -/
theorem pushLoaded_of_step (hs : s.step a = some s') {data : α} {w : UInt32}
    (hstage' : s'.stage i = .pushLoaded data w) :
    (w = s.queue.writeIndex ∧ s'.queue = s.queue ∧ s'.taken = s.taken ∧
      s'.reserved = s.reserved) ∨
      Observed.begins i a = false ∧ s.stage i = .pushLoaded data w := by
  rcases step_cases hs with ⟨j, c, rfl, _, rfl⟩ | ⟨j, s₁, stage, rfl, hmove, rfl⟩
  · by_cases hij : i = j
    · subst hij
      rw [goto_stage] at hstage'
      cases c <;> cases hstage'
    · simp only [goto, Function.update_of_ne hij] at hstage'
      exact .inr ⟨by simp [Observed.begins, hij], hstage'⟩
  · by_cases hij : i = j
    · subst hij
      rw [goto_stage] at hstage'
      subst hstage'
      generalize s.stage i = old at hmove
      cases hmove
      exact .inl ⟨rfl, rfl, rfl, rfl⟩
    · simp only [goto, Function.update_of_ne hij, hmove.stage] at hstage'
      exact .inr ⟨rfl, hstage'⟩

end Threads

namespace Observed

variable {s s' : Observed ι α} {a : ThreadStep ι α} {junk : Nat → α}

/-- What each thread has seen. A loaded `m_writeIndex` with no room behind it was loaded from a full
queue. -/
structure Inv (s : Observed ι α) : Prop where
  threads : s.threads.Inv
  full : ∀ i, s.threads.queue.full → s.sawFull i
  empty : ∀ i, s.threads.queue.empty → s.sawEmpty i
  room : ∀ i data w, s.threads.stage i = .pushLoaded data w →
    w.toNat < s.threads.taken.length + queueLen
  loaded : ∀ i data w, s.threads.stage i = .pushLoaded data w →
    w.toNat + 1 = s.threads.taken.length + queueLen → s.sawFull i

theorem inv_start (junk : Nat → α) : Inv (start junk : Observed ι α) :=
  ⟨Threads.inv_start junk, fun _ h => h, fun _ h => h, fun _ _ _ h => (nomatch h),
    fun _ _ _ h => (nomatch h)⟩

/-- A refusal by a test of current indices is true now, or was when `m_writeIndex` was loaded. -/
theorem Inv.justified (h : Inv s) (hcurrent : Current s a) : Justified s a := by
  intro i refusal hrefusal
  have hcurrent := hcurrent i refusal hrefusal
  have hread := h.threads.read
  cases a with
  | call => cases hrefusal
  | goOn j =>
      rw [Threads.refusal] at hrefusal
      split at hrefusal
      · rename_i data w hstage
        split at hrefusal
        · rename_i htest
          cases hrefusal
          have hroom := h.room i data w hstage
          have hlt : s.threads.queue.readIndex.toNat < (w + 1).toNat := hcurrent
          have hnext := toNat_succ_of_lt hlt
          have hdist : ¬(w + 1).toNat < s.threads.queue.readIndex.toNat + queueLen := by
            intro hdist
            exact countToIndex_ne hlt hdist htest.symm
          exact h.loaded i data w hstage (by omega)
        · cases hrefusal
      · rename_i r hstage
        split at hrefusal
        · rename_i htest
          cases hrefusal
          apply h.empty i
          rw [CLockFreeQueue.empty, decide_eq_true_iff]
          by_contra hne
          rw [← show s.threads.queue.readIndex = r from hcurrent] at htest
          have hle := h.threads.read_le
          have hmax := h.threads.le_write
          have hroom := h.threads.room
          exact countToIndex_ne_of_ne (k := s.threads.taken.length) hne (by omega) (by omega)
            (by omega) (by omega) htest
        · cases hrefusal
      · cases hrefusal

variable [DecidableEq ι]

theorem Inv.step (h : Inv s) (hs : s.step a = some s')
    (hfew : s'.threads.reserved.length < 0x100000000) : Inv s' := by
  obtain ⟨threads, hthreads, rfl⟩ := Option.map_eq_some_iff.mp hs
  have hinv := h.threads.step hthreads hfew
  have htaken := Threads.taken_le_of_step hthreads
  refine ⟨hinv, ?_, ?_, ?_, ?_⟩
  · intro i hfull
    simp only [hfull, Bool.or_true]
  · intro i hempty
    simp only [hempty, Bool.or_true]
  · intro i data w hstage
    rcases Threads.pushLoaded_of_step hthreads hstage with ⟨rfl, _, htaken', _⟩ | ⟨_, hstage⟩
    · have hroom := h.threads.room
      rw [h.threads.write, htaken']
      exact hroom
    · exact Nat.lt_of_lt_of_le (h.room i data w hstage) (Nat.add_le_add_right htaken queueLen)
  · intro i data w hstage hlast
    rcases Threads.pushLoaded_of_step hthreads hstage with
      ⟨rfl, _, htaken', hreserved⟩ | ⟨hbegins, hstage⟩
    · rw [h.threads.write, ← hreserved] at hlast
      simp only [hinv.full hlast, Bool.or_true]
    · -- no `Pop` has taken an element since the load
      have hroom := h.room i data w hstage
      dsimp only at hlast
      have hsaw := h.loaded i data w hstage (by omega)
      simp only [hbegins, hsaw, Bool.not_false, Bool.and_true, Bool.true_or]

/-! ## Every run -/

theorem reserved_le_of_step (hs : s.step a = some s') :
    s.threads.reserved.length ≤ s'.threads.reserved.length := by
  obtain ⟨threads, hthreads, rfl⟩ := Option.map_eq_some_iff.mp hs
  exact Threads.reserved_le_of_step hthreads

theorem reserved_le_of_run {steps : List (ThreadStep ι α)}
    (hrun : (observed junk).run s steps = some s') :
    s.threads.reserved.length ≤ s'.threads.reserved.length := by
  induction steps generalizing s with
  | nil =>
      cases hrun
      exact Nat.le_refl _
  | cons a steps ih =>
      obtain ⟨s₁, hs₁, hrest⟩ := (observed junk).run_cons_eq_some.mp hrun
      have hle : s.threads.reserved.length ≤ s₁.threads.reserved.length := reserved_le_of_step hs₁
      exact hle.trans (ih hrest)

theorem inv_of_run {steps : List (ThreadStep ι α)}
    (hrun : (observed junk).run (start junk) steps = some s)
    (hfew : s.threads.reserved.length < 0x100000000) : Inv s := by
  have hstep : ∀ (s : Observed ι α) a s', (s.threads.reserved.length < 0x100000000 → Inv s) →
      (observed junk).step s a = some s' → s'.threads.reserved.length < 0x100000000 → Inv s' := by
    intro s a s' h hs hfew
    have hle : s.threads.reserved.length ≤ s'.threads.reserved.length := reserved_le_of_step hs
    exact (h (Nat.lt_of_le_of_lt hle hfew)).step hs hfew
  exact (observed junk).run_invariant hstep (fun _ => inv_start junk) hrun hfew

/-- In a run with fewer than `2^32` pushes each refusal by a test of current indices is justified: the
queue was full, or empty, at some moment of the call. -/
theorem justified_of_meets {steps : List (ThreadStep ι α)}
    (hrun : (observed junk).run (start junk) steps = some s)
    (hfew : s.threads.reserved.length < 0x100000000)
    (hmeets : (observed junk).Meets Current (start junk) steps) :
    ∀ before a s₁ s₂, before ++ [a] <+: steps →
      (observed junk).run (start junk) before = some s₁ → s₁.step a = some s₂ →
      Justified s₁ a := by
  intro before a s₁ s₂ hstart hbefore hstep
  have hcurrent : Current s₁ a := hmeets.at_step _ hstart hbefore
  obtain ⟨rest, rfl⟩ := hstart
  rw [List.append_assoc, StepSystem.run_append, hbefore] at hrun
  have hrest : (observed junk).run s₁ ([a] ++ rest) = some s := hrun
  have hle := reserved_le_of_run hrest
  have hinv := inv_of_run hbefore (by omega)
  exact hinv.justified hcurrent

/-- A `Pop` from the empty queue. -/
theorem justified_of_meets_empty :
    let steps : List (ThreadStep Nat Nat) := [.call 0 .pop, .goOn 0, .goOn 0]
    ∀ before a s₁ s₂, before ++ [a] <+: steps →
      (observed fun _ => 0).run (start fun _ => 0) before = some s₁ → s₁.step a = some s₂ →
      Justified s₁ a := by
  intro steps
  have hlength : ((observed fun _ => 0).run (start fun _ => 0) steps).map
      (fun s => s.threads.reserved.length) = some 0 := by
    decide +kernel
  obtain ⟨s, hrun, hs⟩ := Option.map_eq_some_iff.mp hlength
  apply justified_of_meets hrun
  · rw [hs]
    decide
  · refine ⟨fun _ _ h => (nomatch h), ?_⟩
    rintro _ ⟨⟩
    refine ⟨fun _ _ h => (nomatch h), ?_⟩
    rintro _ ⟨⟩
    refine ⟨?_, fun _ _ => trivial⟩
    rintro _ _ ⟨⟩
    rfl

/-- One thread has loaded `m_writeIndex`; another one pushes 8, and a third one takes it. -/
def overtaken : List (ThreadStep Nat Nat) :=
  [.call 0 (.push 7), .goOn 0] ++ .call 1 (.push 8) :: List.replicate 6 (.goOn 1) ++
    .call 2 .pop :: List.replicate 5 (.goOn 2)

/-- The first `Push` finds no room, though the queue has never had more than one element. -/
theorem not_justified_overtaken : ∃ s s',
    (observed fun _ => 0).run (start fun _ => 0) overtaken = some s ∧
    s.step (.goOn 0) = some s' ∧ s'.threads.reserved.length < 0x100000000 ∧
    ¬Justified s (.goOn 0) := by
  have hlast : ((observed fun _ => 0).run (start fun _ => 0) overtaken).map (fun s =>
      (s.threads.refusal (.goOn 0), s.sawFull 0,
        (s.step (.goOn 0)).map fun s' => s'.threads.reserved.length)) =
      some (some (0, .full 0), false, some 1) := by
    decide +kernel
  obtain ⟨s, hrun, hs⟩ := Option.map_eq_some_iff.mp hlast
  obtain ⟨hrefusal, hs⟩ := Prod.mk.inj hs
  obtain ⟨hsaw, hs⟩ := Prod.mk.inj hs
  obtain ⟨s', hstep, hlength⟩ := Option.map_eq_some_iff.mp hs
  refine ⟨s, s', hrun, hstep, ?_, ?_⟩
  · rw [hlength]
    decide
  · intro hjustified
    have hfull : s.sawFull 0 = true := hjustified 0 (.full 0) hrefusal
    rw [hsaw] at hfull
    cases hfull

end Observed

end CmdTran
