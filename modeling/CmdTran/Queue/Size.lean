import CmdTran.Lib.Parties
import CmdTran.Queue.Threads

/-!
# The size counter

`m_size` is counted up and down by steps of their own, after the CAS of the call. It says how many elements
there are only as far as the threads between the two leave it right.
-/

namespace CmdTran

variable {ι α : Type}

/-- A `Push` between its CAS on `m_writeIndex` and its `AtomicAdd`. -/
def ThreadStage.owesAdd : ThreadStage α → Bool
  | storing _ _ | committing _ | adding => true
  | _ => false

/-- A `Pop` between its CAS on `m_readIndex` and its `AtomicSub`. -/
def ThreadStage.owesSub : ThreadStage α → Bool
  | subtracting _ => true
  | _ => false

namespace Threads

noncomputable def owedAdds (s : Threads ι α) : Nat := Parties.count ThreadStage.owesAdd s.stage

noncomputable def owedSubs (s : Threads ι α) : Nat := Parties.count ThreadStage.owesSub s.stage

/-! ## What should hold -/

/-- `AtomicSub` comes after an `AtomicAdd` that it takes back: with the `Pop`s that owe one, the elements
in the queue are more than the `Push`es that owe theirs. `AtomicAdd` comes when they are not
`QUEUE_LEN - 1` more. -/
def InBalance (s : Threads ι α) : ThreadStep ι α → Prop
  | .call _ _ => True
  | .goOn i =>
      match s.stage i with
      | .adding =>
          s.reserved.length + s.owedSubs < s.taken.length + s.owedAdds + (queueLen - 1)
      | .subtracting _ => s.taken.length + s.owedAdds < s.reserved.length + s.owedSubs
      | _ => True

/-! ## One step -/

/-- What the counter has to do with the calls. -/
structure Sized (s : Threads ι α) : Prop where
  idle : Parties.AtRest .idle s.stage
  balance : s.queue.size.toNat + s.taken.length + s.owedAdds = s.reserved.length + s.owedSubs
  small : s.queue.size.toNat ≤ queueLen - 1

theorem sized_start (junk : Nat → α) : Sized (start junk : Threads ι α) := by
  refine ⟨Parties.atRest_rest, ?_, Nat.zero_le _⟩
  rw [owedAdds, owedSubs, start, Parties.count_rest rfl, Parties.count_rest rfl]
  rfl

variable [DecidableEq ι] {s s' : Threads ι α} {i : ι}

/-- One thread goes on: what it owes and what it does to the queue make up for each other. -/
theorem Sized.shift (h : Sized s) (s₁ : Threads ι α) (hsame : s₁.stage = s.stage)
    {old : ThreadStage α} (hstage : s.stage i = old) (stage : ThreadStage α)
    (hsum : s₁.queue.size.toNat + s₁.taken.length + stage.owesAdd.toNat + old.owesSub.toNat +
      s.reserved.length =
      s₁.reserved.length + stage.owesSub.toNat + old.owesAdd.toNat + s.queue.size.toNat +
        s.taken.length)
    (hsmall : s₁.queue.size.toNat ≤ queueLen - 1) : Sized (s₁.goto i stage) := by
  have hidle : Parties.AtRest .idle (s₁.goto i stage).stage := by
    rw [Threads.goto, hsame]
    exact h.idle.update i stage
  have hadds : (s₁.goto i stage).owedAdds + old.owesAdd.toNat =
      s.owedAdds + stage.owesAdd.toNat := by
    rw [← hstage, owedAdds, Threads.goto, hsame]
    exact h.idle.count_update rfl i stage
  have hsubs : (s₁.goto i stage).owedSubs + old.owesSub.toNat =
      s.owedSubs + stage.owesSub.toNat := by
    rw [← hstage, owedSubs, Threads.goto, hsame]
    exact h.idle.count_update rfl i stage
  have hbalance := h.balance
  refine ⟨hidle, ?_, hsmall⟩
  change s₁.queue.size.toNat + s₁.taken.length + (s₁.goto i stage).owedAdds =
    s₁.reserved.length + (s₁.goto i stage).owedSubs
  omega

/-- A step of a thread that owes afterwards what it has owed before. -/
theorem Sized.leave (h : Sized s) {old : ThreadStage α} (hstage : s.stage i = old)
    (stage : ThreadStage α) (hadd : stage.owesAdd = old.owesAdd)
    (hsub : stage.owesSub = old.owesSub) : Sized (s.goto i stage) := by
  apply h.shift s rfl hstage stage _ h.small
  rw [hadd, hsub]
  omega

/-- The CAS on `m_writeIndex` -/
theorem Sized.reserve (h : Sized s) {data : α} {w : UInt32} (hstage : s.stage i = .reserving data w) :
    Sized ((s.reserve data).goto i (.storing data w)) := by
  apply h.shift (s.reserve data) rfl hstage (.storing data w) _ h.small
  simp only [Threads.reserve, ThreadStage.owesAdd, ThreadStage.owesSub, Bool.toNat_true,
    Bool.toNat_false, List.length_append, List.length_singleton]
  omega

/-- The CAS on `m_readIndex` -/
theorem Sized.take (h : Sized s) {data : α} {r : UInt32} (hstage : s.stage i = .taking r data) :
    Sized ((s.take data).goto i (.subtracting data)) := by
  apply h.shift (s.take data) rfl hstage (.subtracting data) _ h.small
  simp only [Threads.take, ThreadStage.owesAdd, ThreadStage.owesSub, Bool.toNat_true,
    Bool.toNat_false, List.length_append, List.length_singleton]
  omega

/-- `AtomicAdd` -/
theorem Sized.add (h : Sized s) (hstage : s.stage i = .adding) :
    (s.reserved.length + s.owedSubs < s.taken.length + s.owedAdds + (queueLen - 1) →
      Sized ((s.setSize (s.queue.size + 1)).goto i .idle)) ∧
    ((s.queue.size + 1).toNat ≤ queueLen - 1 →
      s.reserved.length + s.owedSubs < s.taken.length + s.owedAdds + (queueLen - 1)) := by
  have hbalance := h.balance
  have hsmall := h.small
  have hlen : queueLen = 20971520 := rfl
  have hsize : (s.queue.size + 1).toNat = (s.queue.size.toNat + 1) % 0x100000000 :=
    UInt32.toNat_add s.queue.size 1
  constructor
  · intro hroom
    apply h.shift (s.setSize (s.queue.size + 1)) rfl hstage .idle
    · simp only [setSize, ThreadStage.owesAdd, ThreadStage.owesSub, Bool.toNat_true,
        Bool.toNat_false]
      omega
    · dsimp only [setSize]
      omega
  · intro hsmall'
    omega

/-- `AtomicSub` -/
theorem Sized.sub (h : Sized s) {data : α} (hstage : s.stage i = .subtracting data) :
    (s.taken.length + s.owedAdds < s.reserved.length + s.owedSubs →
      Sized ((s.setSize (s.queue.size - 1)).goto i .idle)) ∧
    ((s.queue.size - 1).toNat ≤ queueLen - 1 →
      s.taken.length + s.owedAdds < s.reserved.length + s.owedSubs) := by
  have hbalance := h.balance
  have hsmall := h.small
  have hlen : queueLen = 20971520 := rfl
  have hsize : (s.queue.size - 1).toNat = (0x100000000 - 1 + s.queue.size.toNat) % 0x100000000 :=
    UInt32.toNat_sub s.queue.size 1
  constructor
  · intro hmore
    apply h.shift (s.setSize (s.queue.size - 1)) rfl hstage .idle
    · simp only [setSize, ThreadStage.owesAdd, ThreadStage.owesSub, Bool.toNat_true,
        Bool.toNat_false]
      omega
    · dsimp only [setSize]
      omega
  · intro hsmall'
    omega

theorem Sized.move (h : Sized s) {s₁ : Threads ι α} {stage stage' : ThreadStage α}
    (hmove : Move s stage s₁ stage') (hstage : s.stage i = stage) :
    (InBalance s (.goOn i) → Sized (s₁.goto i stage')) ∧
      ((s₁.goto i stage').queue.size.toNat ≤ queueLen - 1 → InBalance s (.goOn i)) := by
  cases hmove with
  | add =>
      simp only [InBalance, hstage]
      exact h.add hstage
  | sub data =>
      simp only [InBalance, hstage]
      exact h.sub hstage
  | reserve data => exact ⟨fun _ => h.reserve hstage, fun _ => by simp only [InBalance, hstage]⟩
  | take data => exact ⟨fun _ => h.take hstage, fun _ => by simp only [InBalance, hstage]⟩
  | store data w =>
      have hstore : Sized (s.store w data) := ⟨h.idle, h.balance, h.small⟩
      exact ⟨fun _ => hstore.leave hstage _ rfl rfl, fun _ => by simp only [InBalance, hstage]⟩
  | commit =>
      have hcommit : Sized s.commit := ⟨h.idle, h.balance, h.small⟩
      exact ⟨fun _ => hcommit.leave hstage _ rfl rfl, fun _ => by simp only [InBalance, hstage]⟩
  | _ => exact ⟨fun _ => h.leave hstage _ rfl rfl, fun _ => by simp only [InBalance, hstage]⟩

theorem Sized.step (h : Sized s) {a : ThreadStep ι α} (hs : s.step a = some s') :
    (InBalance s a → Sized s') ∧ (s'.queue.size.toNat ≤ queueLen - 1 → InBalance s a) := by
  rcases step_cases hs with ⟨i, c, rfl, hidle, rfl⟩ | ⟨i, s₁, stage, rfl, hmove, rfl⟩
  · refine ⟨fun _ => ?_, fun _ => trivial⟩
    cases c with
    | push data => exact h.leave hidle (.pushing data) rfl rfl
    | pop => exact h.leave hidle .popping rfl rfl
  · exact h.move hmove rfl

/-! ## Every run -/

/-- `Size()` is at most `QUEUE_LEN - 1` all along a run exactly when the run keeps the counter in
balance. -/
theorem size_le_iff_meets (junk : Nat → α) {steps : List (ThreadStep ι α)}
    (hrun : (threads junk).run (start junk) steps = some s) :
    (∀ before s', before <+: steps → (threads junk).run (start junk) before = some s' →
      s'.queue.size.toNat ≤ queueLen - 1) ↔ (threads junk).Meets InBalance (start junk) steps := by
  have hstart : Sized (start junk : Threads ι α) := sized_start junk
  have hpre : (threads junk).Meets (fun _ _ => True) (start junk) steps :=
    (threads junk).meets_of_forall (fun _ _ => trivial) _ steps
  have hok : ∀ (s : Threads ι α) a s', Sized s → (threads junk).step s a = some s' → True →
      InBalance s a → Sized s' ∧ s'.queue.size.toNat ≤ queueLen - 1 := by
    intro s a s' h hs _ hbalance
    have h' : Sized s' := (h.step hs).1 hbalance
    exact ⟨h', h'.small⟩
  have hbad : ∀ (s : Threads ι α) a s', Sized s → (threads junk).step s a = some s' → True →
      s'.queue.size.toNat ≤ queueLen - 1 → InBalance s a := by
    intro s a s' h hs _ hsmall
    exact (h.step hs).2 hsmall
  exact (threads junk).meets_iff_forall_states hok hbad hstart hstart.small hpre hrun

/-- A push and then a pop. -/
theorem size_le_iff_meets_pop :
    let steps : List (ThreadStep Nat Nat) := .call 0 (.push 7) :: List.replicate 6 (.goOn 0) ++
      .call 1 .pop :: List.replicate 5 (.goOn 1)
    (threads fun _ => 0).Meets InBalance (start fun _ => 0) steps ∧
      ∀ before s', before <+: steps → (threads fun _ => 0).run (start fun _ => 0) before = some s' →
        s'.queue.size.toNat ≤ queueLen - 1 := by
  intro steps
  have hrun : ((threads fun _ => 0).run (start fun _ => 0) steps).isSome := by decide +kernel
  have hall : ∀ before ∈ steps.inits, ((threads fun _ => 0).run (start fun _ => 0) before).all
      (fun s' => decide (s'.queue.size.toNat ≤ queueLen - 1)) = true := by
    decide +kernel
  have hsmall (before : List (ThreadStep Nat Nat)) (s' : Threads Nat Nat) (hbefore : before <+: steps)
      (hrun' : (threads fun _ => 0).run (start fun _ => 0) before = some s') :
      s'.queue.size.toNat ≤ queueLen - 1 := by
    have hhere := hall before ((List.mem_inits before steps).mpr hbefore)
    rw [hrun', Option.all_some] at hhere
    exact of_decide_eq_true hhere
  exact ⟨(size_le_iff_meets (fun _ => 0) (Option.some_get hrun).symm).mp hsmall, hsmall⟩

/-- The element is taken, and the counter counted down, before the `Push` has counted it up. -/
theorem size_underflow : ∃ s : Threads Nat Nat,
    (threads fun _ => 0).run (start fun _ => 0) (.call 0 (.push 7) :: List.replicate 5 (.goOn 0) ++
      .call 1 .pop :: List.replicate 5 (.goOn 1)) = some s ∧
    s.queue.size.toNat = 0xffffffff ∧ ¬s.queue.size.toNat ≤ queueLen - 1 := by
  have hsize : ((threads fun _ => 0).run (start fun _ => 0) (.call 0 (.push 7) ::
      List.replicate 5 (.goOn 0) ++ .call 1 .pop :: List.replicate 5 (.goOn 1))).map
      (fun s : Threads Nat Nat => s.queue.size.toNat) = some 0xffffffff := by
    decide +kernel
  obtain ⟨s, hrun, hs⟩ := Option.map_eq_some_iff.mp hsize
  refine ⟨s, hrun, hs, ?_⟩
  rw [hs]
  decide

end Threads

end CmdTran
