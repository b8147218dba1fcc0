import CmdTran.Lib.Parties
import CmdTran.Queue.Interleaving

/-!
# Progress of the calls

A CAS on `m_writeIndex` or `m_readIndex` that fails sends a thread back to its loads, but only after another
thread has reserved a place or taken an element; one on `m_maximumReadIndex` is tried again until the pushes
before have committed.
-/

namespace CmdTran

variable {ι α : Type}

/-- The steps that a call has still to take if no other thread takes its place in the queue. With `n` threads,
a CAS on `m_writeIndex` or `m_readIndex` also pays for what it makes the others do again. -/
def ThreadStage.left (n : Nat) (q : CLockFreeQueue α) : ThreadStage α → Nat
  | idle => 0
  | pushing _ => 4 * n + 6
  | pushLoaded _ w => 4 * n + if w = q.writeIndex then 5 else 8
  | reserving _ w => 4 * n + if w = q.writeIndex then 4 else 7
  | storing _ _ => 3
  | committing _ => 2
  | adding => 1
  | popping => 4 * n + 5
  | popLoaded r => 4 * n + if r = q.readIndex then 4 else 8
  | copying r => 4 * n + if r = q.readIndex then 3 else 7
  | taking r _ => 4 * n + if r = q.readIndex then 2 else 6
  | subtracting _ => 1

namespace Threads

/-- The step is a CAS on `m_maximumReadIndex` that fails. -/
def spins (s : Threads ι α) : ThreadStep ι α → Bool
  | .call _ _ => false
  | .goOn i =>
      match s.stage i with
      | .committing currentWriteIndex => s.queue.maximumReadIndex ≠ currentWriteIndex
      | _ => false

def isCall : ThreadStep ι α → Bool
  | .call _ _ => true
  | .goOn _ => false

/-- A step of a call that is not a spin. -/
def works (s : Threads ι α) (a : ThreadStep ι α) : Bool := !isCall a && !s.spins a

variable {s s' s₁ : Threads ι α} {i : ι} {n : Nat}

/-! ## Work -/

/-- The indices matter to what is left only by what a thread has loaded of them. -/
theorem left_le (q q' : CLockFreeQueue α) (stage : ThreadStage α) : stage.left n q' ≤ stage.left n q + 4 := by
  cases stage with
  | pushLoaded _ w | reserving _ w | popLoaded r | copying r | taking r _ =>
      dsimp only [ThreadStage.left]
      split <;> split <;> omega
  | _ => exact Nat.le_add_right _ 4

theorem left_congr {q q' : CLockFreeQueue α} (hwrite : q'.writeIndex = q.writeIndex)
    (hread : q'.readIndex = q.readIndex) (stage : ThreadStage α) : stage.left n q' = stage.left n q := by
  cases stage with
  | pushLoaded | reserving => simp only [ThreadStage.left, hwrite]
  | popLoaded | copying | taking => simp only [ThreadStage.left, hread]
  | _ => rfl

section Work

variable [DecidableEq ι]

/-- What a step of a thread does to the steps that are left, its own and those of the others. -/
inductive Spent (n : Nat) (s : Threads ι α) (i : ι) (old : ThreadStage α) (s' : Threads ι α) : Prop where
  | own (new : ThreadStage α) (hstage : s'.stage = Function.update s.stage i new)
      (hwrite : s'.queue.writeIndex = s.queue.writeIndex) (hread : s'.queue.readIndex = s.queue.readIndex)
      (hleft : new.left n s.queue < old.left n s.queue)
  | cas (new : ThreadStage α) (hstage : s'.stage = Function.update s.stage i new)
      (hleft : new.left n s'.queue + 4 * n < old.left n s.queue)
  | spin (w : UInt32) (hold : old = .committing w) (hne : s.queue.maximumReadIndex ≠ w)
      (hstage : s'.stage = Function.update s.stage i old) (hqueue : s'.queue = s.queue)

theorem act_spent {old : ThreadStage α} (hs : s.act i old = some s') : Spent n s i old s' := by
  cases old with
  | idle => cases hs
  | pushing data =>
      cases hs
      refine .own _ rfl rfl rfl ?_
      simp only [ThreadStage.left, if_true]
      omega
  | pushLoaded data w =>
      rw [act] at hs
      split at hs <;> cases hs
      · refine .own _ rfl rfl rfl ?_
        simp only [ThreadStage.left]
        split <;> omega
      · refine .own _ rfl rfl rfl ?_
        simp only [ThreadStage.left]
        split <;> omega
  | reserving data w =>
      rw [act] at hs
      split at hs
      · rename_i hcas
        cases hs
        refine .cas _ rfl ?_
        simp only [ThreadStage.left, hcas, if_true]
        omega
      · rename_i hcas
        cases hs
        refine .own _ rfl rfl rfl ?_
        simp only [ThreadStage.left, if_neg (Ne.symm hcas)]
        omega
  | storing data w =>
      cases hs
      exact .own _ rfl rfl rfl (Nat.lt_succ_self 2)
  | committing w =>
      rw [act] at hs
      split at hs
      · cases hs
        exact .own _ rfl rfl rfl (Nat.lt_succ_self 1)
      · rename_i hcas
        cases hs
        exact .spin w rfl hcas rfl rfl
  | adding =>
      cases hs
      exact .own _ rfl rfl rfl Nat.one_pos
  | popping =>
      cases hs
      refine .own _ rfl rfl rfl ?_
      simp only [ThreadStage.left, if_true]
      omega
  | popLoaded r =>
      rw [act] at hs
      split at hs <;> cases hs
      · refine .own _ rfl rfl rfl ?_
        simp only [ThreadStage.left]
        split <;> omega
      · refine .own _ rfl rfl rfl ?_
        simp only [ThreadStage.left]
        split <;> omega
  | copying r =>
      cases hs
      refine .own _ rfl rfl rfl ?_
      simp only [ThreadStage.left]
      split <;> omega
  | taking r data =>
      rw [act] at hs
      split at hs
      · rename_i hcas
        cases hs
        refine .cas _ rfl ?_
        simp only [ThreadStage.left, hcas, if_true]
        omega
      · rename_i hcas
        cases hs
        refine .own _ rfl rfl rfl ?_
        simp only [ThreadStage.left, if_neg (Ne.symm hcas)]
        omega
  | subtracting data =>
      cases hs
      exact .own _ rfl rfl rfl Nat.one_pos

variable [Fintype ι]

/-- What all calls that have begun have still to do. -/
def left (s : Threads ι α) : Nat := ∑ i, (s.stage i).left (Fintype.card ι) s.queue

/-- One thread goes on; what each of the others has left grows by `c` at most. -/
theorem left_le_of_others {new : ThreadStage α} {c : Nat} (hstage : s'.stage = Function.update s.stage i new)
    (h : ∀ stage : ThreadStage α,
      stage.left (Fintype.card ι) s'.queue ≤ stage.left (Fintype.card ι) s.queue + c) :
    s'.left + (s.stage i).left (Fintype.card ι) s.queue + c ≤
      s.left + new.left (Fintype.card ι) s'.queue + c * Fintype.card ι := by
  have hothers : ∀ j, j ≠ i → (s'.stage j).left (Fintype.card ι) s'.queue ≤
      (s.stage j).left (Fintype.card ι) s.queue + c := by
    intro j hj
    rw [hstage, Function.update_of_ne hj]
    exact h (s.stage j)
  have hsum := Parties.sum_le_of_others hothers
  have hi : s'.stage i = new := by rw [hstage, Function.update_self]
  rw [hi] at hsum
  exact hsum

theorem left_enter (c : Call α) (h : s.stage i = .idle) :
    (s.goto i (enter c)).left ≤ s.left + (4 * Fintype.card ι + 6) := by
  have hsum : (s.goto i (enter c)).left + (s.stage i).left (Fintype.card ι) s.queue + 0 ≤
      s.left + (enter c).left (Fintype.card ι) s.queue + 0 * Fintype.card ι :=
    left_le_of_others rfl fun _ => Nat.le_refl _
  have hnew : (enter c).left (Fintype.card ι) s.queue ≤ 4 * Fintype.card ι + 6 := by
    cases c with
    | push data => exact Nat.le_refl _
    | pop => exact Nat.le_succ _
  have hold : (s.stage i).left (Fintype.card ι) s.queue = 0 := by rw [h, ThreadStage.left]
  omega

/-- A step that is not a spin leaves less to do. -/
theorem Spent.left_lt (h : Spent (Fintype.card ι) s i (s.stage i) s') :
    s'.left + (s.works (.goOn i)).toNat ≤ s.left := by
  have hwork : (s.works (.goOn i)).toNat ≤ 1 := Bool.toNat_le _
  cases h with
  | own new hstage hwrite hread hleft =>
      have hsum := left_le_of_others (c := 0) hstage fun stage =>
        Nat.le_of_eq (left_congr hwrite hread stage)
      rw [left_congr hwrite hread] at hsum
      omega
  | cas new hstage hleft =>
      have hsum := left_le_of_others hstage (left_le s.queue s'.queue)
      omega
  | spin w hold hne hstage hqueue =>
      have hspin : s.works (.goOn i) = false := by
        simp [works, spins, isCall, hold, hne]
      have hsum := left_le_of_others (c := 0) hstage fun stage => by rw [hqueue]; exact Nat.le_refl _
      rw [hqueue] at hsum
      rw [hspin, Bool.toNat_false]
      omega

theorem left_step {a : ThreadStep ι α} (hs : s.step a = some s') :
    s'.left + (s.works a).toNat ≤ s.left + (4 * Fintype.card ι + 6) * (isCall a).toNat := by
  cases a with
  | call j c =>
      rw [step] at hs
      split at hs
      · rename_i hidle
        cases hs
        rw [works, isCall, Bool.toNat_true, Nat.mul_one]
        exact left_enter c hidle
      · cases hs
  | goOn j => exact Spent.left_lt (act_spent hs)

end Work

/-! ## Owners -/

/-- Each place that is reserved and not committed has an owner. -/
def Covered (s : Threads ι α) : Prop :=
  ∀ w : UInt32, s.queue.maximumReadIndex.toNat ≤ w.toNat → w.toNat < s.reserved.length →
    ∃ i, (s.stage i).owned = some w

theorem covered_start (junk : Nat → α) : Covered (start junk : Threads ι α) :=
  fun _ _ hlt => absurd hlt (Nat.not_lt_zero _)

variable [DecidableEq ι]

/-- The thread owns the same place as before, or none as before. -/
theorem Covered.same (h : Covered s) {new : ThreadStage α} (howned : new.owned = (s.stage i).owned)
    (hstages : s₁.stage = s.stage) (hmax : s₁.queue.maximumReadIndex = s.queue.maximumReadIndex)
    (hreserved : s₁.reserved = s.reserved) : Covered (s₁.goto i new) := by
  intro w hle hlt
  dsimp only [Threads.goto] at hle hlt
  rw [hmax] at hle
  rw [hreserved] at hlt
  obtain ⟨j, hj⟩ := h w hle hlt
  refine ⟨j, ?_⟩
  by_cases hji : j = i
  · subst hji
    rw [goto_stage, howned]
    exact hj
  · simp only [Threads.goto, Function.update_of_ne hji, hstages]
    exact hj

theorem Covered.move (h : Covered s) (hinv : Inv s) {old new : ThreadStage α} (hmove : Move s old s₁ new)
    (hstage : s.stage i = old) : Covered (s₁.goto i new) := by
  cases hmove with
  | reserve data =>
      intro w hle hlt
      have hwrite := hinv.write
      rcases Nat.lt_or_eq_of_le (Nat.le_of_lt_succ (by simpa [Threads.reserve, Threads.goto] using hlt)) with
        hlt' | heq
      · obtain ⟨j, hj⟩ := h w hle hlt'
        refine ⟨j, ?_⟩
        have hji : j ≠ i := by
          rintro rfl
          rw [hstage] at hj
          cases hj
        simp only [Threads.goto, Function.update_of_ne hji]
        exact hj
      · refine ⟨i, ?_⟩
        rw [goto_stage]
        exact congrArg some (UInt32.toNat_inj.mp (hwrite.trans heq.symm))
  | commit =>
      intro w hle hlt
      have hbounds : s.queue.maximumReadIndex.toNat < s.reserved.length :=
        (hinv.owned (i := i) (by rw [hstage]; rfl)).2
      have hnext : (s.queue.maximumReadIndex + 1).toNat = s.queue.maximumReadIndex.toNat + 1 :=
        toNat_succ (Nat.lt_of_le_of_lt hbounds hinv.few)
      have hle' : s.queue.maximumReadIndex.toNat + 1 ≤ w.toNat := hnext ▸ hle
      obtain ⟨j, hj⟩ := h w (Nat.le_of_succ_le hle') hlt
      refine ⟨j, ?_⟩
      have hji : j ≠ i := by
        rintro rfl
        rw [hstage] at hj
        cases hj
        exact Nat.lt_irrefl _ hle'
      simp only [Threads.goto, Function.update_of_ne hji]
      exact hj
  | store data w => exact h.same (by rw [hstage]; rfl) rfl rfl rfl
  | spin w => exact h.same (by rw [hstage]) rfl rfl rfl
  | _ => exact h.same (by rw [hstage]; rfl) rfl rfl rfl

theorem Covered.step (h : Covered s) (hinv : Inv s) {a : ThreadStep ι α} (hs : s.step a = some s') :
    Covered s' := by
  rcases step_cases hs with ⟨i, c, _, hidle, rfl⟩ | ⟨i, s₁, stage, _, hmove, rfl⟩
  · refine h.same ?_ rfl rfl rfl
    rw [hidle]
    cases c with
    | push | pop => rfl
  · exact h.move hinv hmove rfl

/-- `Inv` and `Covered` of a run with fewer than `2^32` pushes. -/
theorem covered_of_run {junk : Nat → α} {as : List (ThreadStep ι α)}
    (hr : (threads junk).run (start junk) as = some s) (hfew : s.reserved.length < 0x100000000) :
    Inv s ∧ Covered s := by
  apply (threads junk).run_invariant_below (fun s => s.reserved.length) _ _ _ hr hfew
  · intro s a s' hs
    exact reserved_le_of_step hs
  · rintro s a s' ⟨hinv, hcovered⟩ hs hlt
    exact ⟨hinv.step hs hlt, hcovered.step hinv hs⟩
  · exact fun _ => ⟨inv_start junk, covered_start junk⟩

/-! ## Main results -/

/-- A thread in a call can go on. -/
theorem goOn_isSome (h : s.stage i ≠ .idle) : ∃ s', s.step (.goOn i) = some s' := by
  rw [step]
  cases hstage : s.stage i with
  | idle => exact absurd hstage h
  | pushLoaded | reserving | committing | popLoaded | taking =>
      rw [act]
      split <;> exact ⟨_, rfl⟩
  | _ => exact ⟨_, rfl⟩

/-- Where the threads only spin, there is none in a call: the one with the first place that is not committed
would commit it. -/
theorem Inv.idle_of_spins (h : Inv s) (hcovered : Covered s)
    (hspin : ∀ i s', s.step (.goOn i) = some s' → s.spins (.goOn i)) (i : ι) : s.stage i = .idle := by
  have hcommitting : ∀ j, s.stage j ≠ .idle →
      ∃ w, s.stage j = .committing w ∧ s.queue.maximumReadIndex ≠ w := by
    intro j hj
    obtain ⟨s', hs'⟩ := goOn_isSome hj
    have hspins := hspin j s' hs'
    rw [spins] at hspins
    cases hstage : s.stage j with
    | committing w =>
        rw [hstage] at hspins
        exact ⟨w, rfl, of_decide_eq_true hspins⟩
    | _ =>
        rw [hstage] at hspins
        cases hspins
  by_contra hi
  obtain ⟨w, hw, hne⟩ := hcommitting i hi
  obtain ⟨hle, hlt⟩ := h.owned (i := i) (w := w) (by rw [hw]; rfl)
  obtain ⟨k, hk⟩ := hcovered s.queue.maximumReadIndex (Nat.le_refl _) (Nat.lt_of_le_of_lt hle hlt)
  have hidle : s.stage k ≠ .idle := by
    intro hidle
    rw [hidle] at hk
    cases hk
  obtain ⟨w', hw', hne'⟩ := hcommitting k hidle
  rw [hw'] at hk
  cases hk
  exact hne' rfl

/-- However `n` threads interleave, their calls take no more than `4 * n + 6` steps each in the mean, not
counting the spins on `m_maximumReadIndex`; and where all that the threads can do is spin, all calls have returned. -/
theorem finishes_of_run [Fintype ι] (junk : Nat → α) {as : List (ThreadStep ι α)} {s : Threads ι α}
    (hr : (threads junk).run (start junk) as = some s) :
    (threads junk).count works (start junk) as ≤ (4 * Fintype.card ι + 6) * as.countP isCall ∧
      (s.reserved.length < 0x100000000 →
        (∀ i s', s.step (.goOn i) = some s' → s.spins (.goOn i)) → ∀ i, s.stage i = .idle) := by
  constructor
  · have hstep : ∀ s a s', (threads junk).step s a = some s' →
        s'.left + (s.works a).toNat ≤ s.left + (4 * Fintype.card ι + 6) * (isCall a).toNat :=
      fun _ _ _ hs => left_step hs
    have hcount := (threads junk).count_le left hstep hr
    have hstart : (start junk : Threads ι α).left = 0 := Finset.sum_eq_zero fun _ _ => rfl
    omega
  · intro hfew hspin
    obtain ⟨hinv, hcovered⟩ := covered_of_run hr hfew
    exact hinv.idle_of_spins hcovered hspin

/-- Two pushes, of which the second waits for the first one's commit, and a pop. -/
def overtakenPushes : List (ThreadStep (Fin 3) Nat) :=
  [.call 0 (.push 7), .goOn 0, .goOn 0, .goOn 0, .call 1 (.push 8), .goOn 1, .goOn 1, .goOn 1, .goOn 1,
    .goOn 1, .goOn 1, .goOn 0, .goOn 0, .goOn 0, .goOn 1, .goOn 1, .call 2 .pop, .goOn 2, .goOn 2, .goOn 2,
    .goOn 2, .goOn 2]

theorem finishes_of_run_overtakenPushes :
    ∃ s, (threads fun _ => 0).run (start fun _ => 0) overtakenPushes = some s ∧
      (threads fun _ => 0).count works (start fun _ => 0) overtakenPushes ≤
        (4 * Fintype.card (Fin 3) + 6) * overtakenPushes.countP isCall ∧ ∀ i, s.stage i = .idle := by
  have hquiet : ((threads fun _ => 0).run (start fun _ => 0) overtakenPushes).map
      (fun s => (s.reserved, decide (∀ i, (s.step (.goOn i)).isNone))) = some ([7, 8], true) := by
    decide +kernel
  obtain ⟨s, hrun, hs⟩ := Option.map_eq_some_iff.mp hquiet
  obtain ⟨hreserved, hnone⟩ := Prod.mk.inj hs
  obtain ⟨hcount, hidle⟩ := finishes_of_run (fun _ => 0) hrun
  refine ⟨s, hrun, hcount, hidle ?_ ?_⟩
  · rw [hreserved]
    decide
  · intro i s' hs'
    have hi := of_decide_eq_true hnone i
    rw [hs'] at hi
    cases hi

/-! ## A push that stops -/

theorem stage_of_step {a : ThreadStep ι α} (hs : s.step a = some s') (ha : a ≠ .goOn i)
    (hstage : s.stage i ≠ .idle) : s'.stage i = s.stage i := by
  rcases step_cases hs with ⟨j, c, rfl, hidle, rfl⟩ | ⟨j, s₁, stage, rfl, hmove, rfl⟩
  · have hij : i ≠ j := by
      rintro rfl
      exact hstage hidle
    exact Function.update_of_ne hij _ _
  · have hij : i ≠ j := by
      rintro rfl
      exact ha rfl
    rw [← hmove.stage]
    exact Function.update_of_ne hij _ _

theorem stage_of_run {junk : Nat → α} {as : List (ThreadStep ι α)} (hr : (threads junk).run s as = some s')
    (has : .goOn i ∉ as) (hstage : s.stage i ≠ .idle) : s'.stage i = s.stage i := by
  have hmeets : (threads junk).Meets (fun _ a => a ≠ .goOn i) s as := by
    apply (threads junk).meets_of_forall_mem
    rintro a ha rfl
    exact has ha
  have hkeep : ∀ s₁ a s₂, s₁.stage i = s.stage i → a ≠ .goOn i → (threads junk).step s₁ a = some s₂ →
      s₂.stage i = s.stage i := by
    intro s₁ a s₂ hsame hne hstep
    rw [← hsame] at hstage ⊢
    exact stage_of_step hstep hne hstage
  exact hmeets.invariant _ hkeep rfl hr

/-- Places without a gap that have owners are no more than there are owners. -/
theorem reserved_le_owners [Fintype ι] (hfew : s.reserved.length < 0x100000000) {w : Nat}
    (h : ∀ v : UInt32, w ≤ v.toNat → v.toNat < s.reserved.length → ∃ j, (s.stage j).owned = some v) :
    s.reserved.length ≤ w + (Finset.univ.filter fun j => (s.stage j).owned.isSome).card := by
  have htoNat : ∀ k, w + k < s.reserved.length → (UInt32.ofNat (w + k)).toNat = w + k := by
    intro k hk
    exact UInt32.toNat_ofNat_of_lt' (Nat.lt_trans hk hfew)
  have howner : ∀ k : Fin (s.reserved.length - w), ∃ j, (s.stage j).owned = some (UInt32.ofNat (w + k)) := by
    intro k
    have hk := htoNat k (by omega)
    exact h _ (by omega) (by omega)
  choose owner howner using howner
  have hinjective : Function.Injective owner := by
    intro k k' heq
    have hsame := (howner k).symm.trans (heq ▸ howner k')
    have hnat := congrArg UInt32.toNat (Option.some.inj hsame)
    rw [htoNat k (by omega), htoNat k' (by omega)] at hnat
    exact Fin.ext (Nat.add_left_cancel hnat)
  have himage : Finset.univ.image owner ⊆ Finset.univ.filter fun j => (s.stage j).owned.isSome := by
    intro j hj
    obtain ⟨k, -, rfl⟩ := Finset.mem_image.mp hj
    exact Finset.mem_filter.mpr ⟨Finset.mem_univ _, by rw [howner k]; rfl⟩
  have hcard := Finset.card_le_card himage
  rw [Finset.card_image_of_injective _ hinjective, Finset.card_univ, Fintype.card_fin] at hcard
  omega

/-- A thread that has reserved the place `w` and takes no step until it is scheduled again holds up everything
behind: whatever the others do, nothing from the place on is taken, no push that has a later place returns,
and so there are never more of them than threads. -/
theorem heldUp_of_run [Fintype ι] (junk : Nat → α) {as bs : List (ThreadStep ι α)} {s s' : Threads ι α} {i : ι}
    {w : UInt32} (hr : (threads junk).run (start junk) as = some s) (howned : (s.stage i).owned = some w)
    (hr' : (threads junk).run s bs = some s') (hbs : .goOn i ∉ bs) (hfew : s'.reserved.length < 0x100000000) :
    s'.taken <+: s'.reserved.take w.toNat ∧
      (∀ v : UInt32, w.toNat ≤ v.toNat → v.toNat < s'.reserved.length → ∃ j, (s'.stage j).owned = some v) ∧
      s'.reserved.length ≤ w.toNat + Fintype.card ι := by
  have hstage : s.stage i ≠ .idle := by
    intro hidle
    rw [hidle] at howned
    cases howned
  have howned' : (s'.stage i).owned = some w := by
    rw [stage_of_run hr' hbs hstage]
    exact howned
  have hrun : (threads junk).run (start junk) (as ++ bs) = some s' := by
    rw [StepSystem.run_append, hr]
    exact hr'
  obtain ⟨hinv, hcovered⟩ := covered_of_run hrun hfew
  have hmax := (hinv.owned howned').1
  have howners : ∀ v : UInt32, w.toNat ≤ v.toNat → v.toNat < s'.reserved.length →
      ∃ j, (s'.stage j).owned = some v :=
    fun v hle hlt => hcovered v (Nat.le_trans hmax hle) hlt
  refine ⟨List.prefix_take_iff.mpr ⟨hinv.taken, Nat.le_trans hinv.read_le hmax⟩, howners, ?_⟩
  exact (reserved_le_owners hfew howners).trans (Nat.add_le_add_left (Finset.card_le_univ _) _)

/-- Two pushes to the end, and the first steps of a third one. -/
def stoppedPush : List (ThreadStep (Fin 3) Nat) :=
  [.call 0 (.push 7), .goOn 0, .goOn 0, .goOn 0, .goOn 0, .goOn 0, .goOn 0,
    .call 0 (.push 8), .goOn 0, .goOn 0, .goOn 0]

/-- A push and two pops meanwhile. -/
def heldUp : List (ThreadStep (Fin 3) Nat) :=
  [.call 1 (.push 9), .goOn 1, .goOn 1, .goOn 1, .goOn 1, .goOn 1, .goOn 1,
    .call 2 .pop, .goOn 2, .goOn 2, .goOn 2, .goOn 2, .goOn 2, .call 2 .pop, .goOn 2, .goOn 2]

theorem heldUp_of_run_stoppedPush :
    ∃ s s', (threads fun _ => 0).run (start fun _ => 0) stoppedPush = some s ∧
      (threads fun _ => 0).run s heldUp = some s' ∧ s'.reserved = [7, 8, 9] ∧ s'.taken <+: [7] ∧
      s'.reserved.length ≤ 1 + Fintype.card (Fin 3) := by
  have hends : ((threads fun _ => 0).run (start fun _ => 0) stoppedPush).any (fun s =>
      decide ((s.stage 0).owned = some 1) && ((threads fun _ => 0).run s heldUp).any fun s' =>
        decide (s'.reserved = [7, 8, 9])) = true := by
    decide +kernel
  obtain ⟨s, hrun, hs⟩ := (Option.any_eq_true ..).mp hends
  obtain ⟨howned, hs'⟩ := Bool.and_eq_true_iff.mp hs
  obtain ⟨s', hrun', hreserved⟩ := (Option.any_eq_true ..).mp hs'
  have hreserved := of_decide_eq_true hreserved
  have hheld := heldUp_of_run (fun _ => 0) hrun (of_decide_eq_true howned) hrun' (by simp [heldUp])
    (by rw [hreserved]; decide)
  rw [hreserved] at hheld
  exact ⟨s, s', hrun, hrun', hreserved, hheld.1, hreserved ▸ hheld.2.2⟩

end Threads

end CmdTran
