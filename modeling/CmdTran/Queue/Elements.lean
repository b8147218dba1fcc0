import CmdTran.Queue.Interleaving

/-!
# Where an element is

When what is pushed was nowhere before, each element is in one place: it waits in the queue, one thread has
it in hand, or it is outside. Calls that overlap keep it so.
-/

namespace CmdTran

variable {ι α : Type}

namespace ThreadStage

/-- The element that is only with the thread: still to push, or taken. -/
def inHand : ThreadStage α → Option α
  | pushing data | pushLoaded data _ | reserving data _ | subtracting data => some data
  | _ => none

/-- The element that the call returns with the next step. -/
def returned : ThreadStage α → Option α
  | subtracting data => some data
  | _ => none

end ThreadStage

namespace Threads

/-- The elements that have a place in the queue. -/
def waiting (s : Threads ι α) : List α := s.reserved.drop s.taken.length

/-- No element is in two places, and each of them is `ok`. -/
structure Apart (ok : α → Prop) (s : Threads ι α) (outside : List α) : Prop where
  nodup : (s.waiting ++ outside).Nodup
  places : ∀ x ∈ s.waiting ++ outside, ok x
  hand : ∀ i x, (s.stage i).inHand = some x → ok x ∧ x ∉ s.waiting ++ outside
  hands : ∀ i j x, (s.stage i).inHand = some x → (s.stage j).inHand = some x → i = j

variable {ok : α → Prop} {s s' s₁ : Threads ι α} {outside outside₁ : List α} {i : ι} {x : α}
  {stage stage' : ThreadStage α}

namespace Apart

/-! ## Outside -/

theorem imp (h : Apart ok s outside) {ok' : α → Prop} (hok : ∀ x, ok x → ok' x) : Apart ok' s outside :=
  ⟨h.nodup, fun x hx => hok x (h.places x hx),
    fun i x hx => ⟨hok x (h.hand i x hx).1, (h.hand i x hx).2⟩, h.hands⟩

/-- Elements change between the queue and outside. -/
theorem perm (h : Apart ok s outside) (hstage : s₁.stage = s.stage)
    (hperm : (s₁.waiting ++ outside₁).Perm (s.waiting ++ outside)) : Apart ok s₁ outside₁ := by
  refine ⟨hperm.nodup_iff.mpr h.nodup, ?_, ?_, ?_⟩
  · intro x hx
    exact h.places x (hperm.mem_iff.mp hx)
  · intro i x hx
    rw [hstage] at hx
    obtain ⟨hok, hnot⟩ := h.hand i x hx
    exact ⟨hok, fun hmem => hnot (hperm.mem_iff.mp hmem)⟩
  · rw [hstage]
    exact h.hands

/-- An element gets lost. -/
theorem forget (h : Apart ok s (x :: outside)) : Apart ok s outside := by
  have hsub : (s.waiting ++ outside).Sublist (s.waiting ++ x :: outside) :=
    (List.sublist_cons_self x outside).append_left s.waiting
  refine ⟨hsub.nodup h.nodup, fun y hy => h.places y (hsub.subset hy), ?_, h.hands⟩
  intro i y hy
  obtain ⟨hok, hnot⟩ := h.hand i y hy
  exact ⟨hok, fun hmem => hnot (hsub.subset hmem)⟩

theorem forgetAll (xs : List α) (h : Apart ok s (xs ++ outside)) : Apart ok s outside := by
  induction xs with
  | nil => exact h
  | cons x xs ih => exact ih h.forget

/-- There is a new element. -/
theorem add (h : Apart ok s outside) (hx : ok x) (hnot : x ∉ s.waiting ++ outside)
    (hhand : ∀ i, (s.stage i).inHand ≠ some x) : Apart ok s (x :: outside) := by
  refine ⟨List.perm_middle.nodup_iff.mpr (List.nodup_cons.mpr ⟨hnot, h.nodup⟩), ?_, ?_, h.hands⟩
  · intro y hy
    rcases List.mem_cons.mp (List.perm_middle.mem_iff.mp hy) with rfl | hold
    · exact hx
    · exact h.places y hold
  · intro i y hy
    obtain ⟨hok, hold⟩ := h.hand i y hy
    refine ⟨hok, fun hmem => ?_⟩
    rcases List.mem_cons.mp (List.perm_middle.mem_iff.mp hmem) with rfl | hin
    · exact hhand i hy
    · exact hold hin

/-! ## In hand -/

variable [DecidableEq ι]

theorem stay (h : Apart ok s outside)
    (hstage : stage.inHand = (s.stage i).inHand ∨ stage.inHand = none) :
    Apart ok (s.goto i stage) outside := by
  have hold : ∀ j y, ((s.goto i stage).stage j).inHand = some y → (s.stage j).inHand = some y := by
    intro j y hy
    simp only [Threads.goto, Function.update_apply] at hy
    split at hy
    · rename_i heq
      rcases hstage with hsame | hnone
      · rw [heq, ← hsame, hy]
      · rw [hnone] at hy
        cases hy
    · exact hy
  exact ⟨h.nodup, h.places, fun j y hy => h.hand j y (hold j y hy),
    fun j k y hj hk => h.hands j k y (hold j y hj) (hold k y hk)⟩

/-- The thread puts down what it had in hand. -/
theorem release (h : Apart ok s outside) (hx : (s.stage i).inHand = some x) (hstage : stage.inHand = none) :
    Apart ok (s.goto i stage) (x :: outside) := by
  have hstay : Apart ok (s.goto i stage) outside := h.stay (.inr hstage)
  obtain ⟨hok, hnot⟩ := h.hand i x hx
  apply hstay.add hok hnot
  intro j hj
  simp only [Threads.goto, Function.update_apply] at hj
  split at hj
  · rw [hstage] at hj
    cases hj
  · rename_i hne
    exact hne (h.hands j i x hj hx)

/-- The thread takes an element from outside. -/
theorem grab (h : Apart ok s (x :: outside)) (hstage : stage.inHand = some x) :
    Apart ok (s.goto i stage) outside := by
  have hmem : x ∈ s.waiting ++ x :: outside := List.mem_append_right _ List.mem_cons_self
  obtain ⟨hnot, _⟩ := List.nodup_cons.mp (List.perm_middle.nodup_iff.mp h.nodup)
  have hothers : ∀ j, (s.stage j).inHand ≠ some x := fun j hj => (h.hand j x hj).2 hmem
  refine ⟨h.forget.nodup, h.forget.places, ?_, ?_⟩
  · intro j y hy
    simp only [Threads.goto, Function.update_apply] at hy
    split at hy
    · rw [hstage] at hy
      cases hy
      exact ⟨h.places x hmem, hnot⟩
    · exact h.forget.hand j y hy
  · intro j k y hj hk
    simp only [Threads.goto, Function.update_apply] at hj hk
    split at hj
    · rename_i heq
      rw [hstage] at hj
      cases hj
      split at hk
      · rename_i heq'
        rw [heq, heq']
      · exact absurd hk (hothers k)
    · split at hk
      · rw [hstage] at hk
        cases hk
        exact absurd hj (hothers j)
      · exact h.hands j k y hj hk

/-! ## One step -/

/-- What a call returns is outside from then on. -/
theorem move (h : Apart ok s outside) (hinv : Inv s) (hmove : Move s stage s₁ stage')
    (hstage : s.stage i = stage) : Apart ok (s₁.goto i stage') (stage.returned.toList ++ outside) := by
  subst hstage
  generalize hold : s.stage i = old at hmove
  cases hmove with
  | reserve data =>
      have hle : s.taken.length ≤ s.reserved.length := hinv.read_le.trans hinv.le_write
      have hdown : Apart ok (s.goto i (.storing data s.queue.writeIndex)) (data :: outside) :=
        h.release (by rw [hold]; rfl) rfl
      have hwaiting : ((s.reserve data).goto i (.storing data s.queue.writeIndex)).waiting =
          s.waiting ++ [data] := List.drop_append_of_le_length hle
      refine hdown.perm rfl ?_
      rw [hwaiting, List.append_assoc]
      exact List.Perm.refl _
  | take data =>
      have hlocal := hinv.stages i
      rw [hold] at hlocal
      obtain ⟨_, hdata⟩ := hlocal.2 hinv.read
      obtain ⟨hlt, hget⟩ := List.getElem?_eq_some_iff.mp hdata
      have hwaiting : s.waiting = data :: (s.take data).waiting := by
        rw [waiting, List.drop_eq_getElem_cons hlt, hget, waiting, Threads.take, List.length_append]
        rfl
      have hup : Apart ok (s.take data) (data :: outside) := by
        refine h.perm rfl ?_
        rw [hwaiting]
        exact List.perm_middle
      exact hup.grab rfl
  | sub data =>
      have hdown : Apart ok (s.goto i .idle) (data :: outside) := h.release (by rw [hold]; rfl) rfl
      exact hdown.perm rfl (List.Perm.refl _)
  | loadWrite | notFull | retryPush => exact h.stay (.inl (by rw [hold]; rfl))
  | full | spin | loadRead | empty | notEmpty | copy | retryPop => exact h.stay (.inr rfl)
  | store data w =>
      have hsame : Apart ok (s.store w data) outside := h.perm rfl (List.Perm.refl _)
      exact hsame.stay (.inr rfl)
  | commit =>
      have hsame : Apart ok s.commit outside := h.perm rfl (List.Perm.refl _)
      exact hsame.stay (.inr rfl)
  | add =>
      have hsame : Apart ok (s.setSize (s.queue.size + 1)) outside := h.perm rfl (List.Perm.refl _)
      exact hsame.stay (.inr rfl)

end Apart

end Threads

end CmdTran
